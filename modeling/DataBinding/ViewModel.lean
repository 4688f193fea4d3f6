import DataBinding.Json.AtPath
import DataBinding.Script

/-!
# View models

A view model is data together with the place where it is mounted. Without a place the data stays a plain
document. With one it is observed and the tree there is compiled against it, and the view model holds
the watchers until it is disposed.

Its operations are scripts that any host can run. They take paths as text. On plain data they do what
they do on observed data, except that nothing is notified and that what is stored is the document of
the value.
-/

set_option autoImplicit false

namespace DataBinding

/-- Where a view model is to be mounted. -/
inductive Place where
  | nowhere
  | node (node : NodeId)
  /-- The node that a selector names. -/
  | selector (text : String)

/-- The data of a view model. -/
inductive Data where
  | plain (json : Json)
  | reactive (model : Value)

/-- Data, and the place where it is mounted. -/
structure ViewModel where
  data : Data
  root : Option NodeId
  config : Config
  /-- The watchers that the view model holds, oldest first. -/
  watchers : List SubscriberId

/-- What finds the node that a selector names. -/
abbrev Resolver (ρ σ : Type) : Type := String → Script ρ σ (Option NodeId)

namespace Resolver

variable {ρ σ : Type}

/-- Finds the first element in some top-level nodes that a selector accepts. -/
def document (roots : List NodeId) : Resolver ρ σ := fun selector => do
  let nodes ← Script.perform (.outline roots)
  let store ← Script.perform .look
  return (nodes.map Prod.snd).find? (store.view.accepts (.parse selector))

end Resolver

namespace ViewModel

variable {ρ σ : Type}

/-- Observes data and compiles the tree at a node against it. -/
def mount (data : Json) (config : Config) (directives : Directives ρ) (node : NodeId) :
    Script ρ σ ViewModel := do
  let model ← Script.perform (.observe data)
  let watchers ← Script.perform (.compile model config directives node)
  return { data := .reactive model, root := some node, config, watchers }

/-- Makes a view model. The settings are checked first, then the place is looked up, and then the data is
observed and the tree compiled. -/
def build (data : Json) (place : Place) (config : Config) (resolver : Option (Resolver ρ σ))
    (directives : Directives ρ) : Script ρ σ ViewModel := do
  Script.ofExcept config.validate
  match place with
  | .nowhere => return { data := .plain data, root := none, config, watchers := [] }
  | .node node => mount data config directives node
  | .selector text =>
    let found ← match resolver with
      | some resolve => resolve text
      | none => pure none
    match found with
    | some node => mount data config directives node
    | none => .fail (.unresolvedRoot text)

/-- Whether the data is observed. -/
def isReactive (vm : ViewModel) : Bool :=
  match vm.data with
  | .plain _ => false
  | .reactive _ => true

/-- The observed data. -/
def model? (vm : ViewModel) : Option Value :=
  match vm.data with
  | .plain _ => none
  | .reactive model => some model

/-- The value at a path, read without subscribing anybody. -/
def get (vm : ViewModel) (path : String) : Script ρ σ Value := do
  let path ← Script.ofExcept (Path.parse path)
  match vm.data with
  | .reactive model => do
    let store ← Script.perform .look
    Script.ofExcept (store.model.peek path model)
  | .plain json => do
    let found ← Script.ofExcept (Json.followKeys path.text path.segments json)
    Script.perform (.observe found)

/-- Writes the value at a path. Comes back with whether it changed. -/
def set (vm : ViewModel) (path : String) (value : Value) : Script ρ σ (Bool × ViewModel) := do
  let path ← Script.ofExcept (Path.parse path)
  match vm.data with
  | .reactive model => do
    return (← Script.perform (.assign path model value), vm)
  | .plain json => do
    let members ← Script.ofExcept (Json.container path json)
    let stored ← Script.perform (.toJson value)
    if (Keyed.get? path.last members).any (·.same stored) then return (false, vm)
    else return (true, { vm with data := .plain (Json.putAt path.last stored path.parents json) })

/-- Makes a watcher with the policy of the view model, which holds it along with the caller. -/
def watch (vm : ViewModel) (path : String) (reaction : ρ) :
    Script ρ σ (SubscriberId × ViewModel) := do
  match vm.data with
  | .plain _ => .fail .notReactive
  | .reactive model => do
    let path ← Script.ofExcept (Path.parse path)
    let id ← Script.perform (.watch model path vm.config.baseline reaction)
    Script.perform (.retain id)
    return (id, { vm with watchers := vm.watchers ++ [id] })

/-- The document of the data as it is. -/
def snapshot (vm : ViewModel) : Script ρ σ Json :=
  match vm.data with
  | .plain json => pure json
  | .reactive model => Script.perform (.toJson model)

/-- Lets go of watchers. -/
def releaseAll : List SubscriberId → Script ρ σ Unit
  | [] => pure ()
  | id :: rest => do
    Script.perform (.release id)
    releaseAll rest

/-- Stops watchers for ever and lets go of them. -/
def disposeAll : List SubscriberId → Script ρ σ Unit
  | [] => pure ()
  | id :: rest => do
    Script.perform (.dispose id)
    Script.perform (.release id)
    disposeAll rest

/-- Stops all watchers that the view model holds. Listeners stay and go on writing the data, but nothing
is shown any more. -/
def dispose (vm : ViewModel) : Script ρ σ ViewModel := do
  disposeAll vm.watchers
  return { vm with watchers := [] }

/-- The inspected form of a view model. -/
def inspect (vm : ViewModel) : Script ρ σ String := do
  let data ← match vm.data with
    | .plain json => pure (Inspect.tagged "Plain" (Inspect.json json))
    | .reactive model => do
      let text ← Script.perform (.inspect model)
      pure (Inspect.tagged "Reactive" text.toList)
  return "Vm \x7b data: " ++ String.ofList data ++ ", watchers: "
    ++ toString vm.watchers.length ++ " \x7d"

/-! ## How a view model is made -/

section Making

variable {config : Config} {resolver : Option (Resolver ρ σ)} {directives : Directives ρ} {data : Json}

/-- Nothing is made with settings that are invalid. -/
theorem build_invalid {e : Error} (hinvalid : config.validate = .error e) (place : Place) :
    build data place config resolver directives = .done (.error e) := by
  unfold build
  rw [hinvalid]
  rfl

/-- Without a place the data is taken as it is. -/
theorem build_nowhere (hvalid : config.validate = .ok ()) :
    build data .nowhere config resolver directives =
      pure { data := .plain data, root := none, config, watchers := [] } := by
  unfold build
  rw [hvalid]
  rfl

/-- At a node the data is observed and the tree compiled. -/
theorem build_node (hvalid : config.validate = .ok ()) (node : NodeId) :
    build data (.node node) config resolver directives = mount data config directives node := by
  unfold build
  rw [hvalid]
  rfl

end Making

/-! ## What is asked for at a path -/

section Paths

variable {vm : ViewModel} {json : Json} {model : Value} {text : String} {path : Path}

/-- Nothing is read at a text that is no path. -/
theorem get_invalid {e : Error} (hparse : Path.parse text = .error e) :
    (vm.get text : Script ρ σ Value) = .done (.error e) := by
  unfold get
  rw [hparse]
  rfl

/-- Plain data is read by observing the document at the path. -/
theorem get_plain (hdata : vm.data = .plain json) (hparse : Path.parse text = .ok path) :
    (vm.get text : Script ρ σ Value) = (do
      let found ← Script.ofExcept (Json.followKeys path.text path.segments json)
      Script.perform (.observe found)) := by
  unfold get
  rw [hparse, hdata]
  rfl

/-- Observed data is read by looking at the model, without subscribing anybody. -/
theorem get_reactive (hdata : vm.data = .reactive model) (hparse : Path.parse text = .ok path) :
    (vm.get text : Script ρ σ Value) = (do
      let store ← Script.perform .look
      Script.ofExcept (store.model.peek path model)) := by
  unfold get
  rw [hparse, hdata]
  rfl

/-- Nothing is written at a text that is no path. -/
theorem set_invalid {e : Error} (hparse : Path.parse text = .error e) (value : Value) :
    (vm.set text value : Script ρ σ (Bool × ViewModel)) = .done (.error e) := by
  unfold set
  rw [hparse]
  rfl

/-- Plain data is written by copying the value out into the document, unless the same is there. -/
theorem set_plain (hdata : vm.data = .plain json) (hparse : Path.parse text = .ok path) (value : Value) :
    (vm.set text value : Script ρ σ (Bool × ViewModel)) = (do
      let members ← Script.ofExcept (Json.container path json)
      let stored ← Script.perform (.toJson value)
      if (Keyed.get? path.last members).any (·.same stored) then return (false, vm)
      else return (true, { vm with data := .plain (Json.putAt path.last stored path.parents json) })) := by
  unfold set
  rw [hparse, hdata]
  rfl

/-- Observed data is written by an assignment. -/
theorem set_reactive (hdata : vm.data = .reactive model) (hparse : Path.parse text = .ok path)
    (value : Value) :
    (vm.set text value : Script ρ σ (Bool × ViewModel)) = (do
      return (← Script.perform (.assign path model value), vm)) := by
  unfold set
  rw [hparse, hdata]
  rfl

/-- The snapshot of plain data is the document. -/
theorem snapshot_plain (hdata : vm.data = .plain json) : (vm.snapshot : Script ρ σ Json) = pure json := by
  unfold snapshot
  rw [hdata]

/-- The snapshot of observed data is copied out. -/
theorem snapshot_reactive (hdata : vm.data = .reactive model) :
    (vm.snapshot : Script ρ σ Json) = Script.perform (.toJson model) := by
  unfold snapshot
  rw [hdata]

end Paths

end ViewModel

end DataBinding
