import DataBinding.Compile
import DataBinding.Model.Inspect

/-!
# Scripts

What a host does is a script: it asks for operations one after the other, looks at the result or the
error of each, and ends with a result or an error of its own. A host is a state `σ` together with, for
each of its reactions, the script that runs when the reaction is called for.

`Script.run` runs a script. Reactions that an operation sets off run inside that operation, and theirs
inside theirs; the depth bounds how far reactions may nest, and trees as well, and a run that would go
deeper has no outcome.
-/

set_option autoImplicit false

namespace DataBinding

open Markup (Tree)

/-- The operations that a script can ask for. -/
inductive Op (ρ σ : Type) where
  /-- Looks at everything. -/
  | look
  /-- Replaces the host's own state. -/
  | setHost (host : σ)
  /-- Turns a document into a value, whose objects are observed. -/
  | observe (json : Json)
  /-- Makes an object that has no keys. -/
  | newObject
  /-- The value at a path, tracked. -/
  | resolve (path : Path) (root : Value)
  /-- The value of a key, tracked. -/
  | readKey (object : ObjectId) (key : String)
  /-- The value of a cell, tracked. -/
  | readCell (cell : CellId)
  /-- The text that a value is shown as. -/
  | display (value : Value)
  /-- The document of a value. -/
  | toJson (value : Value)
  /-- The inspected form of a value. -/
  | inspect (value : Value)
  /-- The text of a template. -/
  | render (template : Template) (root : Value)
  | assign (path : Path) (root value : Value)
  | setKey (object : ObjectId) (key : String) (value : Value)
  | setCell (cell : CellId) (value : Value)
  /-- Makes a watcher, which the host holds. -/
  | watch (root : Value) (path : Path) (policy : BaselinePolicy) (reaction : ρ)
  /-- Makes a watcher with the settings of a binder, which holds it. -/
  | bind (binder : BinderId) (path : Path) (reaction : ρ)
  /-- Makes a subscriber of the host's own, which the host holds. -/
  | newSubscriber (reaction : ρ)
  | update (subscriber : SubscriberId)
  | dispose (watcher : SubscriberId)
  | retain (subscriber : SubscriberId)
  | release (subscriber : SubscriberId)
  | setActive (subscriber : SubscriberId) (active : Bool)
  /-- Adds an entry to the list of a cell. -/
  | subscribe (cell : CellId) (subscriber : SubscriberId)
  | notify (cell : CellId)
  /-- Fills the collector slot, or empties it. -/
  | collect (slot : Option SubscriberId)
  /-- Makes the nodes of a tree. -/
  | plant (tree : Tree)
  /-- The tree at a node. -/
  | tree (node : NodeId)
  /-- The nodes at and below some top-level nodes, with their positions. -/
  | outline (roots : List NodeId)
  | append (parent child : NodeId)
  | setText (node : NodeId) (text : String)
  | setValue (node : NodeId) (value : String)
  | setAttribute (node : NodeId) (name value : String)
  /-- Adds a listener of the host's own. -/
  | listen (node : NodeId) (reaction : ρ)
  /-- Types over the value of a node. -/
  | input (node : NodeId) (text : String)
  /-- Compiles a tree. The host holds the watchers. -/
  | compile (root : Value) (config : Config) (directives : Directives ρ) (node : NodeId)

/-- What an operation comes back with. -/
abbrev Op.Answer {ρ σ : Type} : Op ρ σ → Type
  | .look => Store ρ σ
  | .observe _ | .newObject | .resolve _ _ | .readCell _ => Value
  | .readKey _ _ => Option Value
  | .display _ | .inspect _ | .render _ _ => String
  | .toJson _ => Json
  | .assign _ _ _ | .setKey _ _ _ | .setCell _ _ => Bool
  | .watch _ _ _ _ | .bind _ _ _ | .newSubscriber _ => SubscriberId
  | .plant _ => NodeId
  | .tree _ => Tree
  | .outline _ => List (Markup.Position × NodeId)
  | .compile _ _ _ _ => List SubscriberId
  | _ => Unit

/-- A script that ends with an `α` or with an error. -/
inductive Script (ρ σ α : Type) where
  | done (result : Except Error α)
  | ask (op : Op ρ σ) (next : Except Error op.Answer → Script ρ σ α)

namespace Script

variable {ρ σ α β : Type}

instance [Inhabited α] : Inhabited (Script ρ σ α) := ⟨.done (.ok default)⟩

/-- Goes on with a script that depends on how the first one ended. -/
def chain (script : Script ρ σ α) (next : Except Error α → Script ρ σ β) : Script ρ σ β :=
  match script with
  | .done result => next result
  | .ask op more => .ask op fun answer => chain (more answer) next

instance : Monad (Script ρ σ) where
  pure a := .done (.ok a)
  bind script next := script.chain fun
    | .ok a => next a
    | .error e => .done (.error e)

/-- Asks for an operation, and fails if it fails. -/
def perform (op : Op ρ σ) : Script ρ σ op.Answer := .ask op .done

/-- Ends with an error. -/
def fail (e : Error) : Script ρ σ α := .done (.error e)

/-- Ends with a result that is at hand, or with its error. -/
def ofExcept (result : Except Error α) : Script ρ σ α := .done result

/-- Ends with how a script ended. -/
def attempt (script : Script ρ σ α) : Script ρ σ (Except Error α) :=
  script.chain fun result => .done (.ok result)

end Script

/-- What a host does, for each of its reactions. -/
structure Host (ρ σ : Type) where
  script : ρ → Stimulus → Script ρ σ Unit

namespace Run

variable {ρ σ α : Type}

/-- Carries out an operation. -/
def perform (respond : Respond ρ σ) (depth : Nat) : (op : Op ρ σ) → Run ρ σ op.Answer
  | .look => look id
  | .setHost host => change fun s => { s with host }
  | .observe json => changeGet fun s =>
    let (value, model) := Model.observe json s.model
    (value, { s with model })
  | .newObject => changeGet fun s =>
    let (value, model) := s.model.newObject
    (value, { s with model })
  | .resolve path root => resolve path root
  | .readKey object key => changeGet fun s =>
    (s.model.get? object key, s.subscribeCollector (s.model.cellAt? object key).toList)
  | .readCell cell => changeGet fun s => ((s.model.cell cell).value, s.subscribeCollector [cell])
  | .display value => display value
  | .toJson value => toJson value
  | .inspect value => do
    let text ← look fun s => s.model.inspect? value
    demand (text.map String.ofList)
  | .render template root => render template root
  | .assign path root value => assign (update respond) path root value
  | .setKey object key value => setKey (update respond) object key value
  | .setCell cell value => setCell (update respond) cell value
  | .watch root path policy reaction => watch root path policy (.hosted reaction)
  | .bind binder path reaction => bind binder path (.hosted reaction)
  | .newSubscriber reaction => changeGet (·.addSubscriber (.hosted true reaction))
  | .update subscriber => update respond subscriber
  | .dispose watcher => change (·.dispose watcher)
  | .retain subscriber => change (·.retain subscriber)
  | .release subscriber => change (·.release subscriber)
  | .setActive subscriber active => change (·.setActive subscriber active)
  | .subscribe cell subscriber => change (·.withModel (·.subscribe cell subscriber))
  | .notify cell => notify (update respond) cell
  | .collect slot => change fun s => { s with collector := slot }
  | .plant tree => changeGet fun s =>
    let (node, view) := View.plant tree s.view
    (node, { s with view })
  | .tree node => do demand (← look fun s => s.view.tree? node)
  | .outline roots => do demand (← look fun s => s.view.outline? roots)
  | .append parent child => change (·.withView (·.append parent child))
  | .setText node text => setText node text
  | .setValue node value => setValue node value
  | .setAttribute node name value => change (·.withView (·.setAttribute node name value))
  | .listen node reaction => change (·.withView (·.listen node (.hosted reaction)))
  | .input node text => input respond node text
  | .compile root config directives node => compile respond depth root config directives node

end Run

namespace Script

variable {ρ σ α : Type}

/-- Runs a script, carrying out each operation that it asks for. An error that the script ends with is
written into the journal. -/
def runWith (carryOut : (op : Op ρ σ) → Run ρ σ op.Answer) : Script ρ σ α → Run ρ σ α
  | .done result => Run.orRaise result
  | .ask op next => fun s =>
    match carryOut op s with
    | none => none
    | some (answer, s') => runWith carryOut (next answer) s'

end Script

namespace Host

variable {ρ σ : Type}

/-- What a host does when a reaction is called for, if reactions may nest `depth` deep. -/
def respond (host : Host ρ σ) : Nat → Respond ρ σ
  | 0 => fun _ _ => Run.diverge
  | depth + 1 => fun reaction stimulus =>
    (host.script reaction stimulus).runWith (Run.perform (host.respond depth) depth)

end Host

/-- Runs a script of a host. Reactions may nest `depth` deep. -/
def Script.run {ρ σ α : Type} (host : Host ρ σ) (depth : Nat) (script : Script ρ σ α) : Run ρ σ α :=
  script.runWith (Run.perform (host.respond depth) depth)

end DataBinding
