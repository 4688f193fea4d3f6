import DataBinding.Proofs.Compiling.Bare
import DataBinding.Proofs.Compiling.WatchedPaths
import DataBinding.Proofs.Mirroring.Contents

/-!
# Directives that show leaves

A directive that can be read lets a node show a content, and its handler makes one watcher for each path of the
content. If all paths lead to leaves the handler comes back, and what it leaves behind can be said exactly: each
watcher is the last of the subscribers, and in the lists of all cells on its path.
-/

set_option autoImplicit false

namespace DataBinding

variable {ρ σ : Type}

/-! ## Directives that bind leaves only -/

namespace Config

/-- What a directive lets a node show, if the directive can be read. -/
def content? (config : Config) (directive : DirectiveKind × String) : Option Content :=
  match directive.1 with
  | .model => (Path.parse directive.2).toOption.map .value
  | .text => (Template.parse config.delimiters config.trimPaths directive.2).toOption.map .text

/-- Whether a directive can be read and binds only leaves of a document. -/
def bindsLeaves (config : Config) (data : Json) (directive : DirectiveKind × String) : Bool :=
  match config.content? directive with
  | some content => content.paths.all data.isLeafAt
  | none => false

/-- What the names of attributes say after the marker. -/
def directiveNames (config : Config) (attributes : List (String × String)) : List String :=
  attributes.filterMap fun entry => directiveName? config.marker entry.1

variable {config : Config}

/-- A directive that binds leaves can be read, and what it shows are leaves only. -/
theorem content?_of_bindsLeaves {data : Json} {directive : DirectiveKind × String}
    (hbinds : config.bindsLeaves data directive = true) :
    ∃ content, config.content? directive = some content ∧
      ∀ path ∈ content.paths, data.isLeafAt path = true := by
  unfold Config.bindsLeaves at hbinds
  split at hbinds
  · next content hcontent => exact ⟨content, hcontent, List.all_eq_true.1 hbinds⟩
  · cases hbinds

/-- The name of the directive of values is read as that directive. -/
theorem ofName?_model : DirectiveKind.ofName? DirectiveKind.model.name = some .model := by decide

/-- A directive that binds leaves can be read. -/
theorem value_of_bindsLeaves {data : Json} {expression : String}
    (h : config.bindsLeaves data (.model, expression) = true) :
    ∃ path, Path.parse expression = .ok path ∧ config.content? (.model, expression) = some (.value path) := by
  unfold Config.bindsLeaves Config.content? at h
  unfold Config.content?
  cases hparse : Path.parse expression with
  | error e =>
    simp only [hparse] at h
    cases h
  | ok path => exact ⟨path, rfl, rfl⟩

/-- A text that binds only leaves is a template. -/
theorem text_of_bindsLeaves {data : Json} {expression : String}
    (h : config.bindsLeaves data (.text, expression) = true) :
    ∃ template, Template.parse config.delimiters config.trimPaths expression = .ok template ∧
      config.content? (.text, expression) = some (.text template) := by
  unfold Config.bindsLeaves Config.content? at h
  unfold Config.content?
  cases hparse : Template.parse config.delimiters config.trimPaths expression with
  | error e =>
    simp only [hparse] at h
    cases h
  | ok template => exact ⟨template, rfl, rfl⟩

end Config

namespace View

/-- The directives that are found on a node. -/
def directives (v : View ρ) (config : Config) (node : NodeId) : List (DirectiveKind × String) :=
  match (v.node node).kind with
  | .element _ => config.directives (v.node node).attributes
  | .text => config.textDirectives (v.node node).text
  | .comment => []

end View

/-! ## Making a watcher -/

/-- A watcher has been made: it is the last subscriber, and in the lists of the cells on its path. -/
structure Store.Gains (w : Watcher ρ) (s s' : Store ρ σ) : Prop where
  collector : s'.collector = s.collector
  view : s'.view = s.view
  model : s'.model = (s.model.follow w.path w.root).cells.foldl
    (fun m cell => m.subscribe cell s.nextSubscriber) s.model
  subscribers : s'.subscribers = s.subscribers.push ⟨1, .watching w⟩

namespace Store.Gains

variable {w : Watcher ρ} {s s' : Store ρ σ}

/-- A new watcher changes the model by its entries alone. -/
theorem alike (h : Gains w s s') : s.model.Alike s'.model := h.model ▸ .subscribeAll s.model _ _

/-- A new watcher leaves the shape of the model. -/
theorem sameShape (h : Gains w s s') : s.model.SameShape s'.model :=
  .of_alike h.alike (h.model ▸ Model.size_foldl_subscribe _ _ s.model)

/-- The watcher is at the end of the list of a cell, as often as its path leads through the cell. -/
theorem entries (h : Gains w s s') {cell : CellId} (hlt : cell.index < s.model.cells.size) :
    (s'.model.cell cell).subscribers = (s.model.cell cell).subscribers ++
      List.replicate ((s.model.follow w.path w.root).cells.count cell) s.nextSubscriber :=
  h.model ▸ Model.subscribers_foldl_subscribe _ s.nextSubscriber s.model hlt

end Store.Gains

namespace Run

variable {s s₁ : Store ρ σ} {binder : BinderId} {root : Value} {config : Config} {path : Path} {node : NodeId}
  {expression : String}

/-- A watcher of a path to a leaf is made, and knows the leaf. -/
theorem bind_leaf {cell : CellId} (hbinder : s.Binds binder root config) (hleaf : s.model.LeafAt root path cell)
    (reaction : Reaction ρ) :
    ∃ s', bind binder path reaction s = some (.ok s.nextSubscriber, s') ∧ s'.Binds binder root config ∧
      Store.Gains { root, path, policy := config.baseline, reaction, baseline := (s.model.cell cell).value } s s' := by
  let cells := (s.model.follow path root).cells
  let value := (s.model.cell cell).value
  let w : Watcher ρ := { root, path, policy := config.baseline, reaction, baseline := value }
  let s' := (s.enroll 1 w cells (.made s.nextSubscriber cells value)).keepWatcher binder s.nextSubscriber
  have hfound : (s.model.follow path root).outcome = .ok value := hleaf.peek
  have hfollow : s.model.follow path root = ⟨cells, .ok value⟩ := by rw [← hfound]
  have hbind : bind binder path reaction s = some (.ok s.nextSubscriber, s') := by
    unfold bind
    rw [look_bind, hbinder.2.1, hbinder.2.2, bind_apply, watch_ok _ _ hfollow]
    rfl
  exact ⟨s', hbind, (bind_ok hbinder hbind).1.binds hbinder, rfl, rfl, rfl, rfl⟩

/-- Once the watcher of a live value has been made, the node listens, and shows the value. -/
theorem bindValue_of_bind {id : SubscriberId} {value : Value} {text : List Char}
    (hbinder : s.Binds binder root config) (hparse : Path.parse expression = .ok path)
    (hbind : bind binder path (.showValue node) s = some (.ok id, s₁))
    (hpeek : s₁.model.peek path root = .ok value) (htext : s₁.model.display? value = some text) :
    bindValue binder node expression s = some (.ok (),
      ((s₁.withView (·.listen node (.assign root path))).withView (·.setValue node (String.ofList text))).record
        (.wroteValue node)) := by
  let s₂ := s₁.withView (·.listen node (.assign root path))
  have hpeek : s₂.model.peek path root = .ok value := hpeek
  have htext : s₂.model.display? value = some text := htext
  unfold bindValue
  rw [hparse, orRaise_ok_bind, look_bind, hbinder.2.1]
  refine bind_eq_ok.2 ⟨id, s₁, hbind, ?_⟩
  rw [change_bind, peek_bind, hpeek, orRaise_ok_bind]
  rw [bind_apply, display_apply, htext]
  rfl

/-- Once the watchers of a text have been made, the node shows the text. -/
theorem bindText_of_each {template : Template} {text : String} (hbinder : s.Binds binder root config)
    (hparse : Template.parse config.delimiters config.trimPaths expression = .ok template)
    (hbind : each template.paths (fun path => do
      let _ ← bind binder path (.showText node template root)
      done ()) s = some (.ok (), s₁))
    (hrender : s₁.model.render? template root = some (.ok text)) :
    bindText binder node expression s =
      some (.ok (), (s₁.withView (·.setText node text)).record (.wroteText node)) := by
  unfold bindText
  rw [look_bind, hbinder.2.1, hbinder.2.2, hparse, orRaise_ok_bind]
  refine bind_eq_ok.2 ⟨(), s₁, hbind, ?_⟩
  unfold render
  rw [bind_apply, look_bind, hrender]
  rfl

/-- An attribute that names the directive of values goes to its handler. -/
theorem compileAttribute_model {respond : Respond ρ σ} {marker : String} {entry : String × String}
    (hname : directiveName? marker entry.1 = some DirectiveKind.model.name) :
    compileAttribute respond {} binder marker node entry s =
      bindValue binder node entry.2 (s.record (.dispatched .model node entry.2)) := by
  unfold compileAttribute
  rw [hname]
  simp only [lookup_builtIn, Config.ofName?_model]
  rfl

end Run

end DataBinding
