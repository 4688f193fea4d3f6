import DataBinding.Proofs.Model.Alike
import DataBinding.Proofs.Runs.Discipline

/-!
# What a compilation pass leaves behind

A pass with the handlers that come with the library calls for no reaction and writes nothing into the
model. What it leaves behind is told by the directives that it handled: each makes its bindings, a
binding is one watcher, and the watchers are made and kept in the order of the directives. `Pass` says so
of a part of a pass, and parts that follow each other compose.
-/

set_option autoImplicit false

namespace DataBinding

/-- A directive on a node that went to the handler of its kind. -/
structure Task where
  kind : DirectiveKind
  node : NodeId
  expression : String
  deriving DecidableEq

/-- The directive that an event says was handled. -/
def Event.task? : Event → Option Task
  | .dispatched kind node expression => some ⟨kind, node, expression⟩
  | _ => none

/-- What a watcher of a pass follows and what it shows. -/
abbrev Binding (ρ : Type) : Type := Path × Reaction ρ

namespace Task

variable {ρ : Type}

/-- The bindings that a directive asks for, if it can be read. -/
def bindings (root : Value) (config : Config) (task : Task) : List (Binding ρ) :=
  match task.kind with
  | .model =>
    match Path.parse task.expression with
    | .ok path => [(path, .showValue task.node)]
    | .error _ => []
  | .text =>
    match Template.parse config.delimiters config.trimPaths task.expression with
    | .ok template => template.paths.map fun path => (path, .showText task.node template root)
    | .error _ => []

end Task

namespace Binding

variable {ρ : Type}

/-- The watcher of a binding as it is made: it knows the value at its path. -/
def watcher (m : Model) (root : Value) (config : Config) (binding : Binding ρ) : Watcher ρ where
  root := root
  path := binding.1
  policy := config.baseline
  reaction := binding.2
  baseline := (m.peek binding.1 root).toOption.getD .null

/-- A binding has the same watcher over a model with the same values. -/
theorem watcher_alike {m m' : Model} (h : m.Alike m') (root : Value) (config : Config)
    (binding : Binding ρ) : binding.watcher m' root config = binding.watcher m root config := by
  unfold watcher
  rw [h.peek]

end Binding

variable {ρ σ : Type}

namespace Store

/-- The directives that were handled so far, in their order. -/
def tasks (s : Store ρ σ) : List Task := (s.journal.filterMap Event.task?).reverse

/-- A binder of the store starts its paths from a value and has these settings. -/
def Binds (s : Store ρ σ) (binder : BinderId) (root : Value) (config : Config) : Prop :=
  binder.index < s.binders.size ∧ (s.binder binder).root = root ∧ (s.binder binder).config = config

/-- An event that says that a directive was handled adds a task. -/
theorem tasks_of_task {s s' : Store ρ σ} (event : Event) {task : Task}
    (hjournal : s'.journal = event :: s.journal) (htask : event.task? = some task) :
    s'.tasks = s.tasks ++ [task] := by
  unfold tasks
  rw [hjournal, List.filterMap_cons_some htask, List.reverse_cons]

/-- Any other event adds none. -/
theorem tasks_of_other {s s' : Store ρ σ} (event : Event)
    (hjournal : s'.journal = event :: s.journal) (htask : event.task? = none) :
    s'.tasks = s.tasks := by
  unfold tasks
  rw [hjournal, List.filterMap_cons_none htask]

/-- A binder lists a watcher that it keeps after those that it has. -/
theorem binder_keepWatcher {s : Store ρ σ} {b : BinderId} (hlt : b.index < s.binders.size)
    (id : SubscriberId) : (s.keepWatcher b id).binder b =
      { s.binder b with watchers := (s.binder b).watchers ++ [id] } := by
  simp [binder, keepWatcher, Array.getD_eq_getD_getElem?, Array.getElem_modify, hlt]

end Store

/-- What a part of a pass does. It handles these directives and makes these bindings. -/
structure Pass (binder : BinderId) (root : Value) (config : Config) (tasks : List Task)
    (bindings : List (Binding ρ)) (s s' : Store ρ σ) : Prop where
  tasks_eq : s'.tasks = s.tasks ++ tasks
  alike : s.model.Alike s'.model
  collector_eq : s'.collector = s.collector
  binds : s.Binds binder root config → s'.Binds binder root config
  subscribers_eq : s'.subscribers.toList = s.subscribers.toList ++
    bindings.map fun binding => ⟨1, .watching (binding.watcher s.model root config)⟩
  watchers_eq : (s'.binder binder).watchers = (s.binder binder).watchers ++
    (List.range' s.subscribers.size bindings.length).map SubscriberId.mk

namespace Pass

variable {binder : BinderId} {root : Value} {config : Config} {tasks tasks' : List Task}
  {bindings bindings' : List (Binding ρ)} {s s' s'' : Store ρ σ}

/-- A pass that does nothing handles nothing and binds nothing. -/
theorem refl (s : Store ρ σ) : Pass binder root config [] [] s s where
  tasks_eq := by simp
  alike := .refl s.model
  collector_eq := rfl
  binds h := h
  subscribers_eq := by simp
  watchers_eq := by simp

/-- What a pass does in two parts it does in one. -/
theorem trans (h₁ : Pass binder root config tasks bindings s s')
    (h₂ : Pass binder root config tasks' bindings' s' s'') :
    Pass binder root config (tasks ++ tasks') (bindings ++ bindings') s s'' where
  tasks_eq := by rw [h₂.tasks_eq, h₁.tasks_eq, List.append_assoc]
  alike := h₁.alike.trans h₂.alike
  collector_eq := h₂.collector_eq.trans h₁.collector_eq
  binds h := h₂.binds (h₁.binds h)
  subscribers_eq := by
    rw [h₂.subscribers_eq, h₁.subscribers_eq, List.map_append, List.append_assoc]
    simp only [Binding.watcher_alike h₁.alike]
  watchers_eq := by
    have hsize : s'.subscribers.size = s.subscribers.size + bindings.length := by
      rw [← Array.length_toList, h₁.subscribers_eq, List.length_append, List.length_map,
        Array.length_toList]
    have hrange : List.range' s.subscribers.size bindings.length ++
        List.range' (s.subscribers.size + 1 * bindings.length) bindings'.length =
        List.range' s.subscribers.size (bindings.length + bindings'.length) := List.range'_append
    rw [h₂.watchers_eq, h₁.watchers_eq, hsize, List.append_assoc, ← List.map_append,
      List.length_append, ← hrange, Nat.one_mul]

/-- Whatever leaves all of this alone. -/
theorem of_same (htasks : s'.tasks = s.tasks) (hmodel : s'.model = s.model)
    (hcollector : s'.collector = s.collector) (hsubscribers : s'.subscribers = s.subscribers)
    (hbinders : s'.binders = s.binders) :
    Pass binder root config [] [] s s' where
  tasks_eq := by rw [htasks, List.append_nil]
  alike := by
    rw [hmodel]
    exact .refl s.model
  collector_eq := hcollector
  binds h := by
    unfold Store.Binds Store.binder at h ⊢
    rw [hbinders]
    exact h
  subscribers_eq := by rw [hsubscribers, List.map_nil, List.append_nil]
  watchers_eq := by
    unfold Store.binder
    rw [hbinders]
    simp

/-- The view changes, and the journal says so. -/
theorem shown (s : Store ρ σ) (f : View ρ → View ρ) (event : Event) (htask : event.task? = none) :
    Pass binder root config [] [] s ((s.withView f).record event) :=
  .of_same (Store.tasks_of_other event rfl htask) rfl rfl rfl rfl

/-- The directive goes to its handler. -/
theorem dispatched (s : Store ρ σ) (task : Task) : Pass binder root config [task] [] s
    (s.record (.dispatched task.kind task.node task.expression)) where
  tasks_eq := Store.tasks_of_task _ rfl rfl
  alike := .refl s.model
  collector_eq := rfl
  binds h := h
  subscribers_eq := by simp [Store.record]
  watchers_eq := by simp [Store.record, Store.binder]

/-- A watcher is made and kept. -/
theorem bound (hbinder : s.Binds binder root config) (binding : Binding ρ) {cells : List CellId}
    {value : Value} :
    Pass binder root config [] [binding] s
      ((s.enroll 1 (binding.watcher s.model root config) cells
        (.made s.nextSubscriber cells value)).keepWatcher binder s.nextSubscriber) where
  tasks_eq := by
    rw [List.append_nil]
    exact Store.tasks_of_other (.made s.nextSubscriber cells value) rfl rfl
  alike := .subscribeAll s.model cells s.nextSubscriber
  collector_eq := rfl
  binds _ := by
    obtain ⟨hlt, hroot, hconfig⟩ := hbinder
    have hlt' : binder.index < (s.enroll 1 (binding.watcher s.model root config) cells
        (.made s.nextSubscriber cells value)).binders.size := hlt
    refine ⟨by simpa [Store.keepWatcher, Store.enroll] using hlt, ?_, ?_⟩
    · rw [Store.binder_keepWatcher hlt']
      exact hroot
    · rw [Store.binder_keepWatcher hlt']
      exact hconfig
  subscribers_eq := by simp [Store.keepWatcher, Store.enroll]
  watchers_eq := by
    have hlt' : binder.index < (s.enroll 1 (binding.watcher s.model root config) cells
        (.made s.nextSubscriber cells value)).binders.size := hbinder.1
    rw [Store.binder_keepWatcher hlt']
    rfl

/-- The watchers that a part of a pass has made. -/
theorem watchers_made (h : Pass binder root config tasks bindings s s') :
    (List.range' s.subscribers.size bindings.length).map (fun i => s'.watcher? ⟨i⟩) =
      bindings.map fun binding => some (binding.watcher s.model root config) := by
  apply List.ext_getElem
  · simp
  · intro i h₁ h₂
    have hi : i < bindings.length := by simpa using h₂
    have hentry : s'.subscribers[s.subscribers.size + i]? =
        some ⟨1, .watching (bindings[i].watcher s.model root config)⟩ := by
      rw [← Array.getElem?_toList, h.subscribers_eq, List.getElem?_append_right (by simp)]
      simp [hi]
    simp [Store.watcher?, Store.subscriber?, hentry]

end Pass

end DataBinding
