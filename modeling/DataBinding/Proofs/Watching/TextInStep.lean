import DataBinding.Proofs.Compiling.WatchedPaths
import DataBinding.Proofs.Watching.TextWrites
import DataBinding.ViewModel

/-!
# When a bound text is in step with the model

Writing a property to which a text is subscribed does not always bring the text in step with the model:
all its watchers there may find what they delivered last, while something else in the text has changed
since, because a write in between failed before the text was rendered, or went through a property that
nobody is subscribed to. What holds of every successful write, after any sequence of writes, is
`text_after_write`: if one of the watchers told of it fires, the text is the template rendered from the
model as it is then, and otherwise the text is not written.
-/

set_option autoImplicit false

namespace DataBinding

open Markup (Tree)

variable {ρ σ : Type}

/-! ## A mounted view model -/

namespace ViewModel

variable {s s' : Store ρ σ} {vm vm' : ViewModel} {host : Host ρ σ} {depth : Nat} {base : Value}

/-- The write of a view model leaves every watcher one that shows something. -/
theorem shows_set {root : Value} {node : NodeId} {template : Template}
    (h : s.Shows root node template) (hdata : vm.data = .reactive base) {text : String} {value : Value}
    {result : Except Error (Bool × ViewModel)}
    (hrun : (vm.set text value).run host depth s = some (result, s')) :
    s'.Shows root node template := by
  cases hparse : Path.parse text with
  | error e =>
    rw [set_invalid hparse] at hrun
    cases hrun
    exact h.of_same rfl rfl rfl
  | ok path =>
    rw [set_reactive hdata hparse] at hrun
    obtain ⟨e, s₁, hassign, -, rfl⟩ | ⟨changed, s₁, hassign, hend⟩ := Script.perform_cases hrun
    · exact (h.assign hassign).of_same rfl rfl rfl
    · cases hend
      exact h.assign hassign

/-- A successful write of a view model to a cell is a successful write of the cell. -/
theorem setCell_of_set (hidle : s.collector = none) (hdata : vm.data = .reactive base) {text : String}
    {path : Path} (hparse : Path.parse text = .ok path) {cell : CellId}
    (htarget : s.model.target? path base = some cell) {value : Value} {changed : Bool}
    (hrun : (vm.set text value).run host depth s = some (.ok (changed, vm'), s')) :
    Run.setCell (Run.update (host.respond depth)) cell value s = some (.ok changed, s') := by
  rw [set_reactive hdata hparse] at hrun
  obtain ⟨e, s₁, -, hfailed, -⟩ | ⟨found, s₁, hassign, hend⟩ := Script.perform_cases hrun
  · cases hfailed
  · cases hend
    exact (Run.assign_eq_setCell hidle htarget value).symm.trans hassign

/-- Writes of a view model one after the other, whatever each of them comes to. Documents may be
observed in between, so that there are new objects to write. -/
inductive Writes (host : Host ρ σ) (depth : Nat) (vm : ViewModel) (s : Store ρ σ) : Store ρ σ → Prop where
  | none : Writes host depth vm s s
  | observed {s₁ : Store ρ σ} (earlier : Writes host depth vm s s₁) (json : Json) :
      Writes host depth vm s { s₁ with model := (Model.observe json s₁.model).2 }
  | written {s₁ s₂ : Store ρ σ} (earlier : Writes host depth vm s s₁) {text : String} {value : Value}
      {result : Except Error (Bool × ViewModel)}
      (hrun : (vm.set text value).run host depth s₁ = some (result, s₂)) : Writes host depth vm s s₂

/-- All writes of a view model leave every watcher one that shows something. -/
theorem Writes.shows {root : Value} {node : NodeId} {template : Template}
    (hwrites : Writes host depth vm s s') (hdata : vm.data = .reactive base)
    (h : s.Shows root node template) : s'.Shows root node template := by
  induction hwrites with
  | none => exact h
  | observed _ json ih => exact ih.of_same rfl rfl rfl
  | written _ hrun ih => exact shows_set ih hdata hrun

/-- Building a view model at a node observes its data and compiles the tree there. -/
theorem build_ok {data : Json} {config : Config} {directives : Directives ρ} {top : NodeId}
    (hrun : (ViewModel.build data (.node top) config none directives).run host depth s =
      some (.ok vm, s')) :
    vm.data = .reactive (Model.observe data s.model).1 ∧
      ∃ watchers, Run.compile (host.respond depth) depth (Model.observe data s.model).1 config directives
        top { s with model := (Model.observe data s.model).2 } = some (.ok watchers, s') := by
  cases hvalid : config.validate with
  | error e =>
    rw [build_invalid hvalid] at hrun
    cases hrun
  | ok _ =>
    rw [build_node hvalid] at hrun
    obtain ⟨e, s₁, -, hfailed, -⟩ | ⟨model, s₁, hobserve, hrest⟩ := Script.perform_cases hrun
    · cases hfailed
    · cases hobserve
      obtain ⟨e, s₂, -, hfailed, -⟩ | ⟨watchers, s₂, hcompile, hend⟩ := Script.perform_cases hrest
      · cases hfailed
      · cases hend
        exact ⟨rfl, watchers, hcompile⟩

end ViewModel

/-- A binding of a task shows the value or the text of the task's node, and a text is that of the
template in the task. -/
theorem reaction_of_task {base : Value} {config : Config} {task : Task} {binding : Binding ρ}
    (h : binding ∈ Task.bindings base config task) :
    binding.2 = .showValue task.node ∨
      ∃ template, task.kind = .text ∧ binding.2 = .showText task.node template base ∧
        Template.parse config.delimiters config.trimPaths task.expression = .ok template := by
  unfold Task.bindings at h
  cases hkind : task.kind with
  | model =>
    rw [hkind] at h
    cases hparse : Path.parse task.expression with
    | error e =>
      rw [hparse] at h
      cases h
    | ok path =>
      rw [hparse] at h
      obtain rfl := List.mem_singleton.1 h
      exact .inl rfl
  | text =>
    rw [hkind] at h
    cases hparse : Template.parse config.delimiters config.trimPaths task.expression with
    | error e =>
      rw [hparse] at h
      cases h
    | ok template =>
      rw [hparse] at h
      obtain ⟨path, -, rfl⟩ := List.mem_map.1 h
      exact .inr ⟨template, rfl, rfl, rfl⟩

/-- After a tree has been mounted, every watcher shows something, and a text node that a template was
found on shows that template. -/
theorem shows_of_mounted {tree : Tree} {view : View ρ} {state : σ} {top node : NodeId}
    {ids : List NodeId} (hstands : view.Stands tree top ids) {config : Config}
    (hpolicy : config.baseline = .refresh) {host : Host ρ σ} {depth : Nat} {data : Json}
    {vm : ViewModel} {s : Store ρ σ}
    (hmount : (ViewModel.build data (.node top) config none {}).run host depth { view, host := state } =
      some (.ok vm, s)) {expression : String} {template : Template}
    (hnode : (s.view.node node).kind = .text) (hbound : ⟨.text, node, expression⟩ ∈ s.tasks)
    (htemplate : Template.parse config.delimiters config.trimPaths expression = .ok template) :
    s.Shows (Model.observe data {}).1 node template := by
  obtain ⟨-, watchers, hcompile⟩ := ViewModel.build_ok hmount
  obtain ⟨tasks, hpass, -, hwalked, -⟩ := compile_ok hstands hcompile
  have htasks : s.tasks = tasks := hpass.tasks_eq
  rw [htasks] at hbound
  have hsubscribers : s.subscribers.toList =
      (tasks.flatMap (Task.bindings (Model.observe data {}).1 config)).map fun binding =>
        ⟨1, .watching (binding.watcher (Model.observe data {}).2 (Model.observe data {}).1 config)⟩ :=
    hpass.subscribers_eq
  constructor
  case idle => exact hpass.collector_eq
  case inView => exact hwalked.inside _ hbound
  case isText => exact hnode
  case watching =>
    intro id subscriber hentry
    have hmem : subscriber ∈ s.subscribers.toList := by
      unfold Store.subscriber? at hentry
      exact Array.mem_toList_iff.2 (Array.mem_of_getElem? hentry)
    rw [hsubscribers] at hmem
    obtain ⟨binding, hbinding, rfl⟩ := List.mem_map.1 hmem
    obtain ⟨task, htask, hbinding⟩ := List.mem_flatMap.1 hbinding
    refine ⟨0, _, rfl, rfl, hpolicy, ?_, ?_⟩
    · rcases reaction_of_task hbinding with hvalue | ⟨other, -, htext, -⟩
      · exact .inl ⟨task.node, hvalue⟩
      · exact .inr ⟨task.node, other, htext⟩
    · intro other base hreaction
      have hreaction : binding.2 = .showText node other base := hreaction
      rcases reaction_of_task hbinding with hvalue | ⟨found, hkind, htext, hparse⟩
      · rw [hvalue] at hreaction
        cases hreaction
      · rw [htext] at hreaction
        cases hreaction
        -- A node that was compiled as a text was compiled once, so there is one template for it.
        have hsame : task.expression = expression :=
          congrArg Task.expression (hwalked.once task htask _ hbound rfl hnode)
        rw [hsame, htemplate] at hparse
        cases hparse
        exact ⟨rfl, rfl⟩

/-- Mount a tree with the built-in handlers and with baselines that are refreshed, write the view model
any number of times, and take a text node that a template was found on. When a write of a reactive
property then comes back with `true`, the text is the template rendered from the model as it is, if one
of the watchers of the text that are subscribed to the property has not delivered the value at its path;
otherwise the text has not been written. -/
theorem text_after_write {tree : Tree} {view : View ρ} {state : σ} {top node : NodeId}
    {ids : List NodeId} (hstands : view.Stands tree top ids) {config : Config}
    (hpolicy : config.baseline = .refresh) {host : Host ρ σ} {depth : Nat} {data : Json}
    {vm vm' : ViewModel} {mounted s s' : Store ρ σ}
    (hmount : (ViewModel.build data (.node top) config none {}).run host depth { view, host := state } =
      some (.ok vm, mounted)) {expression : String} {template : Template}
    (hnode : (mounted.view.node node).kind = .text)
    (hbound : ⟨.text, node, expression⟩ ∈ mounted.tasks)
    (htemplate : Template.parse config.delimiters config.trimPaths expression = .ok template)
    (hwrites : vm.Writes host depth mounted s) {text : String} {path : Path} {cell : CellId}
    (hpath : Path.parse text = .ok path)
    (hcell : s.model.target? path (Model.observe data {}).1 = some cell) {value : Value}
    (hwrite : (vm.set text value).run host depth s = some (.ok (true, vm'), s')) :
    ((∃ id ∈ (s.model.cell cell).subscribers, s.Fires s'.model node id) →
        s'.model.render? template (Model.observe data {}).1 = some (.ok (s'.view.node node).text)) ∧
      ((∀ id ∈ (s.model.cell cell).subscribers, ¬ s.Fires s'.model node id) →
        s'.view.shownText node = s.view.shownText node) := by
  have hshows := shows_of_mounted hstands hpolicy hmount hnode hbound htemplate
  have hdata : vm.data = .reactive (Model.observe data {}).1 := (ViewModel.build_ok hmount).1
  have hshows' := hwrites.shows hdata hshows
  have hset := ViewModel.setCell_of_set hshows'.idle hdata hpath hcell hwrite
  exact Store.text_of_setCell hshows' hset

/-! ## A text of two values -/

/-- A host without reactions. -/
def silent : Host Unit Unit where
  script _ _ := pure ()

/-- A paragraph with two values in its text. -/
def note : Tree := .element "p" [] [.text "\x7b\x7ba.b\x7d\x7d \x7b\x7bc\x7d\x7d"]

/-- The template of that text. -/
def noteTemplate : Template := ⟨[.binding ⟨["a"], "b"⟩, .literal " ", .binding ⟨[], "c"⟩]⟩

/-- The paragraph is mounted on data in which both values are there. -/
def mountNote : Option (Except Error ViewModel × Store Unit Unit) :=
  (ViewModel.build (.object [("a", .object [("b", .string "1")]), ("c", .string "0")])
    (.node (View.plant note ({} : View Unit)).1) {} none {}).run silent 3
    { view := (View.plant note {}).2, host := () }

/-- What came back with a result. -/
def resultOf {α : Type} : Option (Except Error α × Store Unit Unit) → Option (α × Store Unit Unit)
  | some (.ok a, s) => some (a, s)
  | _ => none

/-- A result is there only if something came back without an error. -/
theorem eq_of_resultOf {α : Type} {outcome : Option (Except Error α × Store Unit Unit)} {a : α}
    {s : Store Unit Unit} (h : resultOf outcome = some (a, s)) : outcome = some (.ok a, s) := by
  unfold resultOf at h
  split at h
  · cases h
    rfl
  · cases h

/-- The second value is written. -/
def writeSecond (mounted : ViewModel × Store Unit Unit) :
    Option (Except Error (Bool × ViewModel) × Store Unit Unit) :=
  (mounted.1.set "c" (.string "5")).run silent 3 mounted.2

/-- A write of the second value brings the text in step. -/
theorem text_after_write_of_second : ∃ mounted vm s, resultOf mountNote = some mounted ∧
    writeSecond mounted = some (.ok (true, vm), s) ∧
    s.model.render? noteTemplate (.object ⟨1⟩) = some (.ok (s.view.node ⟨0⟩).text) := by
  have hdone : (resultOf mountNote).isSome = true := by decide +kernel
  have hnode : ∀ mounted ∈ resultOf mountNote, (mounted.2.view.node ⟨0⟩).kind = .text := by
    decide +kernel
  have hbound : ∀ mounted ∈ resultOf mountNote,
      ⟨.text, ⟨0⟩, "\x7b\x7ba.b\x7d\x7d \x7b\x7bc\x7d\x7d"⟩ ∈ mounted.2.tasks := by
    decide +kernel
  have hcell : ∀ mounted ∈ resultOf mountNote,
      mounted.2.model.target? ⟨[], "c"⟩ (.object ⟨1⟩) = some ⟨2⟩ := by
    decide +kernel
  have hwritten : ∀ mounted ∈ resultOf mountNote,
      ((resultOf (writeSecond mounted)).any fun outcome => outcome.1.1) = true := by
    decide +kernel
  have hfires : ∀ mounted ∈ resultOf mountNote, ∀ outcome ∈ resultOf (writeSecond mounted),
      ∃ id ∈ (mounted.2.model.cell ⟨2⟩).subscribers,
        mounted.2.Fires outcome.2.model ⟨0⟩ id := by
    decide +kernel
  have hparse : (Template.parse {} true "\x7b\x7ba.b\x7d\x7d \x7b\x7bc\x7d\x7d").toOption =
      some noteTemplate := by decide +kernel
  have htemplate : Template.parse {} true "\x7b\x7ba.b\x7d\x7d \x7b\x7bc\x7d\x7d" =
      .ok noteTemplate := by
    cases hread : Template.parse {} true "\x7b\x7ba.b\x7d\x7d \x7b\x7bc\x7d\x7d" with
    | error e =>
      rw [hread] at hparse
      cases hparse
    | ok template =>
      rw [hread] at hparse
      exact congrArg Except.ok (Option.some.inj hparse)
  obtain ⟨mounted, hmounted⟩ := Option.isSome_iff_exists.1 hdone
  obtain ⟨⟨⟨changed, vm⟩, s⟩, hsecond, htrue⟩ := (Option.any_eq_true _ _).1 (hwritten _ hmounted)
  obtain rfl : changed = true := htrue
  obtain ⟨ids, hstands, -⟩ := View.plant_stands note ({} : View Unit)
  have hstep := (text_after_write hstands rfl (eq_of_resultOf hmounted) (hnode _ hmounted)
    (hbound _ hmounted) htemplate .none rfl (hcell _ hmounted) (eq_of_resultOf hsecond)).1
      (hfires _ hmounted _ hsecond)
  exact ⟨mounted, vm, s, hmounted, eq_of_resultOf hsecond, hstep⟩

/-- The object with the first value is replaced by null, which fails, for the text cannot be rendered any
more; the second value is written, which fails for the same reason; a new object with the old first
value is observed. -/
def writeWithoutParent (mounted : ViewModel × Store Unit Unit) : Option (Value × Store Unit Unit) := do
  let (_, s₁) ← (mounted.1.set "a" .null).run silent 3 mounted.2
  let (_, s₂) ← (mounted.1.set "c" (.string "5")).run silent 3 s₁
  let (value, model) := Model.observe (.object [("b", .string "1")]) s₂.model
  return (value, { s₂ with model })

/-- The new object takes the place of the old one. -/
def restoreParent (mounted : ViewModel × Store Unit Unit) (earlier : Value × Store Unit Unit) :
    Option ((Bool × ViewModel) × Store Unit Unit) :=
  resultOf ((mounted.1.set "a" earlier.1).run silent 3 earlier.2)

/-- Between the mount and the new parent there are only writes and an observed document. -/
theorem writes_writeWithoutParent {mounted : ViewModel × Store Unit Unit}
    {earlier : Value × Store Unit Unit} (h : writeWithoutParent mounted = some earlier) :
    mounted.1.Writes silent 3 mounted.2 earlier.2 := by
  obtain ⟨⟨result, s₁⟩, hfirst, h₁⟩ := Option.bind_eq_some_iff.1 h
  obtain ⟨⟨result', s₂⟩, hsecond, h₂⟩ := Option.bind_eq_some_iff.1 h₁
  cases h₂
  exact .observed (.written (.written .none hfirst) hsecond) (.object [("b", .string "1")])

/-- A successful write can leave a text out of step: the object with the first value is there again, and
its watcher finds the value that it delivered last, but the second value was written while the text could
not be rendered. -/
theorem text_out_of_step : ∃ (mounted : ViewModel × Store Unit Unit)
    (earlier : Value × Store Unit Unit) (vm : ViewModel) (s : Store Unit Unit),
    resultOf mountNote = some mounted ∧
    mounted.1.Writes silent 3 mounted.2 earlier.2 ∧
    (mounted.1.set "a" earlier.1).run silent 3 earlier.2 = some (.ok (true, vm), s) ∧
    earlier.2.model.target? ⟨[], "a"⟩ (.object ⟨1⟩) = some ⟨1⟩ ∧
    (earlier.2.model.cell ⟨1⟩).subscribers = [⟨0⟩] ∧
    ((earlier.2.watcher? ⟨0⟩).any fun w => w.path = ⟨["a"], "b"⟩) = true ∧
    (s.view.node ⟨0⟩).text = "1 0" ∧
    (s.model.render? noteTemplate (.object ⟨1⟩)).any (fun shown => shown.toOption = some "1 5") = true := by
  have hdone : (resultOf mountNote).isSome = true := by decide +kernel
  have hearlier : ∀ mounted ∈ resultOf mountNote, (writeWithoutParent mounted).isSome = true := by
    decide +kernel
  have hbefore : ∀ mounted ∈ resultOf mountNote, ∀ earlier ∈ writeWithoutParent mounted,
      earlier.2.model.target? ⟨[], "a"⟩ (.object ⟨1⟩) = some ⟨1⟩ ∧
      (earlier.2.model.cell ⟨1⟩).subscribers = [⟨0⟩] ∧
      ((earlier.2.watcher? ⟨0⟩).any fun w => w.path = ⟨["a"], "b"⟩) = true ∧
      ((restoreParent mounted earlier).any fun outcome => outcome.1.1) = true := by
    decide +kernel
  have hafter : ∀ mounted ∈ resultOf mountNote, ∀ earlier ∈ writeWithoutParent mounted,
      ∀ outcome ∈ restoreParent mounted earlier, (outcome.2.view.node ⟨0⟩).text = "1 0" ∧
      (outcome.2.model.render? noteTemplate (.object ⟨1⟩)).any
        (fun shown => shown.toOption = some "1 5") = true := by
    decide +kernel
  obtain ⟨mounted, hmounted⟩ := Option.isSome_iff_exists.1 hdone
  obtain ⟨earlier, hwrites⟩ := Option.isSome_iff_exists.1 (hearlier _ hmounted)
  obtain ⟨htarget, hsubscribers, hwatcher, hrestored⟩ := hbefore _ hmounted _ hwrites
  obtain ⟨⟨⟨changed, vm⟩, s⟩, hresult, htrue⟩ := (Option.any_eq_true _ _).1 hrestored
  obtain rfl : changed = true := htrue
  obtain ⟨htext, hrendered⟩ := hafter _ hmounted _ hwrites _ hresult
  exact ⟨mounted, earlier, vm, s, hmounted, writes_writeWithoutParent hwrites, eq_of_resultOf hresult,
    htarget, hsubscribers, hwatcher, htext, hrendered⟩

end DataBinding
