import Mathlib
import DataBinding.Proofs.Compiling.Pass
import DataBinding.Proofs.Runs.Outcomes

/-!
# The order in which directives are handled

A pass whose handlers leave the tree alone is one loop: over the directives of the tree as it stood when
the pass began, in document order, those of an element before those below it. `View.occurrences` is that
list, read off the view without running anything, and `compileNode_eq_each` says that the pass is the loop.

The loop calls one handler after the other. It ends early where a name stands for no directive, where a
directive has no handler, or where a handler fails, and then nothing that comes later is handled.
-/

set_option autoImplicit false

namespace DataBinding

variable {ρ σ : Type}

/-! ## The directives of a view -/

/-- A directive as it is written on a node: the name that it goes by, and its expression. -/
structure Occurrence where
  node : NodeId
  name : String
  expression : String
  deriving DecidableEq

/-- What a handler is to do with a directive, if the name of the directive is known. -/
def Occurrence.task? (occurrence : Occurrence) : Option Task :=
  (DirectiveKind.ofName? occurrence.name).map fun kind =>
    ⟨kind, occurrence.node, occurrence.expression⟩

namespace Config

/-- The directive that an attribute of a node is, if it is one. -/
def occurrence? (config : Config) (node : NodeId) (entry : String × String) : Option Occurrence :=
  (directiveName? config.marker entry.1).map fun name => ⟨node, name, entry.2⟩

/-- The directive that the text of a node is, if it binds something. -/
def textOccurrences (config : Config) (node : NodeId) (text : String) : List Occurrence :=
  if Template.containsBinding config.delimiters config.trimPaths (trim text.toList) then
    [⟨node, DirectiveKind.text.name, String.ofList (trim text.toList)⟩]
  else []

end Config

namespace View

/-- The directives at and below a node, at most `depth` levels deep, in document order: those of an
element's attributes, and then those of its children. -/
def occurrences (v : View ρ) (config : Config) : Nat → NodeId → List Occurrence
  | 0, _ => []
  | depth + 1, id =>
    match (v.node id).kind with
    | .element _ =>
      (v.node id).attributes.filterMap (config.occurrence? id) ++
        (v.node id).children.flatMap fun child => v.occurrences config depth child
    | .text => config.textOccurrences id (v.node id).text
    | .comment => []

/-- The nodes at and below a node. -/
inductive Under (v : View ρ) (root : NodeId) : NodeId → Prop where
  | self : Under v root root
  | child {id child : NodeId} (habove : Under v root id) (hchild : child ∈ (v.node id).children) :
      Under v root child

/-- The nodes at and below a node are the same in two views, and have the same markup. -/
def SameTree (root : NodeId) (v v' : View ρ) : Prop :=
  ∀ id, v.Under root id → (v'.node id).kind = (v.node id).kind ∧
    (v'.node id).attributes = (v.node id).attributes ∧
    (v'.node id).children = (v.node id).children ∧ (v'.node id).text = (v.node id).text

variable {v v' v'' : View ρ} {root id : NodeId}

/-- A view has the same tree as itself. -/
theorem SameTree.refl (root : NodeId) (v : View ρ) : SameTree root v v :=
  fun _ _ => ⟨rfl, rfl, rfl, rfl⟩

/-- What is below a node stays below it while the tree stands. -/
theorem SameTree.under (h : SameTree root v v') (hunder : v.Under root id) : v'.Under root id := by
  induction hunder with
  | self => exact .self
  | @child id child habove hchild ih =>
    refine .child ih ?_
    rw [(h id habove).2.2.1]
    exact hchild

/-- A tree that stands through two stretches of time stands through both. -/
theorem SameTree.trans (h : SameTree root v v') (h' : SameTree root v' v'') : SameTree root v v'' := by
  intro id hunder
  obtain ⟨hkind, hattributes, hchildren, htext⟩ := h id hunder
  obtain ⟨hkind', hattributes', hchildren', htext'⟩ := h' id (h.under hunder)
  exact ⟨hkind'.trans hkind, hattributes'.trans hattributes, hchildren'.trans hchildren,
    htext'.trans htext⟩

/-- Where there is a tree at an element, there is one at each of its children. -/
theorem treeWithin?_child {depth : Nat} {tag : String} (hkind : (v.node id).kind = .element tag)
    (htree : (v.treeWithin? (depth + 1) id).isSome = true) :
    ∀ child ∈ (v.node id).children, (v.treeWithin? depth child).isSome = true := by
  unfold treeWithin? at htree
  simp only [hkind, Option.isSome_map] at htree
  generalize (v.node id).children = children at htree
  induction children with
  | nil => exact fun _ h => absurd h List.not_mem_nil
  | cons first rest ih =>
    rw [List.mapM_cons] at htree
    obtain ⟨trees, htrees⟩ := Option.isSome_iff_exists.1 htree
    obtain ⟨tree, hfirst, hrest⟩ := Option.bind_eq_some_iff.1 htrees
    obtain ⟨others, hothers, -⟩ := Option.bind_eq_some_iff.1 hrest
    refine List.forall_mem_cons.2 ⟨Option.isSome_iff_exists.2 ⟨tree, hfirst⟩, ih ?_⟩
    exact Option.isSome_iff_exists.2 ⟨others, hothers⟩

end View

/-! ## Loops -/

namespace Run

variable {α β : Type} {s : Store ρ σ}

/-- Two runs that go on in the same way wherever the first part leads. -/
theorem bind_congr_next {run : Run ρ σ α} {next₁ next₂ : α → Run ρ σ β}
    (h : ∀ a s', run s = some (.ok a, s') → next₁ a s' = next₂ a s') :
    (run >>= next₁) s = (run >>= next₂) s := by
  rw [bind_apply, bind_apply]
  split
  · rfl
  · rfl
  · next a s' hrun => exact h a s' hrun

/-- A loop over one item does what it does for the item. -/
theorem each_singleton (item : α) (f : α → Run ρ σ Unit) : each [item] f s = f item s := by
  rw [each_cons, bind_apply]
  cases f item s with
  | none => rfl
  | some outcome =>
    obtain ⟨result, s'⟩ := outcome
    cases result <;> rfl

/-- A loop that does nothing for some of its items is a loop over the others. -/
theorem each_filterMap (items : List α) (pick : α → Option β) (f : α → Run ρ σ Unit)
    (g : β → Run ρ σ Unit) (hskip : ∀ item, pick item = none → f item = done ())
    (htake : ∀ item picked, pick item = some picked → f item = g picked) :
    each (items.filterMap pick) g s = each items f s := by
  induction items generalizing s with
  | nil => rfl
  | cons item rest ih =>
    cases hpick : pick item with
    | none =>
      rw [List.filterMap_cons_none hpick, each_cons, hskip item hpick]
      exact ih
    | some picked =>
      rw [List.filterMap_cons_some hpick, each_cons, each_cons, htake item picked hpick]
      exact bind_congr_next fun _ _ _ => ih

/-- A loop of loops is one loop, if each of them, from wherever it starts, does what its item does. -/
theorem each_flatMap {P : Store ρ σ → Prop} (items : List α) (parts : α → List β)
    (f : α → Run ρ σ Unit) (g : β → Run ρ σ Unit)
    (hpart : ∀ item ∈ items, ∀ s, P s → f item s = each (parts item) g s)
    (hkeep : ∀ item ∈ items, ∀ s s', P s → each (parts item) g s = some (.ok (), s') → P s')
    (hs : P s) : each items f s = each (items.flatMap parts) g s := by
  induction items generalizing s with
  | nil => rfl
  | cons item rest ih =>
    obtain ⟨hfirst, hothers⟩ := List.forall_mem_cons.1 hpart
    obtain ⟨hkeep₁, hkeeps⟩ := List.forall_mem_cons.1 hkeep
    rw [List.flatMap_cons, each_append, each_cons, bind_congr (hfirst s hs)]
    exact bind_congr_next fun _ s' heach => ih hothers hkeeps (hkeep₁ s s' hs heach)

end Run

/-! ## A pass as a loop -/

namespace Run

variable {respond : Respond ρ σ} {directives : Directives ρ} {binder : BinderId} {config : Config}

/-- Handles a directive: finds the handler of its kind, and calls it. -/
def dispatch (respond : Respond ρ σ) (directives : Directives ρ) (binder : BinderId) (marker : String)
    (occurrence : Occurrence) : Run ρ σ Unit := do
  let (kind, handler) ← orRaise (directives.lookup marker occurrence.name)
  handle respond kind handler binder occurrence.node occurrence.expression

/-- A directive without a handler is refused with the error of looking for one. -/
theorem dispatch_refused {marker : String} {occurrence : Occurrence} {e : Error} {s : Store ρ σ}
    (hlookup : directives.lookup marker occurrence.name = .error e) :
    dispatch respond directives binder marker occurrence s = some (.error e, s.record (.raised e)) := by
  unfold dispatch
  rw [hlookup, orRaise_error_bind]

/-- A directive with a handler goes to that handler. -/
theorem dispatch_found {marker : String} {occurrence : Occurrence} {kind : DirectiveKind}
    {handler : Handler ρ} {s : Store ρ σ}
    (hlookup : directives.lookup marker occurrence.name = .ok (kind, handler)) :
    dispatch respond directives binder marker occurrence s =
      handle respond kind handler binder occurrence.node occurrence.expression s := by
  unfold dispatch
  rw [hlookup, orRaise_ok_bind]

/-- The stores that handling some directives without failure leads to, in whatever order. -/
inductive Reaches (respond : Respond ρ σ) (directives : Directives ρ) (binder : BinderId)
    (marker : String) (occurrences : List Occurrence) (s : Store ρ σ) : Store ρ σ → Prop where
  | start : Reaches respond directives binder marker occurrences s s
  | handled {s₁ s₂ : Store ρ σ} {occurrence : Occurrence}
      (hbefore : Reaches respond directives binder marker occurrences s s₁)
      (hmem : occurrence ∈ occurrences)
      (hdispatch : dispatch respond directives binder marker occurrence s₁ = some (.ok (), s₂)) :
      Reaches respond directives binder marker occurrences s s₂

/-- Handlers leave a tree alone: whenever one of them has come back with a result, the tree is as it was
when the handler was called. -/
def LeavesTree (respond : Respond ρ σ) (directives : Directives ρ) (binder : BinderId)
    (marker : String) (occurrences : List Occurrence) (root : NodeId) (s : Store ρ σ) : Prop :=
  ∀ s₁ s₂ occurrence, Reaches respond directives binder marker occurrences s s₁ →
    occurrence ∈ occurrences →
    dispatch respond directives binder marker occurrence s₁ = some (.ok (), s₂) →
    View.SameTree root s₁.view s₂.view

variable {occurrences : List Occurrence} {root : NodeId} {s s₁ s₂ : Store ρ σ}

/-- The tree stands in every store that handling directives leads to. -/
theorem Reaches.sameTree
    (hleaves : LeavesTree respond directives binder config.marker occurrences root s)
    (hreach : Reaches respond directives binder config.marker occurrences s s₁) :
    View.SameTree root s.view s₁.view := by
  induction hreach with
  | start => exact .refl root s.view
  | handled hbefore hmem hdispatch ih => exact ih.trans (hleaves _ _ _ hbefore hmem hdispatch)

/-- A loop over some of the directives leads from a store that was reached to one that is reached. -/
theorem Reaches.each (hreach : Reaches respond directives binder config.marker occurrences s s₁)
    {part : List Occurrence} (hsub : ∀ occurrence ∈ part, occurrence ∈ occurrences)
    (h : Run.each part (dispatch respond directives binder config.marker) s₁ = some (.ok (), s₂)) :
    Reaches respond directives binder config.marker occurrences s s₂ := by
  induction part generalizing s₁ with
  | nil =>
    cases h
    exact hreach
  | cons first rest ih =>
    obtain ⟨hfirst, hrest⟩ := List.forall_mem_cons.1 hsub
    obtain ⟨⟨⟩, s', hdispatch, hothers⟩ := bind_eq_ok.1 h
    exact ih (hreach.handled hfirst hdispatch) hrest hothers

/-- Compiling the attributes of an element is a loop over those that are directives. -/
theorem compileAttributes_eq_each (id : NodeId) (attributes : List (String × String)) :
    each attributes (compileAttribute respond directives binder config.marker id) s =
      each (attributes.filterMap (config.occurrence? id))
        (dispatch respond directives binder config.marker) s := by
  refine (each_filterMap attributes (config.occurrence? id) _ _ ?_ ?_).symm
  · intro entry hnone
    unfold compileAttribute
    rw [Option.map_eq_none_iff.1 hnone]
  · intro entry occurrence hsome
    obtain ⟨name, hname, rfl⟩ := Option.map_eq_some_iff.1 hsome
    unfold compileAttribute
    rw [hname]
    rfl

/-- A text goes to the handler that the name `text` stands for. -/
theorem lookup_text (marker : String) :
    directives.lookup marker DirectiveKind.text.name =
      (directives.get .text).map fun handler => (.text, handler) := rfl

/-- Compiling a text is a loop over the one directive that it is, or over none. -/
theorem compileText_eq_each (id : NodeId) (text : String) :
    compileText respond directives binder config id text s =
      each (config.textOccurrences id text) (dispatch respond directives binder config.marker) s := by
  unfold compileText Config.textOccurrences
  split
  · rw [each_singleton]
    unfold dispatch
    rw [lookup_text]
    cases directives.get .text <;> rfl
  · rfl

/-- A pass is a loop over the directives of the tree as it stood at the start. The induction is on the
levels of the tree; what carries it is that the tree still stands so wherever the loop has come to. -/
theorem compileNode_eq_each
    (hleaves : LeavesTree respond directives binder config.marker occurrences root s) (depth : Nat) :
    ∀ (id : NodeId) (s₁ : Store ρ σ), s.view.Under root id →
      (s.view.treeWithin? depth id).isSome = true →
      (∀ occurrence ∈ s.view.occurrences config depth id, occurrence ∈ occurrences) →
      Reaches respond directives binder config.marker occurrences s s₁ →
      compileNode respond directives binder config depth id s₁ =
        each (s.view.occurrences config depth id) (dispatch respond directives binder config.marker)
          s₁ := by
  induction depth with
  | zero => exact fun _ _ _ htree => absurd htree Bool.false_ne_true
  | succ depth ih =>
    intro id s₁ hunder htree hsub hreach
    obtain ⟨hkind, hattributes, -, htext⟩ := hreach.sameTree hleaves id hunder
    unfold compileNode View.occurrences
    unfold View.occurrences at hsub
    rw [look_bind, hkind, hattributes, htext]
    cases hnode : (s.view.node id).kind with
    | comment => rfl
    | text => exact compileText_eq_each id _
    | element tag =>
      simp only [hnode] at hsub ⊢
      rw [each_append]
      have hown := fun occurrence h => hsub occurrence (List.mem_append_left _ h)
      have hbelow := fun occurrence h => hsub occurrence (List.mem_append_right _ h)
      rw [bind_congr (compileAttributes_eq_each id _)]
      refine bind_congr_next fun _ s₂ heach => ?_
      -- The handlers of the element itself leave the tree alone, so below it stands what stood there.
      have hreach₂ := hreach.each hown heach
      rw [look_bind, (hreach₂.sameTree hleaves id hunder).2.2.1]
      have hin := fun child (h : child ∈ (s.view.node id).children) occurrence hmem =>
        hbelow occurrence (List.mem_flatMap_of_mem h hmem)
      refine each_flatMap (P := Reaches respond directives binder config.marker occurrences s) _
        (fun child => s.view.occurrences config depth child) _ _ ?_ ?_ hreach₂
      · intro child hchild s₃ hreach₃
        have htree₁ := View.treeWithin?_child hnode htree child hchild
        exact ih child s₃ (hunder.child hchild) htree₁ (hin child hchild) hreach₃
      · intro child hchild s₃ s₄ hreach₃ hdone
        exact hreach₃.each (hin child hchild) hdone

end Run

/-! ## Calls of handlers -/

/-- A call of a handler: what the handler was to do, and what came of it. -/
structure Call where
  task : Task
  result : Except Error Unit

/-- What becomes of some directives that are handled one after the other: the calls of handlers that are
made for them, how it ends, and in which store. -/
inductive Dispatches (respond : Respond ρ σ) (directives : Directives ρ) (binder : BinderId)
    (marker : String) :
    List Occurrence → Store ρ σ → List Call → Except Error Unit → Store ρ σ → Prop where
  | finished (s : Store ρ σ) : Dispatches respond directives binder marker [] s [] (.ok ()) s
  /-- The name of the next one is unknown, or nothing is registered for its kind. -/
  | refused {occurrence : Occurrence} (rest : List Occurrence) (s : Store ρ σ) {e : Error}
      (hlookup : directives.lookup marker occurrence.name = .error e) :
      Dispatches respond directives binder marker (occurrence :: rest) s [] (.error e)
        (s.record (.raised e))
  /-- The handler of the next one fails. -/
  | failed {occurrence : Occurrence} (rest : List Occurrence) {s s' : Store ρ σ}
      {kind : DirectiveKind} {handler : Handler ρ} {e : Error}
      (hlookup : directives.lookup marker occurrence.name = .ok (kind, handler))
      (hcall : Run.handle respond kind handler binder occurrence.node occurrence.expression s =
        some (.error e, s')) :
      Dispatches respond directives binder marker (occurrence :: rest) s
        [⟨⟨kind, occurrence.node, occurrence.expression⟩, .error e⟩] (.error e) s'
  /-- The handler of the next one comes back, and the rest follow. -/
  | handled {occurrence : Occurrence} {rest : List Occurrence} {s s₁ s' : Store ρ σ}
      {kind : DirectiveKind} {handler : Handler ρ} {calls : List Call} {outcome : Except Error Unit}
      (hlookup : directives.lookup marker occurrence.name = .ok (kind, handler))
      (hcall : Run.handle respond kind handler binder occurrence.node occurrence.expression s =
        some (.ok (), s₁))
      (hrest : Dispatches respond directives binder marker rest s₁ calls outcome s') :
      Dispatches respond directives binder marker (occurrence :: rest) s
        (⟨⟨kind, occurrence.node, occurrence.expression⟩, .ok ()⟩ :: calls) outcome s'

/-- Calls of handlers go along a list of directives, and end where they should. -/
structure InOrder (directives : Directives ρ) (marker : String) (occurrences : List Occurrence)
    (calls : List Call) (outcome : Except Error Unit) : Prop where
  task_prefix : calls.map (fun call => some call.task) <+: occurrences.map Occurrence.task?
  /-- The end is reached if and only if every directive has been handled. -/
  ok_iff : outcome = .ok () ↔
    calls.length = occurrences.length ∧ ∀ call ∈ calls, call.result = .ok ()
  /-- An error is that of the first directive without a handler, after calls for all before it, or it is
  that of the first call that failed, which is the last one. -/
  first_error : ∀ e, outcome = .error e →
    ((∀ call ∈ calls, call.result = .ok ()) ∧ ∃ occurrence,
      occurrences[calls.length]? = some occurrence ∧
      directives.lookup marker occurrence.name = .error e) ∨
    ∃ before task, calls = before ++ [⟨task, .error e⟩] ∧ ∀ call ∈ before, call.result = .ok ()

section Calls

variable {respond : Respond ρ σ} {directives : Directives ρ} {binder : BinderId} {marker : String}
  {occurrences : List Occurrence} {s s' : Store ρ σ} {calls : List Call} {outcome : Except Error Unit}

/-- A handler that is found is one for the kind that the name stands for. -/
theorem Directives.ofName?_of_lookup {name : String} {kind : DirectiveKind} {handler : Handler ρ}
    (h : directives.lookup marker name = .ok (kind, handler)) :
    DirectiveKind.ofName? name = some kind := by
  unfold lookup at h
  cases hkind : DirectiveKind.ofName? name with
  | none =>
    rw [hkind] at h
    cases h
  | some found =>
    rw [hkind] at h
    change (directives.get found).map _ = _ at h
    cases hget : directives.get found with
    | error e =>
      rw [hget] at h
      cases h
    | ok handler' =>
      rw [hget] at h
      cases h
      rfl

/-- The calls that are made go along the directives and end where they should, by induction on how the
directives are handled. -/
theorem Dispatches.inOrder
    (h : Dispatches respond directives binder marker occurrences s calls outcome s') :
    InOrder directives marker occurrences calls outcome := by
  induction h with
  | finished s =>
    refine ⟨List.prefix_refl _, ?_, fun e he => by cases he⟩
    simp
  | @refused occurrence rest s e hlookup =>
    refine ⟨List.nil_prefix, ?_, fun e' he => ?_⟩
    · simp
    · cases he
      exact .inl ⟨fun _ hmem => absurd hmem List.not_mem_nil, occurrence, rfl, hlookup⟩
  | @failed occurrence rest s s' kind handler e hlookup hcall =>
    have htask : occurrence.task? = some ⟨kind, occurrence.node, occurrence.expression⟩ := by
      unfold Occurrence.task?
      rw [Directives.ofName?_of_lookup hlookup, Option.map_some]
    refine ⟨?_, ?_, fun e' he => ?_⟩
    · rw [List.map_cons, List.map_cons, htask, List.map_nil]
      exact List.prefix_append [_] _
    · simp
    · cases he
      exact .inr ⟨[], _, rfl, fun _ hmem => absurd hmem List.not_mem_nil⟩
  | @handled occurrence rest s s₁ s' kind handler calls outcome hlookup hcall hrest ih =>
    have htask : occurrence.task? = some ⟨kind, occurrence.node, occurrence.expression⟩ := by
      unfold Occurrence.task?
      rw [Directives.ofName?_of_lookup hlookup, Option.map_some]
    refine ⟨?_, ?_, fun e he => ?_⟩
    · rw [List.map_cons, List.map_cons, htask]
      exact List.cons_prefix_cons.2 ⟨rfl, ih.task_prefix⟩
    · rw [ih.ok_iff, List.length_cons, List.length_cons, Nat.add_right_cancel_iff,
        List.forall_mem_cons]
      simp
    · rcases ih.first_error e he with ⟨hok, missing, hmissing, herror⟩ | ⟨before, task, rfl, hok⟩
      · refine .inl ⟨List.forall_mem_cons.2 ⟨rfl, hok⟩, missing, ?_, herror⟩
        rw [List.length_cons, List.getElem?_cons_succ]
        exact hmissing
      · exact .inr ⟨_ :: before, task, rfl, List.forall_mem_cons.2 ⟨rfl, hok⟩⟩

/-- The loop over some directives makes the calls that they ask for. -/
theorem each_dispatch_iff :
    Run.each occurrences (Run.dispatch respond directives binder marker) s = some (outcome, s') ↔
      ∃ calls, Dispatches respond directives binder marker occurrences s calls outcome s' := by
  constructor
  · intro h
    induction occurrences generalizing s with
    | nil =>
      cases h
      exact ⟨[], .finished _⟩
    | cons occurrence rest ih =>
      obtain ⟨e, hfirst, rfl⟩ | ⟨⟨⟩, s₁, hfirst, hrest⟩ := Run.bind_cases h
      · cases hlookup : directives.lookup marker occurrence.name with
        | error missing =>
          rw [Run.dispatch_refused hlookup] at hfirst
          cases hfirst
          exact ⟨[], .refused rest s hlookup⟩
        | ok found =>
          obtain ⟨kind, handler⟩ := found
          rw [Run.dispatch_found hlookup] at hfirst
          exact ⟨_, .failed rest hlookup hfirst⟩
      · cases hlookup : directives.lookup marker occurrence.name with
        | error missing =>
          rw [Run.dispatch_refused hlookup] at hfirst
          cases hfirst
        | ok found =>
          obtain ⟨kind, handler⟩ := found
          rw [Run.dispatch_found hlookup] at hfirst
          obtain ⟨calls, hcalls⟩ := ih hrest
          exact ⟨_, .handled hlookup hfirst hcalls⟩
  · rintro ⟨calls, h⟩
    induction h with
    | finished s => rfl
    | refused rest s hlookup => rw [Run.each_cons, Run.bind_apply, Run.dispatch_refused hlookup]
    | failed rest hlookup hcall =>
      rw [Run.each_cons, Run.bind_apply, Run.dispatch_found hlookup, hcall]
    | handled hlookup hcall hrest ih =>
      rw [Run.each_cons, Run.bind_apply, Run.dispatch_found hlookup, hcall]
      exact ih

end Calls

/-! ## The whole pass -/

/-- How a pass ends once its directives are handled: with its watchers, or with an error, and then they
are let go. -/
def Store.passEnded (s : Store ρ σ) (binder : BinderId) :
    Except Error Unit → Except Error (List SubscriberId) × Store ρ σ
  | .ok _ => (.ok (s.binder binder).watchers, s)
  | .error e => (.error e, (s.binder binder).watchers.foldl Store.release s)

section Compile

variable {respond : Respond ρ σ} {directives : Directives ρ} {config : Config} {root : Value}
  {s s' : Store ρ σ} {depth : Nat} {node : NodeId} {tree : Markup.Tree}

/-- A pass comes to what its walk through the tree comes to. -/
theorem compile_eq_some_iff {result : Except Error (List SubscriberId)} :
    Run.compile respond depth root config directives node s = some (result, s') ↔
      ∃ outcome s₁, Run.compileNode respond directives (s.addBinder root config).1 config depth node
        (s.addBinder root config).2 = some (outcome, s₁) ∧
        s₁.passEnded (s.addBinder root config).1 outcome = (result, s') := by
  unfold Run.compile
  rw [Run.changeGet_bind, Run.attempt_bind, Option.bind_eq_some_iff]
  constructor
  · rintro ⟨⟨outcome, s₁⟩, hnode, hend⟩
    refine ⟨outcome, s₁, hnode, ?_⟩
    cases outcome <;> exact Option.some.inj hend
  · rintro ⟨outcome, s₁, hnode, hend⟩
    refine ⟨(outcome, s₁), hnode, ?_⟩
    cases outcome <;> exact congrArg some hend

/-- A pass whose handlers leave the tree alone calls them for the directives of the tree in document
order, one after the other, up to the first that is unknown, that nothing is registered for, or whose
handler fails, and comes back with that error; or, if there is none, with the watchers made. -/
theorem compile_dispatches_in_order (htree : s.view.treeWithin? depth node = some tree)
    (hleaves : Run.LeavesTree respond directives (s.addBinder root config).1 config.marker
      (s.view.occurrences config depth node) node (s.addBinder root config).2)
    (result : Except Error (List SubscriberId)) (s' : Store ρ σ) :
    Run.compile respond depth root config directives node s = some (result, s') ↔
      ∃ calls outcome s₁,
        Dispatches respond directives (s.addBinder root config).1 config.marker
          (s.view.occurrences config depth node) (s.addBinder root config).2 calls outcome s₁ ∧
        InOrder directives config.marker (s.view.occurrences config depth node) calls outcome ∧
        s₁.passEnded (s.addBinder root config).1 outcome = (result, s') := by
  have hpass := Run.compileNode_eq_each hleaves depth node _ .self
    (Option.isSome_iff_exists.2 ⟨tree, htree⟩) (fun _ h => h) .start
  rw [compile_eq_some_iff, hpass]
  constructor
  · rintro ⟨outcome, s₁, heach, hend⟩
    obtain ⟨calls, hcalls⟩ := each_dispatch_iff.1 heach
    exact ⟨calls, outcome, s₁, hcalls, hcalls.inOrder, hend⟩
  · rintro ⟨calls, outcome, s₁, hcalls, -, hend⟩
    exact ⟨outcome, s₁, each_dispatch_iff.2 ⟨calls, hcalls⟩, hend⟩

end Compile

/-- A form with directives on two elements, a text that binds something, and a comment that does not. -/
def form : Markup.Tree :=
  .element "form" [("v-model-lazy", "a"), ("title", "v-text"), ("v-text", "b")]
    [.element "p" [] [.text " x \x7b\x7bc\x7d\x7d "], .comment "\x7b\x7bd\x7d\x7d",
      .element "input" [("v-if", "e"), ("v-model", "f")] []]

/-- The view that the form stands in. -/
def formStore : Store Unit (List String) where
  view := (View.plant form {}).2
  host := []

/-- The form in the view. -/
def formNode : NodeId := (View.plant form ({} : View Unit)).1

/-- Notes the expression of each directive that is found. -/
def noteFound : Respond Unit (List String)
  | (), .found _ _ expression => Run.change fun s => { s with host := s.host ++ [expression] }
  | (), _ => Run.done ()

/-- Handlers that note what they are called for. -/
def noting : Directives Unit := { model := some (.hosted ()), text := some (.hosted ()) }

/-- Handlers that only note what they are called for leave the tree alone. -/
theorem noting_sameTree {binder : BinderId} {marker : String} {occurrence : Occurrence} {root : NodeId}
    {s s' : Store Unit (List String)}
    (h : Run.dispatch noteFound noting binder marker occurrence s = some (.ok (), s')) :
    View.SameTree root s.view s'.view := by
  cases hlookup : noting.lookup marker occurrence.name with
  | error e =>
    rw [Run.dispatch_refused hlookup] at h
    cases h
  | ok found =>
    obtain ⟨kind, handler⟩ := found
    rw [Run.dispatch_found hlookup] at h
    have hhandler : handler = .hosted () := by
      unfold Directives.lookup at hlookup
      cases hkind : DirectiveKind.ofName? occurrence.name with
      | none =>
        rw [hkind] at hlookup
        cases hlookup
      | some kind' =>
        rw [hkind] at hlookup
        cases kind' <;> cases hlookup <;> rfl
    subst hhandler
    cases h
    exact .refl root s.view

/-- The pass over the form stops at the directive that nobody knows, after the three before it. -/
theorem compile_dispatches_form : ∃ s', (s'.host = ["a", "b", "x \x7b\x7bc\x7d\x7d"]) ∧
    Run.compile noteFound 3 .null {} noting formNode formStore =
      some (.error (.unknownDirective "v-" "if"), s') ∧
    ∃ calls outcome s₁,
      Dispatches noteFound noting (formStore.addBinder .null {}).1 "v-"
        (formStore.view.occurrences {} 3 formNode) (formStore.addBinder .null {}).2 calls outcome s₁ ∧
      InOrder noting "v-" (formStore.view.occurrences {} 3 formNode) calls outcome ∧
      s₁.passEnded (formStore.addBinder .null {}).1 outcome =
        (.error (.unknownDirective "v-" "if"), s') := by
  have htree : (formStore.view.treeWithin? 3 formNode).isSome = true := by decide +kernel
  have hrun : (Run.compile noteFound 3 .null {} noting formNode formStore).map
      (fun outcome => (outcome.1, outcome.2.host)) =
        some (.error (.unknownDirective "v-" "if"), ["a", "b", "x \x7b\x7bc\x7d\x7d"]) := by
    cbv
  obtain ⟨tree, htree⟩ := Option.isSome_iff_exists.1 htree
  obtain ⟨⟨result, s'⟩, hrun, heq⟩ := Option.map_eq_some_iff.1 hrun
  obtain ⟨rfl, hhost⟩ := Prod.mk.inj heq
  refine ⟨s', hhost, hrun, ?_⟩
  exact (compile_dispatches_in_order htree (fun _ _ _ _ _ h => noting_sameTree h) _ s').1 hrun

end DataBinding
