import DataBinding.Proofs.Runs.OperationCascades
import DataBinding.Proofs.Runs.Writes
import DataBinding.Proofs.Watching.Entries
import DataBinding.Proofs.Watching.Kept

/-!
# A write that fails

A write that fails after it has changed its cell fails because something further down did: an update, a
reaction, or a write that a reaction asked for, in a cycle that may be nested in any number of others. The
main statement follows the run up to the moment at which the error was raised, and from there on. Up to that
moment nothing has failed unless some script went on all the same. After it the run only unwinds: nobody is
told any more, nothing is stored and no node is written. And nothing is rolled back: what was stored is there
until something else is stored in its place.
-/

set_option autoImplicit false

namespace DataBinding

variable {ρ σ : Type}

namespace Store

/-- From an error on a run only unwinds: it says again that it failed and lets go of those whom it held. -/
structure Unwound (e : Error) (s s' : Store ρ σ) : Prop where
  journal : ∃ events, s'.journal = events ++ s.journal ∧
    ∀ event ∈ events, event = .raised e ∨ event = .writeFailed e
  model : s'.model = s.model
  view : s'.view = s.view
  collector : s'.collector = s.collector
  binders : s'.binders = s.binders
  host : s'.host = s.host
  role : ∀ id, (s'.subscriber? id).map (·.role) = (s.subscriber? id).map (·.role)

/-- Every error since a store came from an operation after whose failure a script went on. -/
def Forgiven (P : Op ρ σ → Prop) (host : Host ρ σ) (s s' : Store ρ σ) : Prop :=
  ∀ (event : Event) (before : List Event), event :: before <:+ s'.journal → event.isFailure = true →
    s.journal <:+ before → ∃ (op : Op ρ σ) (depth : Nat) (s₀ s₁ : Store ρ σ) (e : Error), ¬ P op ∧
      Run.perform (host.respond depth) depth op s₀ = some (.error e, s₁) ∧ s₀.journal <:+ before ∧
      event :: before <:+ s₁.journal ∧ s₁.journal <:+ s'.journal

/-- Between the first store and the last an error is raised, from the one to the other of the two stores
in the middle. -/
structure FailsAt (P : Op ρ σ → Prop) (host : Host ρ σ) (e : Error) (s s₁ s₂ s' : Store ρ σ) : Prop where
  before : Cascade .everything P host s none s₁
  forgiven : s.Forgiven P host s₁
  raised : Step s₁ s₂
  journal : s₂.journal = .raised e :: s₁.journal
  view : s₂.view = s₁.view
  after : s₂.Unwound e s'
  /-- Whatever the model was at some moment before, it still is where nothing was written since. -/
  kept : ∀ t, Cascade .everything P host s none t → Cascade .everything P host t none s₁ → t.Kept s'

variable {scope : Scope} {P : Op ρ σ → Prop} {host : Host ρ σ} {e : Error} {s s₁ s₂ s' : Store ρ σ}
  {mood : Option Error}

namespace Unwound

/-- Nothing has to be unwound at the moment of the error. -/
theorem refl (s : Store ρ σ) : s.Unwound e s :=
  ⟨⟨[], rfl, by simp⟩, rfl, rfl, rfl, rfl, rfl, fun _ => rfl⟩

/-- Noting the error again on its way out is part of unwinding. -/
theorem noted (h : s.Unwound e s') {event : Event}
    (hevent : event = .raised e ∨ event = .writeFailed e) : s.Unwound e (s'.record event) := by
  obtain ⟨events, hjournal, hevents⟩ := h.journal
  exact { h with
    journal := ⟨event :: events, congrArg (event :: ·) hjournal, List.forall_mem_cons.2 ⟨hevent, hevents⟩⟩ }

/-- Letting go of somebody on the way out is part of unwinding. -/
theorem released (h : s.Unwound e s') (id : SubscriberId) : s.Unwound e (s'.release id) := by
  refine { h with role := fun other => ?_ }
  rw [← h.role other, release, subscriber?_updateSubscriber]
  split
  · cases s'.subscriber? other <;> rfl
  · rfl

/-- Unwinding writes nothing. -/
theorem kept (h : s.Unwound e s') : s.Kept s' := by
  obtain ⟨events, hjournal, -⟩ := h.journal
  exact .of_same events hjournal h.model

end Unwound

namespace Forgiven

/-- Where nothing has failed, there is nothing to forgive. -/
theorem refl (s : Store ρ σ) : s.Forgiven P host s := by
  intro event before hsuffix _ hbefore
  have hlength := Nat.le_trans hsuffix.length_le hbefore.length_le
  exact absurd hlength (Nat.not_succ_le_self _)

/-- What happens without a failure needs no forgiveness. -/
theorem of_quiet (h : s.Forgiven P host s₁)
    (hquiet : ∃ events, s'.journal = events ++ s₁.journal ∧ ∀ event ∈ events, event.isFailure = false) :
    s.Forgiven P host s' := by
  obtain ⟨events, hjournal, hevents⟩ := hquiet
  intro event before hsuffix hfailure hbefore
  have hold : s₁.journal <:+ s'.journal := ⟨events, hjournal.symm⟩
  have hsuffix₁ : event :: before <:+ s₁.journal := by
    rcases List.suffix_or_suffix_of_suffix hsuffix hold with h | h
    · exact h
    · rcases List.suffix_cons_iff.1 h with h | h
      · exact h ▸ List.suffix_refl _
      · -- The event came after the earlier store, and what came after it did not fail.
        obtain ⟨newer, hnewer⟩ := hsuffix
        obtain ⟨older, holder⟩ := h
        have hsplit : (newer ++ event :: older) ++ s₁.journal = events ++ s₁.journal := by
          rw [← hjournal, ← hnewer, ← holder]
          simp
        have hmem : event ∈ events := by
          rw [← List.append_cancel_right hsplit]
          simp
        rw [hevents event hmem] at hfailure
        cases hfailure
  obtain ⟨op, depth, s₀, s₃, e, hop, hfailed, hstart, hevent, hend⟩ := h _ _ hsuffix₁ hfailure hbefore
  exact ⟨op, depth, s₀, s₃, e, hop, hfailed, hstart, hevent, hend.trans hold⟩

/-- An operation that fails, and after which a script goes on. -/
theorem caught {s₀ : Store ρ σ} (h : s.Forgiven P host s₀) {op : Op ρ σ} {depth : Nat} (hop : ¬ P op)
    (hfailed : Run.perform (host.respond depth) depth op s₀ = some (.error e, s₁))
    (hsuffix₀ : s₀.journal <:+ s₁.journal) : s.Forgiven P host s₁ := by
  intro event before hsuffix hfailure hbefore
  rcases List.suffix_or_suffix_of_suffix hsuffix hsuffix₀ with hold | hnew
  · obtain ⟨op', depth', s₂, s₃, e', hop', hfailed', hstart, hevent, hend⟩ := h _ _ hold hfailure hbefore
    exact ⟨op', depth', s₂, s₃, e', hop', hfailed', hstart, hevent, hend.trans hsuffix₀⟩
  · rcases List.suffix_cons_iff.1 hnew with heq | hstart
    · obtain ⟨op', depth', s₂, s₃, e', hop', hfailed', hstart, hevent, hend⟩ :=
        h _ _ (heq ▸ List.suffix_refl _) hfailure hbefore
      exact ⟨op', depth', s₂, s₃, e', hop', hfailed', hstart, hevent, hend.trans hsuffix₀⟩
    · exact ⟨op, depth, s₀, s₁, e, hop, hfailed, hstart, hsuffix, List.suffix_refl _⟩

/-- If the errors of all operations are passed on there is none. -/
theorem none_of_all (h : s.Forgiven P host s') (hall : ∀ op, P op) {event : Event} {before : List Event}
    (hsuffix : event :: before <:+ s'.journal) (hbefore : s.journal <:+ before) :
    event.isFailure = false := by
  cases hfailure : event.isFailure with
  | false => rfl
  | true =>
    obtain ⟨op, _, _, _, _, hop, -⟩ := h _ _ hsuffix hfailure hbefore
    exact absurd (hall op) hop

end Forgiven

end Store

namespace Cascade

open Store

variable {scope : Scope} {P : Op ρ σ → Prop} {host : Host ρ σ} {e : Error} {s s' : Store ρ σ}
  {mood : Option Error}

/-- Whatever is not written in a cascade is kept. -/
theorem kept (h : Cascade scope P host s mood s') : s.Kept s' := by
  induction h with
  | start => exact .refl s
  | step _ hstep _ ih => exact ih.trans (kept_step hstep)
  | stored cell value _ ih => exact ih.trans (kept_storeCell _ cell value)
  | byHand _ hhand ih =>
    refine ih.trans ?_
    cases hhand with
    | subscribed cell id => exact Store.kept.subscribed _ cell id
    | collected slot => exact Store.kept.collected _ slot
    | activated id active => exact Store.kept.activated _ id active
  | raised _ hstep _ _ _ ih => exact ih.trans (kept_step hstep)
  | released id _ ih => exact ih.trans (.of_same [] rfl rfl)
  | noted _ _ ih => exact ih.trans (.of_same [_] rfl rfl)
  | caught _ _ _ _ _ ih => exact ih

/-- While a run is calm, whatever has failed is forgiven. -/
theorem forgiven (h : Cascade scope P host s none s') : s.Forgiven P host s' := by
  generalize hmood : none = mood at h
  induction h with
  | start => exact .refl s
  | step _ _ hcalm ih => exact (ih hmood).of_quiet hcalm.journal
  | stored cell value _ ih => exact (ih hmood).of_quiet (Store.quiet_of_cons rfl rfl)
  | byHand _ hhand ih =>
    refine (ih hmood).of_quiet ?_
    cases hhand <;> exact Store.quiet_of_same rfl
  | caught hop hfailed _ _ ihbefore _ =>
    exact (ihbefore rfl).caught hop hfailed (Store.kept.perform host _ _ _ _ _ hfailed).suffix
  | _ => cases hmood

/-- A run that fails was calm until the error was raised, and unwinds from then on. -/
theorem moment (h : Cascade scope P host s (some e) s') : ∃ s₁ s₂, Cascade scope P host s none s₁ ∧
    Step s₁ s₂ ∧ s₂.journal = .raised e :: s₁.journal ∧ s₂.view = s₁.view ∧ s₂.Unwound e s' := by
  generalize hmood : some e = mood at h
  induction h with
  | raised hcalm hstep hjournal hview _ _ =>
    cases hmood
    exact ⟨_, _, hcalm, hstep, hjournal, hview, .refl _⟩
  | released id _ ih =>
    obtain ⟨s₁, s₂, hcalm, hstep, hjournal, hview, hunwound⟩ := ih hmood
    exact ⟨s₁, s₂, hcalm, hstep, hjournal, hview, hunwound.released id⟩
  | noted hevent _ ih =>
    cases hmood
    obtain ⟨s₁, s₂, hcalm, hstep, hjournal, hview, hunwound⟩ := ih rfl
    exact ⟨s₁, s₂, hcalm, hstep, hjournal, hview, hunwound.noted hevent⟩
  | _ => cases hmood

/-- A cascade that ends in an error has a moment at which that error was raised. The induction is on the
cascade; before that moment only errors have failed that a script went on after. -/
theorem failsAt (h : Cascade .everything P host s (some e) s') :
    ∃ s₁ s₂, s.FailsAt P host e s₁ s₂ s' := by
  obtain ⟨s₁, s₂, hbefore, hstep, hjournal, hview, hunwound⟩ := h.moment
  exact ⟨s₁, s₂, hbefore, hbefore.forgiven, hstep, hjournal, hview, hunwound, fun t _ hrest =>
    (hrest.kept.trans (kept_step hstep)).trans hunwound.kept⟩

end Cascade

/-! ## A write -/

/-- Everything is within the scope that allows everything. -/
theorem Op.within_everything (op : Op ρ σ) : op.Within .everything := by
  cases op with
  | input => exact .inl trivial
  | compile => exact fun _ => trivial
  | _ => trivial

variable {host : Host ρ σ} {P : Op ρ σ → Prop} {e : Error} {s s' : Store ρ σ} {cell : CellId} {value : Value}

/-- The failed write of a cell stored the value first. -/
theorem Host.setCell_failsAt (hpass : host.PassesOn P) {depth : Nat}
    (hfailed : Run.setCell (Run.update (host.respond depth)) cell value s = some (.error e, s')) :
    ∃ s₁ s₂, (s.storeCell cell value).FailsAt P host e s₁ s₂ s' := by
  have hrespond := host.cascades_respond (host.asks_of_all Op.within_everything) hpass depth
  cases hsame : (s.model.cell cell).value.strictEq value with
  | true =>
    rw [Run.setCell_same hsame] at hfailed
    cases hfailed
  | false =>
    rw [Run.setCell_other hsame] at hfailed
    have hcascade := Run.cascades_stored hrespond cell value (fun _ _ _ _ => trivial) _ _ hfailed
    exact hcascade.failsAt

/-- Operations leave the collector slot as they find it, as far as the library is concerned. -/
theorem Store.sameSlot : WriteDiscipline fun s s' : Store ρ σ => s'.collector = s.collector :=
  .of_storing ⟨fun _ => rfl, fun h₁ h₂ => h₂.trans h₁, collector_of_step⟩ fun _ _ _ => rfl

/-- A write that changes its cell and fails, in a store whose collector slot is empty, with reactions that
end at once with the error when an operation of some kinds fails. There is a moment at which the error that
comes back was raised. Before it nothing failed except operations of other kinds after which a reaction
went on, and if there are no other kinds nothing failed at all. From then on nobody is told, nothing is stored
and no node is written. What the model was at any moment before, from the storing of the written value on, it
still is where nothing was written since. The collector slot is empty, if the reactions empty what they
fill. -/
theorem failing_write_stops (hpass : host.PassesOn P) {depth : Nat} {op : Op ρ σ}
    (hidle : s.collector = none) (htarget : op.target? s.model = some (cell, value))
    (hfailed : Run.perform (host.respond depth) depth op s = some (.error e, s')) :
    (∃ s₁ s₂, (s.storeCell cell value).FailsAt P host e s₁ s₂ s' ∧
      ((∀ op, P op) → ∀ event before, event :: before <:+ s₁.journal →
        (s.storeCell cell value).journal <:+ before → event.isFailure = false)) ∧
    ((Respond.Keeps (fun s s' => s'.collector = s.collector) (host.respond depth)) →
      s'.collector = none) := by
  obtain ⟨result, hwrite, hanswer⟩ := Run.setCell_of_perform hidle htarget hfailed
  obtain rfl := (hanswer e).1 rfl
  obtain ⟨s₁, s₂, hfails⟩ := Host.setCell_failsAt hpass hwrite
  refine ⟨⟨s₁, s₂, hfails, fun hall event before => hfails.forgiven.none_of_all hall⟩, fun hslot => ?_⟩
  exact (Store.sameSlot.write hslot s cell value _ _ hwrite).trans hidle

/-- What the watchers of `relayed` do. -/
inductive Errand where
  | passesOn | fails | waits

/-- A host that writes what it is told into another property, and passes on the error of that write. -/
def relay : Host Errand Unit where
  script errand stimulus :=
    match errand, stimulus with
    | .passesOn, .delivered value => do
      let _ ← Script.perform (.setKey ⟨0⟩ "second" value)
    | .fails, _ => .fail .notReactive
    | _, _ => pure ()

/-- Two properties with two watchers each. The first watcher of the second one fails. -/
def relayed : Store Errand Unit where
  model := {
    objects := #[[("first", .reactive ⟨0⟩), ("second", .reactive ⟨1⟩)]]
    cells := #[{ subscribers := [⟨0⟩, ⟨1⟩] }, { subscribers := [⟨2⟩, ⟨3⟩] }] }
  subscribers := #[
    ⟨1, .watching {
      root := .object ⟨0⟩, path := ⟨[], "first"⟩, policy := .refresh, reaction := .hosted .passesOn }⟩,
    ⟨1, .watching {
      root := .object ⟨0⟩, path := ⟨[], "first"⟩, policy := .refresh, reaction := .hosted .waits }⟩,
    ⟨1, .watching {
      root := .object ⟨0⟩, path := ⟨[], "second"⟩, policy := .refresh, reaction := .hosted .fails }⟩,
    ⟨1, .watching {
      root := .object ⟨0⟩, path := ⟨[], "second"⟩, policy := .refresh, reaction := .hosted .waits }⟩]
  host := ()

/-- The relay passes on every error. -/
theorem relay_passesOn : relay.PassesOn fun _ => True := by
  intro errand stimulus
  cases errand with
  | passesOn =>
    cases stimulus with
    | delivered value =>
      refine ⟨fun _ e => rfl, fun answer => ?_⟩
      cases answer with
      | ok _ => trivial
      | error _ => trivial
    | _ => trivial
  | _ => trivial

/-- The relay never touches the collector slot. -/
theorem relay_keepsSlot (depth : Nat) :
    Respond.Keeps (fun s s' => s'.collector = s.collector) (relay.respond depth) := by
  have hasks : relay.Asks (·.isByHand = false) := by
    intro errand stimulus
    cases errand with
    | passesOn =>
      cases stimulus with
      | delivered value =>
        refine ⟨rfl, fun answer => ?_⟩
        cases answer with
        | ok _ => trivial
        | error _ => trivial
      | _ => trivial
    | _ => trivial
  refine Host.keeps_respond Store.sameSlot (fun op hop hhand => ?_) hasks depth
  rw [hhand] at hop
  cases hop

/-- The error comes from two cycles further down. Both values are stored, and the watchers behind are not
told of them. -/
theorem failing_write_stops_relayed : ∃ s₁ s₂ s',
    Run.perform (relay.respond 3) 3 (.setKey ⟨0⟩ "first" (.string "new")) relayed =
      some (.error .notReactive, s') ∧
    (s'.watcher? ⟨0⟩).map (·.fireCount) = some 1 ∧ (s'.watcher? ⟨2⟩).map (·.fireCount) = some 1 ∧
    (s'.watcher? ⟨1⟩).map (·.fireCount) = some 0 ∧ (s'.watcher? ⟨3⟩).map (·.fireCount) = some 0 ∧
    (relayed.storeCell ⟨0⟩ (.string "new")).FailsAt (fun _ => True) relay .notReactive s₁ s₂ s' ∧
    s'.collector = none := by
  let run := Run.perform (relay.respond 3) 3 (.setKey ⟨0⟩ "first" (.string "new")) relayed
  have hdone : run.isSome = true := by decide +kernel
  have hfailed : ∀ outcome ∈ run, failure? outcome.1 = some .notReactive := by decide +kernel
  have hfired : ∀ outcome ∈ run,
      (outcome.2.watcher? ⟨0⟩).map (·.fireCount) = some 1 ∧
      (outcome.2.watcher? ⟨2⟩).map (·.fireCount) = some 1 ∧
      (outcome.2.watcher? ⟨1⟩).map (·.fireCount) = some 0 ∧
      (outcome.2.watcher? ⟨3⟩).map (·.fireCount) = some 0 := by decide +kernel
  obtain ⟨⟨result, s'⟩, hrun⟩ := Option.isSome_iff_exists.1 hdone
  have hresult : result = .error .notReactive := by
    cases result with
    | ok _ => cases hfailed _ hrun
    | error e => exact congrArg Except.error (Option.some.inj (hfailed _ hrun))
  subst hresult
  obtain ⟨⟨s₁, s₂, hfails, -⟩, hslot⟩ := failing_write_stops (P := fun _ => True) relay_passesOn rfl rfl hrun
  obtain ⟨h₀, h₂, h₁, h₃⟩ := hfired _ hrun
  exact ⟨s₁, s₂, s', hrun, h₀, h₂, h₁, h₃, hfails, hslot (relay_keepsSlot 3)⟩

end DataBinding
