import DataBinding.Proofs.Runs.Step

/-!
# What a run leads to

`Run.Keeps R s run` says that whatever `run` comes back with from the store `s`, result or error, the
store is then related to `s` by `R`. A relation that is reflexive and transitive and holds of every step
is a `Discipline`; for it each combinator of runs has one rule here, and a proof about a composed run is
the composition of these rules.

A relation in place of an invariant lets one rule serve both kinds of statement, that something is
true of every store on the way and that something only grows, shrinks or stays.
-/

set_option autoImplicit false

namespace DataBinding

/-- A relation between stores that holds along every chain of steps. -/
structure Discipline {ρ σ : Type} (R : Store ρ σ → Store ρ σ → Prop) : Prop where
  refl : ∀ s, R s s
  trans : ∀ {s₁ s₂ s₃}, R s₁ s₂ → R s₂ s₃ → R s₁ s₃
  step : ∀ {s₁ s₂}, Step s₁ s₂ → R s₁ s₂

namespace Run

variable {ρ σ α β : Type}

/-- The stores that a run comes back with from `s` are related to `s`. -/
def Keeps (R : Store ρ σ → Store ρ σ → Prop) (s : Store ρ σ) (run : Run ρ σ α) : Prop :=
  ∀ result s', run s = some (result, s') → R s s'

/-! ## How combinators run -/

/-- A run that goes on ends with its first part, unless that comes back with a result. -/
theorem bind_apply (run : Run ρ σ α) (next : α → Run ρ σ β) (s : Store ρ σ) :
    (run >>= next) s =
      match run s with
      | none => none
      | some (.error e, s') => some (.error e, s')
      | some (.ok a, s') => next a s' := rfl

/-- Two runs that come to the same go on in the same way. -/
theorem bind_congr {run₁ run₂ : Run ρ σ α} {s₁ s₂ : Store ρ σ} (h : run₁ s₁ = run₂ s₂)
    (next : α → Run ρ σ β) : (run₁ >>= next) s₁ = (run₂ >>= next) s₂ := by
  rw [bind_apply, bind_apply, h]

/-- A run that is done comes back at once, with the store as it is. -/
@[simp] theorem done_apply (a : α) (s : Store ρ σ) : (done a : Run ρ σ α) s = some (.ok a, s) := rfl

/-- A run goes on from a look with what it has seen. -/
@[simp] theorem look_bind (f : Store ρ σ → α) (next : α → Run ρ σ β) (s : Store ρ σ) :
    (look f >>= next) s = next (f s) s := rfl

/-- A run goes on from a change in the changed store. -/
@[simp] theorem change_bind (f : Store ρ σ → Store ρ σ) (next : Unit → Run ρ σ β) (s : Store ρ σ) :
    (change f >>= next) s = next () (f s) := rfl

/-- A run goes on from a change with what that hands it, in the changed store. -/
@[simp] theorem changeGet_bind (f : Store ρ σ → α × Store ρ σ) (next : α → Run ρ σ β)
    (s : Store ρ σ) : (changeGet f >>= next) s = next (f s).1 (f s).2 := rfl

/-- A result is gone on with. -/
@[simp] theorem orRaise_ok_bind (a : α) (next : α → Run ρ σ β) (s : Store ρ σ) :
    (orRaise (.ok a) >>= next) s = next a s := rfl

/-- An error is raised, and the journal says so. -/
@[simp] theorem orRaise_error_bind (e : Error) (next : α → Run ρ σ β) (s : Store ρ σ) :
    (orRaise (.error e) >>= next) s = some (.error e, s.record (.raised e)) := rfl

/-- A value that is demanded is there, or nothing comes back. -/
theorem demand_apply (value : Option α) (s : Store ρ σ) :
    (demand value : Run ρ σ α) s = value.map fun a => (.ok a, s) := by
  cases value <;> rfl

/-- An attempt goes on with the result or the error. -/
@[simp] theorem attempt_bind (run : Run ρ σ α) (next : Except Error α → Run ρ σ β) (s : Store ρ σ) :
    (attempt run >>= next) s = (run s).bind fun outcome => next outcome.1 outcome.2 := by
  rw [bind_apply]
  unfold attempt
  cases run s <;> rfl

/-- Displaying a value comes back with its text, if it has one. -/
theorem display_apply (value : Value) (s : Store ρ σ) :
    display value s = (s.model.display? value).map fun text => (.ok (String.ofList text), s) := by
  unfold display
  rw [look_bind, demand_apply, Option.map_map]
  rfl

/-- Writing out a value comes back with its document, if it has one. -/
theorem toJson_apply (value : Value) (s : Store ρ σ) :
    toJson value s = (s.model.json? value).map fun json => (.ok json, s) := by
  unfold toJson
  rw [look_bind, demand_apply]

/-- A run that goes on came back with the error of its first part, or went on with the result of it. -/
theorem bind_cases {run : Run ρ σ α} {next : α → Run ρ σ β} {s s' : Store ρ σ} {result : Except Error β}
    (h : (run >>= next) s = some (result, s')) :
    (∃ e, run s = some (.error e, s') ∧ result = .error e) ∨
      ∃ a s₁, run s = some (.ok a, s₁) ∧ next a s₁ = some (result, s') := by
  rw [bind_apply] at h
  split at h
  · cases h
  · next e s₁ hrun =>
    cases h
    exact .inl ⟨e, hrun, rfl⟩
  · next a s₁ hrun => exact .inr ⟨a, s₁, hrun, h⟩

/-- A run that came back with a result did so by both of its parts. -/
theorem bind_eq_ok {run : Run ρ σ α} {next : α → Run ρ σ β} {s s' : Store ρ σ} {b : β} :
    (run >>= next) s = some (.ok b, s') ↔
      ∃ a s₁, run s = some (.ok a, s₁) ∧ next a s₁ = some (.ok b, s') := by
  constructor
  · intro h
    obtain ⟨e, -, hresult⟩ | hboth := bind_cases h
    · cases hresult
    · exact hboth
  · rintro ⟨a, s₁, hrun, hnext⟩
    rw [bind_apply, hrun]
    exact hnext

/-! ## One rule for each combinator -/

section Rules

variable {R : Store ρ σ → Store ρ σ → Prop} {s : Store ρ σ}

/-- A run that is done leaves the store as it is. -/
theorem keeps_done (hR : Discipline R) (a : α) : Keeps R s (done a : Run ρ σ α) := by
  intro result s' h
  cases h
  exact hR.refl s

/-- Nothing is to be kept where nothing comes back. -/
theorem keeps_diverge : Keeps R s (diverge : Run ρ σ α) := by
  intro result s' h
  cases h

/-- A run that goes on keeps what both of its parts keep. -/
theorem keeps_bind (hR : Discipline R) {run : Run ρ σ α} {next : α → Run ρ σ β}
    (hrun : Keeps R s run) (hnext : ∀ a s₁, run s = some (.ok a, s₁) → Keeps R s₁ (next a)) :
    Keeps R s (run >>= next) := by
  intro result s' h
  obtain ⟨e, herror, -⟩ | ⟨a, s₁, hok, hrest⟩ := bind_cases h
  · exact hrun _ _ herror
  · exact hR.trans (hrun _ _ hok) (hnext a s₁ hok _ _ hrest)

/-- A look keeps everything. -/
theorem keeps_look_bind {f : Store ρ σ → α} {next : α → Run ρ σ β} (h : Keeps R s (next (f s))) :
    Keeps R s (look f >>= next) := h

/-- A change keeps what it is a case of. -/
theorem keeps_change {f : Store ρ σ → Store ρ σ} (hf : R s (f s)) : Keeps R s (change f) := by
  intro result s' h
  cases h
  exact hf

/-- A change in front of a run keeps what both keep. -/
theorem keeps_change_bind (hR : Discipline R) {f : Store ρ σ → Store ρ σ}
    {next : Unit → Run ρ σ β} (hf : R s (f s)) (hnext : Keeps R (f s) (next ())) :
    Keeps R s (Run.change f >>= next) := by
  intro result s' h
  exact hR.trans hf (hnext result s' h)

/-- A change that comes back with something keeps what it is a case of. -/
theorem keeps_changeGet {f : Store ρ σ → α × Store ρ σ} (hf : R s (f s).2) :
    Keeps R s (changeGet f) := by
  intro result s' h
  cases h
  exact hf

/-- Raising an error is a step: the journal says so. -/
theorem keeps_raise (hR : Discipline R) (e : Error) : Keeps R s (raise e : Run ρ σ α) := by
  intro result s' h
  cases h
  exact hR.step (.noted s _ rfl)

/-- Going on with a result or raising its error keeps a discipline. -/
theorem keeps_orRaise (hR : Discipline R) (outcome : Except Error α) :
    Keeps R s (orRaise outcome) := by
  cases outcome with
  | ok a => exact keeps_done hR a
  | error e => exact keeps_raise hR e

/-- Demanding a value keeps a discipline. -/
theorem keeps_demand (hR : Discipline R) (value : Option α) : Keeps R s (demand value) := by
  cases value with
  | some a => exact keeps_done hR a
  | none => exact keeps_diverge

/-- Noting a failed write is a step after the write. -/
theorem keeps_writing (hR : Discipline R) {run : Run ρ σ α} (hrun : Keeps R s run) :
    Keeps R s (writing run) := by
  intro result s' h
  unfold Run.writing at h
  split at h
  · next e s₁ herror =>
    cases h
    exact hR.trans (hrun _ _ herror) (hR.step (.noted s₁ _ rfl))
  · exact hrun _ _ h

/-- A loop keeps what it keeps for each item, by induction on the items. -/
theorem keeps_each (hR : Discipline R) {f : α → Run ρ σ Unit} (items : List α)
    (hf : ∀ item ∈ items, ∀ s, Keeps R s (f item)) : Keeps R s (each items f) := by
  induction items generalizing s with
  | nil => exact keeps_done hR ()
  | cons item rest ih =>
    refine keeps_bind hR (hf item List.mem_cons_self s) fun _ s₁ _ => ?_
    exact ih fun other hother => hf other (List.mem_cons_of_mem item hother)

/-- Holding a subscriber during a run is a step before it and a step after it. -/
theorem keeps_holding (hR : Discipline R) {id : SubscriberId} {run : Run ρ σ α}
    (hrun : Keeps R (s.retain id) run) : Keeps R s (holding id run) := by
  intro result s' h
  unfold Run.holding at h
  obtain ⟨⟨outcome, s₁⟩, hrun', heq⟩ := Option.map_eq_some_iff.1 h
  obtain ⟨rfl, rfl⟩ := Prod.mk.inj heq
  have hin := hR.step (.retained s id)
  have hout := hR.step (.released s₁ id)
  exact hR.trans hin (hR.trans (hrun _ _ hrun') hout)

end Rules

end Run

end DataBinding
