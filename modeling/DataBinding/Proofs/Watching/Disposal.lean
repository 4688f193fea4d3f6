import DataBinding.Proofs.Runs.Supervision
import DataBinding.Proofs.Watching.Entries
import DataBinding.Proofs.Watching.Evolution

/-!
# Disposed watchers

A watcher that is disposed delivers nothing any more, and nothing of its record changes. A cycle of
notifications drops it from the list of the cell before it tells anybody, and as nobody enters it into a list
again it is gone from there for good. `Store.silences` and `Store.absent_of_notify` say so of whatever a
host does.
-/

set_option autoImplicit false

namespace DataBinding

variable {ρ σ : Type}

/-- An operation that does not put a subscriber into lists of cells. -/
def Op.NeverEnlists (id : SubscriberId) : Op ρ σ → Prop
  | .subscribe _ other => other ≠ id
  | .collect slot => slot ≠ some id
  | _ => True

namespace Store

variable {s s₁ s' : Store ρ σ} {id : SubscriberId} {cell : CellId}

/-- A watcher that is stopped for ever. -/
def IsDisposed (s : Store ρ σ) (id : SubscriberId) : Prop :=
  ∃ w, s.watcher? id = some w ∧ w.disposed = true

/-- Nothing of a watcher changes, and nothing is delivered to it. -/
structure Silent (s : Store ρ σ) (id : SubscriberId) (s' : Store ρ σ) : Prop where
  watcher : s'.watcher? id = s.watcher? id
  undelivered : s.Undelivered id s'

/-- Whoever is disposed is silent. -/
def Silences (s s' : Store ρ σ) : Prop := ∀ id, s.IsDisposed id → s.Silent id s'

/-- A disposed watcher is silent in every step. -/
theorem silent_of_step (hstep : Step s s') (h : s.IsDisposed id) : s.Silent id s' := by
  obtain ⟨w, hw, hdisposed⟩ := h
  cases befalls_of_step hstep (lt_size_of_watcher? hw) with
  | none hsame hquiet => exact ⟨hsame, hquiet⟩
  | delivered v value hv hactive =>
    obtain rfl : w = v := Option.some.inj (hw.symm.trans hv)
    rw [hdisposed] at hactive
    cases hactive
  | disposed hw' hjournal =>
    refine ⟨?_, undelivered_of_same hjournal⟩
    rw [hw', hw, Option.map_some, ← hdisposed]

/-- No change at all silences the disposed. -/
theorem Silences.refl (s : Store ρ σ) : s.Silences s := fun _ _ => ⟨rfl, undelivered_of_same rfl⟩

/-- Two changes that silence the disposed silence them together. -/
theorem Silences.trans (h₁ : s.Silences s₁) (h₂ : s₁.Silences s') : s.Silences s' := by
  intro id hdisposed
  have hfirst := h₁ id hdisposed
  obtain ⟨w, hw, hw'⟩ := hdisposed
  have hsecond := h₂ id ⟨w, hfirst.watcher.trans hw, hw'⟩
  exact ⟨hsecond.watcher.trans hfirst.watcher, hfirst.undelivered.trans hsecond.undelivered⟩

/-- A store into a cell delivers nothing to anybody. -/
theorem silences_storeCell (s : Store ρ σ) (cell : CellId) (value : Value) :
    s.Silences (s.storeCell cell value) :=
  fun _ _ => ⟨rfl, undelivered_of_cons rfl fun _ heq => by cases heq⟩

/-- Everything that a host does silences the disposed. -/
theorem silences : HostDiscipline (Silences : Store ρ σ → Store ρ σ → Prop) where
  toWriteDiscipline := .of_storing ⟨.refl, .trans, fun hstep _ h => silent_of_step hstep h⟩ silences_storeCell
  subscribed _ _ _ := fun _ _ => ⟨rfl, undelivered_of_same rfl⟩
  collected _ _ := fun _ _ => ⟨rfl, undelivered_of_same rfl⟩
  activated s target active := fun id _ => ⟨watcher?_setActive s target id active, undelivered_of_same rfl⟩

/-! ## Lists of cells -/

/-- A subscriber is not in the list of a cell, nor about to get there. -/
structure Absent (s : Store ρ σ) (id : SubscriberId) (cell : CellId) : Prop where
  known : id.index < s.subscribers.size
  uncollected : s.collector ≠ some id
  entry : id ∉ s.entries cell

/-- Whoever is absent from a list is so after a step. -/
theorem Absent.of_step (h : s.Absent id cell) (hstep : Step s s') : s'.Absent id cell where
  known := Nat.lt_of_lt_of_le h.known (size_le_of_step hstep)
  uncollected := collector_of_step hstep ▸ h.uncollected
  entry hmem := by
    rcases entries_of_step hstep cell with hpruned | ⟨added, hentries, hadded⟩
    · rw [hpruned] at hmem
      exact h.entry (List.mem_filter.1 hmem).1
    · rw [hentries] at hmem
      rcases List.mem_append.1 hmem with hmem | hmem
      · exact h.entry hmem
      · rcases hadded id hmem with hslot | ⟨rfl, -⟩
        · exact h.uncollected hslot
        · exact Nat.lt_irrefl _ h.known

/-- Whoever is absent from a list is so after a store into a cell. -/
theorem Absent.storeCell (h : s.Absent id cell) (target : CellId) (value : Value) :
    (s.storeCell target value).Absent id cell :=
  ⟨h.known, h.uncollected, entries_storeCell s target value cell ▸ h.entry⟩

/-- Whoever is absent stays so. -/
def StaysAbsent (id : SubscriberId) (cell : CellId) (s s' : Store ρ σ) : Prop :=
  s.Absent id cell → s'.Absent id cell

/-- Every chain of steps keeps a subscriber absent. -/
theorem staysAbsent (id : SubscriberId) (cell : CellId) :
    Discipline (StaysAbsent id cell : Store ρ σ → Store ρ σ → Prop) where
  refl _ h := h
  trans h₁ h₂ h := h₂ (h₁ h)
  step hstep h := h.of_step hstep

/-- A store into a cell keeps a subscriber absent. -/
theorem staysAbsent_storeCell (s : Store ρ σ) (target : CellId) (value : Value) :
    StaysAbsent id cell s (s.storeCell target value) := fun h => h.storeCell target value

/-- The subscription of somebody else puts nobody else into a list. -/
theorem entries_subscribe_of_ne {other : SubscriberId} (hne : other ≠ id) (target : CellId)
    (h : id ∉ s.entries cell) : id ∉ (s.withModel (·.subscribe target other)).entries cell := by
  intro hmem
  have hmodel : (s.withModel (·.subscribe target other)).model =
      [target].foldl (fun m cell => m.subscribe cell other) s.model := rfl
  obtain ⟨count, hcount⟩ := entries_subscribeAll hmodel cell
  rw [hcount] at hmem
  rcases List.mem_append.1 hmem with hmem | hmem
  · exact h hmem
  · exact hne (List.mem_replicate.1 hmem).2.symm

/-- What a host does by hand to others. -/
theorem staysAbsent_byHand {op : Op ρ σ} (hop : op.NeverEnlists id) (hhand : op.isByHand = true)
    (respond : Respond ρ σ) (depth : Nat) (s : Store ρ σ) :
    Run.Keeps (StaysAbsent id cell) s (Run.perform respond depth op) := by
  cases op with
  | subscribe target other =>
    exact Run.keeps_change fun h => ⟨h.known, h.uncollected, entries_subscribe_of_ne hop target h.entry⟩
  | collect slot => exact Run.keeps_change fun h => ⟨h.known, hop, h.entry⟩
  | setActive target active =>
    refine Run.keeps_change fun h => ⟨?_, h.uncollected, h.entry⟩
    simpa [setActive, updateSubscriber] using h.known
  | _ => cases hhand

/-- Whoever is disposed is not live. -/
theorem not_isLive_of_isDisposed (h : s.IsDisposed id) : s.isLive id = false := by
  obtain ⟨w, hw, hdisposed⟩ := h
  cases hlive : s.isLive id with
  | false => rfl
  | true =>
    obtain ⟨-, -, hactive⟩ := active_iff.2 ⟨hw, hlive⟩
    rw [hdisposed] at hactive
    cases hactive

/-- A cycle drops whoever is disposed before it tells anybody. -/
theorem not_mem_prune (h : s.IsDisposed id) (cell : CellId) : id ∉ (s.prune cell).entries cell := by
  rw [entries_prune, if_pos rfl]
  intro hmem
  have hlive := (List.mem_filter.1 hmem).2
  rw [not_isLive_of_isDisposed h] at hlive
  cases hlive

/-- Whoever is disposed when a cell is notified is gone from its list. -/
theorem absent_of_notify {respond : Respond ρ σ} (hrespond : Respond.Keeps (StaysAbsent id cell) respond)
    (h : s.IsDisposed id) (hslot : s.collector ≠ some id) {result : Except Error Unit}
    (hrun : Run.notify (Run.update respond) cell s = some (result, s')) : s'.Absent id cell := by
  obtain ⟨w, hw, hdisposed⟩ := h
  have hpruned : (s.prune cell).Absent id cell :=
    ⟨lt_size_of_watcher? hw, hslot, not_mem_prune ⟨w, hw, hdisposed⟩ cell⟩
  have heach : Run.each ((s.prune cell).entries cell) (Run.visit (Run.update respond)) (s.prune cell) =
      some (result, s') := hrun
  refine Run.keeps_each (staysAbsent id cell) _ (fun other _ s => ?_) _ _ heach hpruned
  exact Run.keeps_visit (staysAbsent id cell)
    (fun other s => Run.keeps_update (staysAbsent id cell) hrespond other) other

end Store

/-! ## Runs -/

section Runs

variable {α : Type} {host : Host ρ σ} {depth : Nat} {script : Script ρ σ α} {s t s' : Store ρ σ}
  {result : Except Error α} {id : SubscriberId} {cell : CellId}

/-- From wherever a run has come to, whoever is disposed there is silent until its end. -/
theorem Script.silent_of_goesThrough (hthrough : script.GoesThrough host depth s t)
    (hrun : script.run host depth s = some (result, s')) (h : t.IsDisposed id) : t.Silent id s' := by
  have hsilences := Script.related_of_goesThrough Store.silences.toDiscipline Store.silences_storeCell
    (fun op _ hop respond depth s => Store.silences.byHand hop respond depth s)
    (host.asks_of_all fun _ => trivial) (script.asks_of_all fun _ => trivial) hthrough hrun
  exact hsilences.2 id h

/-- A host that never enlists somebody keeps them absent, at any depth. -/
theorem Host.staysAbsent (hhost : host.Asks (·.NeverEnlists id)) (cell : CellId) (depth : Nat) :
    Respond.Keeps (Store.StaysAbsent id cell) (host.respond depth) :=
  Host.keeps_respond (.of_storing (Store.staysAbsent id cell) Store.staysAbsent_storeCell)
    (fun _ hop hhand respond depth s => Store.staysAbsent_byHand hop hhand respond depth s) hhost depth

/-- From wherever a run has come to, whoever is absent there stays absent until its end. -/
theorem Script.absent_of_goesThrough (hhost : host.Asks (·.NeverEnlists id))
    (hscript : script.Asks (·.NeverEnlists id)) (hthrough : script.GoesThrough host depth s t)
    (hrun : script.run host depth s = some (result, s')) (h : t.Absent id cell) : s'.Absent id cell := by
  have hstays := Script.related_of_goesThrough (Store.staysAbsent id cell) Store.staysAbsent_storeCell
    (fun _ hop hhand respond depth s => Store.staysAbsent_byHand hop hhand respond depth s)
    hhost hscript hthrough hrun
  exact hstays.2 h

end Runs

end DataBinding
