import DataBinding.Proofs.Model.Subscribers
import DataBinding.Proofs.Watching.Active

/-!
# What steps do to lists of subscribers

A step does one of two things to the list of a cell: it drops the entries that are not live, or it adds
entries at the end (mostly none). Whoever is added is in the collector slot or has just been made. And no
step makes a subscriber live again that was not live before. These are the only facts about steps that
the order and the number of entries depend on.
-/

set_option autoImplicit false

namespace DataBinding

namespace Store

variable {ρ σ : Type} {s s' : Store ρ σ} {id target : SubscriberId} {cell : CellId}

/-- Who is in the list of a cell, oldest entry first. -/
def entries (s : Store ρ σ) (cell : CellId) : List SubscriberId := (s.model.cell cell).subscribers

/-- The store once the entries that are not live are dropped from the list of a cell. -/
def prune (s : Store ρ σ) (cell : CellId) : Store ρ σ :=
  s.withModel (·.updateSubscribers cell (·.filter s.isLive))

/-! ## Who is live -/

/-- Changing one subscriber makes nobody live if it makes that one live only where it was before. -/
theorem isLive_of_updateSubscriber {f : Subscriber ρ → Subscriber ρ}
    (hf : ∀ a, (f a).isLive = true → a.isLive = true)
    (h : (s.updateSubscriber target f).isLive id = true) : s.isLive id = true := by
  simp only [isLive, subscriber?, updateSubscriber, Array.getElem?_modify] at h ⊢
  split at h
  · rw [Option.any_map] at h
    cases hentry : s.subscribers[id.index]? with
    | none => simp [hentry] at h
    | some a =>
      rw [hentry] at h
      exact hf a h
  · exact h

/-- An update that brings nobody back from disposal makes nobody live. -/
theorem isLive_of_updateWatcher {f : Watcher ρ → Watcher ρ}
    (hf : ∀ w, (f w).disposed = false → w.disposed = false)
    (h : (s.updateWatcher target f).isLive id = true) : s.isLive id = true := by
  refine isLive_of_updateSubscriber (fun a ha => ?_) h
  obtain ⟨handles, role⟩ := a
  cases role with
  | watching w =>
    simp only [Subscriber.isLive, Subscriber.isAlive, Role.isActive, Bool.and_eq_true,
      Bool.not_eq_true'] at ha ⊢
    exact ⟨ha.1, hf w ha.2⟩
  | hosted active reaction => exact ha

/-- One more handle makes nobody live who was not. -/
theorem isLive_of_retain (h : (s.retain target).isLive id = true) : s.isLive id = true := by
  refine isLive_of_updateSubscriber (fun a ha => ?_) h
  split at ha
  · next halive =>
    simp only [Subscriber.isLive, Bool.and_eq_true] at ha ⊢
    exact ⟨halive, ha.2⟩
  · exact ha

/-- One handle less makes nobody live who was not. -/
theorem isLive_of_release (h : (s.release target).isLive id = true) : s.isLive id = true := by
  refine isLive_of_updateSubscriber (fun a ha => ?_) h
  simp only [Subscriber.isLive, Subscriber.isAlive, Bool.and_eq_true, decide_eq_true_eq] at ha ⊢
  exact ⟨by omega, ha.2⟩

/-- Switching a subscriber off makes nobody live. -/
theorem isLive_of_switchOff (h : (s.setActive target false).isLive id = true) :
    s.isLive id = true := by
  refine isLive_of_updateSubscriber (fun a ha => ?_) h
  obtain ⟨handles, role⟩ := a
  cases role with
  | watching w => exact ha
  | hosted active reaction => simp [Subscriber.isLive, Role.isActive] at ha

/-- Adding a subscriber leaves those who are there as they are. -/
theorem isLive_of_push {subscriber : Subscriber ρ} (hold : id.index < s.subscribers.size)
    (hpush : s'.subscribers = s.subscribers.push subscriber) : s'.isLive id = s.isLive id := by
  simp [isLive, subscriber?, hpush, Array.getElem?_push, Nat.ne_of_lt hold]

/-- No step makes a subscriber live again. -/
theorem isLive_of_step (hstep : Step s s') (hold : id.index < s.subscribers.size)
    (h : s'.isLive id = true) : s.isLive id = true := by
  cases hstep with
  | delivered other watcher value hwatcher hactive hfound hother =>
    have h : ((s.record (.resolved other value)).updateWatcher other (·.receive value)).isLive id =
        true := h
    exact isLive_of_updateWatcher (f := (·.receive value)) (fun _ hw => hw) h
  | made => exact (isLive_of_push hold rfl).symm.trans h
  | abandoned => exact (isLive_of_push hold rfl).symm.trans h
  | tracked cells =>
    unfold subscribeCollector at h
    split at h
    · exact h
    · exact h
  | retained => exact isLive_of_retain h
  | released => exact isLive_of_release h
  | disposed => exact isLive_of_updateWatcher (fun w hw => by cases hw) h
  | hosted => exact (isLive_of_push hold rfl).symm.trans h
  | _ => exact h

/-! ## Who is in a list -/

/-- Pruning drops those who are not live from one list, and from no other. -/
theorem entries_prune (s : Store ρ σ) (target cell : CellId) :
    (s.prune target).entries cell =
      if target = cell then (s.entries cell).filter s.isLive else s.entries cell := by
  simp only [entries, prune, withModel, Model.cell_updateSubscribers]
  by_cases htarget : target = cell
  · subst htarget
    by_cases hlt : target.index < s.model.cells.size
    · simp [hlt]
    · simp [Model.subscribers_of_le (Nat.le_of_not_lt hlt), hlt]
  · simp [htarget]

/-- Subscriptions of one subscriber come at the end of each list. -/
theorem entries_subscribeAll {cells : List CellId}
    (hmodel : s'.model = cells.foldl (fun m cell => m.subscribe cell id) s.model) (cell : CellId) :
    ∃ count, s'.entries cell = s.entries cell ++ List.replicate count id := by
  unfold entries
  rw [hmodel]
  by_cases hlt : cell.index < s.model.cells.size
  · exact ⟨_, Model.subscribers_foldl_subscribe cells id s.model hlt⟩
  · have hle := Nat.le_of_not_lt hlt
    have hle' := hle
    rw [← Model.size_foldl_subscribe cells id s.model] at hle'
    exact ⟨0, by simp [Model.subscribers_of_le hle, Model.subscribers_of_le hle']⟩

/-- The new subscriber is the only one who joins a list when it is added. -/
theorem entries_enroll {handles : Nat} {watcher : Watcher ρ} {cells : List CellId} {event : Event}
    (cell : CellId) :
    ∃ added, (s.enroll handles watcher cells event).entries cell = s.entries cell ++ added ∧
      ∀ id ∈ added, s.collector = some id ∨ id = s.nextSubscriber ∧
        (s.enroll handles watcher cells event).subscribers.size = s.subscribers.size + 1 := by
  have hmodel : (s.enroll handles watcher cells event).model =
      cells.foldl (fun m cell => m.subscribe cell s.nextSubscriber) s.model := rfl
  obtain ⟨count, hcount⟩ := entries_subscribeAll hmodel cell
  refine ⟨_, hcount, fun id hid => .inr ⟨(List.mem_replicate.1 hid).2, ?_⟩⟩
  simp [enroll]

/-- A store into a cell leaves all lists as they are. -/
theorem entries_storeCell (s : Store ρ σ) (target : CellId) (value : Value) (cell : CellId) :
    (s.storeCell target value).entries cell = s.entries cell := by
  simp only [entries, storeCell, withModel, record, Model.cell_setCellValue]
  split <;> rfl

/-- What a step does to the list of a cell. -/
theorem entries_of_step (hstep : Step s s') (cell : CellId) :
    s'.entries cell = (s.entries cell).filter s.isLive ∨
      ∃ added, s'.entries cell = s.entries cell ++ added ∧
        ∀ id ∈ added, s.collector = some id ∨
          id = s.nextSubscriber ∧ s'.subscribers.size = s.subscribers.size + 1 := by
  have hsame : s'.entries cell = s.entries cell →
      ∃ added, s'.entries cell = s.entries cell ++ added ∧
        ∀ id ∈ added, s.collector = some id ∨
          id = s.nextSubscriber ∧ s'.subscribers.size = s.subscribers.size + 1 :=
    fun h => ⟨[], by simpa using h, by simp⟩
  cases hstep with
  | made root path policy reaction cells value hfound => exact .inr (entries_enroll cell)
  | abandoned root path policy reaction cells e hfailed => exact .inr (entries_enroll cell)
  | observed json => exact .inr (hsame (Model.subscribers_observe json s.model cell))
  | tracked cells =>
    unfold subscribeCollector at hsame ⊢
    split at hsame
    · exact .inr (hsame rfl)
    · next id hslot =>
      have hmodel : (s.withModel fun m => cells.foldl (fun m cell => m.subscribe cell id) m).model =
          cells.foldl (fun m cell => m.subscribe cell id) s.model := rfl
      obtain ⟨count, hcount⟩ := entries_subscribeAll hmodel cell
      refine .inr ⟨_, hcount, fun other hother => .inl ?_⟩
      rw [hslot, (List.mem_replicate.1 hother).2]
  | pruned target =>
    have hpruned := entries_prune s target cell
    by_cases htarget : target = cell
    · exact .inl (hpruned.trans (if_pos htarget))
    · exact .inr (hsame (hpruned.trans (if_neg htarget)))
  | _ => exact .inr (hsame rfl)

/-- Steps leave the collector slot alone. -/
theorem collector_of_step (hstep : Step s s') : s'.collector = s.collector := by
  cases hstep with
  | tracked cells =>
    unfold subscribeCollector
    split
    · rfl
    · rfl
  | _ => rfl

end Store

end DataBinding
