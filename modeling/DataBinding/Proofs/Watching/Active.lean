import DataBinding.Proofs.Runs.Step

/-!
# Active watchers

A watcher is active as long as somebody holds it and it is not disposed. A watcher that has ceased to be
active never becomes active again: nobody can take hold of what nobody holds, and disposing cannot be
undone. `active_of_step` says so of every step of a run.
-/

set_option autoImplicit false

namespace DataBinding

namespace Store

variable {ρ σ : Type} {s s' : Store ρ σ} {id : SubscriberId} {w : Watcher ρ}

/-- A watcher that somebody holds and that is not disposed. -/
def Active (s : Store ρ σ) (id : SubscriberId) (w : Watcher ρ) : Prop :=
  ∃ handles, s.subscribers[id.index]? = some ⟨handles + 1, .watching w⟩ ∧ w.disposed = false

/-- A watcher is active if it is there and live. -/
theorem active_iff :
    s.Active id w ↔ s.watcher? id = some w ∧ s.isLive id = true := by
  unfold Active watcher? isLive subscriber?
  constructor
  · rintro ⟨handles, hentry, hactive⟩
    rw [hentry]
    simp [Subscriber.isLive, Subscriber.isAlive, Role.isActive, hactive]
  · rintro ⟨hwatcher, hlive⟩
    cases hentry : s.subscribers[id.index]? with
    | none =>
      rw [hentry] at hwatcher
      cases hwatcher
    | some subscriber =>
      rw [hentry] at hwatcher hlive
      obtain ⟨handles, role⟩ := subscriber
      cases role with
      | hosted active reaction => cases hwatcher
      | watching watcher =>
        obtain rfl := Option.some.inj hwatcher
        simp only [Option.any_some, Subscriber.isLive, Subscriber.isAlive, Role.isActive,
          Bool.and_eq_true, decide_eq_true_eq, Bool.not_eq_true'] at hlive
        obtain ⟨n, rfl⟩ := Nat.exists_eq_succ_of_ne_zero (Nat.ne_of_gt hlive.1)
        exact ⟨n, rfl, hlive.2⟩

/-- A watcher that is there has an index within the subscribers. -/
theorem lt_size_of_watcher? (h : s.watcher? id = some w) : id.index < s.subscribers.size := by
  refine Nat.lt_of_not_le fun hge => ?_
  unfold watcher? subscriber? at h
  rw [Array.getElem?_eq_none hge] at h
  cases h

/-- Those who were there before somebody is added stay as they are. -/
theorem watcher?_push_old {subscriber : Subscriber ρ} (hold : id.index < s.subscribers.size)
    (hpush : s'.subscribers = s.subscribers.push subscriber) : s'.watcher? id = s.watcher? id := by
  unfold watcher? subscriber?
  rw [hpush, Array.getElem?_push, if_neg (Nat.ne_of_lt hold)]

/-- A watcher that is there stays so when a subscriber is added. -/
theorem watcher?_of_push {subscriber : Subscriber ρ} (h : s.watcher? id = some w)
    (hpush : s'.subscribers = s.subscribers.push subscriber) : s'.watcher? id = some w :=
  (watcher?_push_old (lt_size_of_watcher? h) hpush).trans h

/-- An active watcher has an index within the subscribers. -/
theorem Active.lt_size (h : s.Active id w) : id.index < s.subscribers.size := by
  exact lt_size_of_watcher? (active_iff.1 h).1

/-- Changing one subscriber makes no watcher active and changes no active one, if what the change
makes of a subscriber is an active watcher only where it was that watcher before. -/
theorem Active.of_updateSubscriber {target : SubscriberId} {f : Subscriber ρ → Subscriber ρ}
    (hf : ∀ a n v, f a = ⟨n + 1, .watching v⟩ → v.disposed = false →
      ∃ m, a = ⟨m + 1, .watching v⟩)
    (h : (s.updateSubscriber target f).Active id w) : s.Active id w := by
  obtain ⟨handles, hentry, hactive⟩ := h
  simp only [updateSubscriber, Array.getElem?_modify] at hentry
  split at hentry
  · obtain ⟨a, ha, hfa⟩ := Option.map_eq_some_iff.1 hentry
    obtain ⟨m, rfl⟩ := hf a handles w hfa hactive
    exact ⟨m, ha, hactive⟩
  · exact ⟨handles, hentry, hactive⟩

/-- Whoever is active after somebody was retained was so before. -/
theorem Active.of_retain {target : SubscriberId} (h : (s.retain target).Active id w) :
    s.Active id w := by
  refine h.of_updateSubscriber fun a n v heq hactive => ?_
  split at heq
  · next halive =>
    obtain ⟨handles, role⟩ := a
    cases heq
    have hpos : 0 < handles := of_decide_eq_true halive
    exact ⟨handles - 1, by rw [Nat.sub_add_cancel hpos]⟩
  · exact ⟨n, heq⟩

/-- An active watcher stays so when somebody is retained. -/
theorem Active.retain (h : s.Active id w) (target : SubscriberId) :
    (s.retain target).Active id w := by
  obtain ⟨handles, hentry, hactive⟩ := h
  by_cases htarget : target.index = id.index
  · refine ⟨handles + 1, ?_, hactive⟩
    simp [Store.retain, updateSubscriber, Array.getElem?_modify, htarget, hentry, Subscriber.isAlive]
  · refine ⟨handles, ?_, hactive⟩
    simp [Store.retain, updateSubscriber, Array.getElem?_modify, htarget, hentry]

/-- Whoever is active after a release was so before. -/
theorem Active.of_release {target : SubscriberId} (h : (s.release target).Active id w) :
    s.Active id w := by
  refine h.of_updateSubscriber fun a n v heq hactive => ?_
  obtain ⟨handles, role⟩ := a
  simp only [Subscriber.mk.injEq] at heq
  obtain ⟨hhandles, rfl⟩ := heq
  exact ⟨handles - 1, by rw [Nat.sub_add_cancel (by omega)]⟩

/-- Whoever is active after a disposal was so before. -/
theorem Active.of_dispose {target : SubscriberId} (h : (s.dispose target).Active id w) :
    s.Active id w := by
  refine h.of_updateSubscriber fun a n v heq hactive => ?_
  obtain ⟨handles, role⟩ := a
  cases role with
  | watching w =>
    cases heq
    cases hactive
  | hosted active reaction => cases heq

/-- Whoever is active after a hosted subscriber was switched was so before. -/
theorem Active.of_setActive {target : SubscriberId} {active : Bool}
    (h : (s.setActive target active).Active id w) : s.Active id w := by
  refine h.of_updateSubscriber fun a n v heq hactive => ?_
  obtain ⟨handles, role⟩ := a
  cases role with
  | watching w => exact ⟨n, heq⟩
  | hosted active reaction => cases heq

/-- Whoever is active after a hosted subscriber came was so before. -/
theorem Active.of_addHosted {reaction : ρ}
    (h : (s.addSubscriber (.hosted true reaction)).2.Active id w) : s.Active id w := by
  obtain ⟨handles, hentry, hactive⟩ := h
  simp only [addSubscriber, Array.getElem?_push] at hentry
  split at hentry
  · cases hentry
  · exact ⟨handles, hentry, hactive⟩

/-- An active watcher of a store in which one watcher was changed was active before. -/
theorem Active.of_updateWatcher {target : SubscriberId} {f : Watcher ρ → Watcher ρ}
    (hf : ∀ v, (f v).disposed = v.disposed) (h : (s.updateWatcher target f).Active id w) :
    ∃ v, s.Active id v ∧ w = if id = target then f v else v := by
  obtain ⟨handles, hentry, hactive⟩ := h
  simp only [updateWatcher, updateSubscriber, Array.getElem?_modify] at hentry
  by_cases hid : target.index = id.index
  · obtain rfl : target = id := by cases target; cases id; exact congrArg _ hid
    rw [if_pos rfl] at hentry
    obtain ⟨⟨n, role⟩, hsubscriber, hmodified⟩ := Option.map_eq_some_iff.1 hentry
    cases role with
    | hosted active reaction => cases hmodified
    | watching v =>
      cases hmodified
      rw [hf] at hactive
      exact ⟨v, ⟨handles, hsubscriber, hactive⟩, by rw [if_pos rfl]⟩
  · have hne : id ≠ target := fun heq => hid (by rw [heq])
    rw [if_neg hid] at hentry
    exact ⟨w, ⟨handles, hentry, hactive⟩, by rw [if_neg hne]⟩

section Enroll

variable {handles : Nat} {watcher : Watcher ρ} {cells : List CellId} {event : Event}

/-- Whoever is active after a watcher was enrolled, and is not that watcher, was so before. -/
theorem Active.of_enroll (h : (s.enroll handles watcher cells event).Active id w)
    (hold : id.index ≠ s.subscribers.size) : s.Active id w := by
  obtain ⟨n, hentry, hactive⟩ := h
  simp only [enroll, Array.getElem?_push, hold, if_false] at hentry
  exact ⟨n, hentry, hactive⟩

/-- A watcher that is active once it is enrolled is the one enrolled, with a handle. -/
theorem Active.of_enroll_new (h : (s.enroll handles watcher cells event).Active id w)
    (hnew : id.index = s.subscribers.size) : 0 < handles ∧ w = watcher := by
  obtain ⟨n, hentry, -⟩ := h
  simp only [enroll, Array.getElem?_push, hnew, if_true] at hentry
  cases hentry
  exact ⟨Nat.succ_pos n, rfl⟩

end Enroll

/-- No step takes a subscriber away. -/
theorem size_le_of_step (hstep : Step s s') : s.subscribers.size ≤ s'.subscribers.size := by
  cases hstep with
  | tracked cells =>
    unfold subscribeCollector
    split <;> exact Nat.le_refl _
  | _ =>
    simp [record, withModel, updateWatcher, updateSubscriber, enroll, retain, release, dispose,
      addSubscriber, addBinder, keepWatcher, withView]

/-- No step makes a watcher active again, and none makes it follow another path. -/
theorem active_of_step (hstep : Step s s') (h : s'.Active id w)
    (hold : id.index < s.subscribers.size) :
    ∃ v, s.Active id v ∧ v.path = w.path ∧ v.root = w.root := by
  cases hstep with
  | delivered other watcher value hwatcher hactive hfound hother =>
    have h : ((s.record (.resolved other value)).updateWatcher other (·.receive value)).Active id w := h
    obtain ⟨v, hv, hw⟩ := Active.of_updateWatcher (f := (·.receive value)) (fun _ => rfl) h
    refine ⟨v, hv, ?_⟩
    rw [hw]
    split
    · exact ⟨rfl, rfl⟩
    · exact ⟨rfl, rfl⟩
  | made => exact ⟨w, h.of_enroll (Nat.ne_of_lt hold), rfl, rfl⟩
  | abandoned => exact ⟨w, h.of_enroll (Nat.ne_of_lt hold), rfl, rfl⟩
  | tracked cells =>
    unfold subscribeCollector at h
    split at h
    · exact ⟨w, h, rfl, rfl⟩
    · exact ⟨w, h, rfl, rfl⟩
  | retained => exact ⟨w, h.of_retain, rfl, rfl⟩
  | released => exact ⟨w, h.of_release, rfl, rfl⟩
  | disposed => exact ⟨w, h.of_dispose, rfl, rfl⟩
  | hosted => exact ⟨w, h.of_addHosted, rfl, rfl⟩
  | _ => exact ⟨w, h, rfl, rfl⟩

end Store

end DataBinding
