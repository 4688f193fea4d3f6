import DataBinding.Proofs.Watching.Active

/-!
# How the record of a watcher changes

A watcher keeps its path, its policy and its reaction for life. Only its baseline, its counter and whether
it is disposed change. `Store.befalls_of_step` lists what a step can do to a watcher that is there: leave it
alone, deliver a value to it, or dispose it. A delivery is one of a watcher that is not disposed, so nothing of
a watcher changes any more once it is.
-/

set_option autoImplicit false

namespace DataBinding

variable {ρ σ : Type}

/-- What a watcher can have become later. -/
structure Watcher.Evolves (v w : Watcher ρ) : Prop where
  root : w.root = v.root
  path : w.path = v.path
  policy : w.policy = v.policy
  reaction : w.reaction = v.reaction
  disposed : v.disposed = true → w = v

namespace Watcher.Evolves

variable {v : Watcher ρ}

/-- A watcher that nothing happens to has evolved into itself. -/
theorem refl (v : Watcher ρ) : v.Evolves v := ⟨rfl, rfl, rfl, rfl, fun _ => rfl⟩

/-- An active watcher evolves by a delivery. -/
theorem receive (hactive : v.disposed = false) (value : Value) : v.Evolves (v.receive value) :=
  ⟨rfl, rfl, rfl, rfl, fun hdisposed => by rw [hactive] at hdisposed; cases hdisposed⟩

/-- A watcher evolves by its disposal. -/
theorem dispose (v : Watcher ρ) : v.Evolves { v with disposed := true } :=
  ⟨rfl, rfl, rfl, rfl, fun hdisposed => by rw [← hdisposed]⟩

end Watcher.Evolves

/-- The watcher that a subscriber is, if it is one. -/
def Subscriber.watcher? (a : Subscriber ρ) : Option (Watcher ρ) :=
  match a.role with
  | .watching watcher => some watcher
  | .hosted _ _ => none

namespace Store

variable {s s' : Store ρ σ} {id other target : SubscriberId} {v w : Watcher ρ}

/-! ## The record after a change -/

/-- The watcher of an identity is what the subscriber of that identity is. -/
theorem watcher?_eq_bind (s : Store ρ σ) (id : SubscriberId) :
    s.watcher? id = (s.subscriber? id).bind Subscriber.watcher? := by
  unfold watcher?
  cases s.subscriber? id with
  | none => rfl
  | some a =>
    obtain ⟨handles, role⟩ := a
    cases role <;> rfl

/-- An entry that watches has its record for a watcher. -/
theorem watcher?_of_entry {handles : Nat} (h : s.subscriber? id = some ⟨handles, .watching w⟩) :
    s.watcher? id = some w := by
  unfold watcher?
  rw [h]

/-- Each watcher is in an entry, with some number of handles. -/
theorem exists_entry (hw : s.watcher? id = some w) :
    ∃ handles, s.subscriber? id = some ⟨handles, .watching w⟩ := by
  unfold watcher? at hw
  split at hw
  · next handles watcher hentry =>
    obtain rfl := Option.some.inj hw
    exact ⟨handles, hentry⟩
  · cases hw

/-- The watchers depend on the subscribers alone. -/
theorem watcher?_of_subscribers (h : s'.subscribers = s.subscribers) :
    s'.watcher? id = s.watcher? id := by
  unfold watcher? subscriber?
  rw [h]

/-- An update of a subscriber is seen at that subscriber only. -/
theorem subscriber?_updateSubscriber (s : Store ρ σ) (target id : SubscriberId)
    (f : Subscriber ρ → Subscriber ρ) : (s.updateSubscriber target f).subscriber? id =
      if target = id then (s.subscriber? id).map f else s.subscriber? id := by
  unfold subscriber? updateSubscriber
  rw [Array.getElem?_modify]
  by_cases htarget : target = id
  · rw [if_pos htarget, if_pos (congrArg SubscriberId.index htarget)]
  · rw [if_neg htarget, if_neg fun hindex => htarget (by cases target; cases id; exact congrArg _ hindex)]

/-- An update of a subscriber is seen at the watcher of that subscriber only. -/
theorem watcher?_updateSubscriber (s : Store ρ σ) (target id : SubscriberId)
    (f : Subscriber ρ → Subscriber ρ) : (s.updateSubscriber target f).watcher? id =
      if target = id then (s.subscriber? id).bind fun a => (f a).watcher? else s.watcher? id := by
  rw [watcher?_eq_bind, watcher?_eq_bind, subscriber?_updateSubscriber]
  split
  · rw [Option.bind_map]
    rfl
  · rfl

/-- A change of subscribers that is none of what they watch. -/
theorem watcher?_updateSubscriber_of_same {f : Subscriber ρ → Subscriber ρ}
    (hf : ∀ a, (f a).watcher? = a.watcher?) (s : Store ρ σ) (target id : SubscriberId) :
    (s.updateSubscriber target f).watcher? id = s.watcher? id := by
  rw [watcher?_updateSubscriber, watcher?_eq_bind]
  split
  · cases s.subscriber? id with
    | none => rfl
    | some a => exact hf a
  · rfl

/-- One more handle changes no watcher. -/
@[simp] theorem watcher?_retain (s : Store ρ σ) (target id : SubscriberId) :
    (s.retain target).watcher? id = s.watcher? id := by
  refine watcher?_updateSubscriber_of_same (fun a => ?_) s target id
  split
  · rfl
  · rfl

/-- One handle less changes no watcher. -/
@[simp] theorem watcher?_release (s : Store ρ σ) (target id : SubscriberId) :
    (s.release target).watcher? id = s.watcher? id := by
  refine watcher?_updateSubscriber_of_same (fun a => ?_) s target id
  rfl

/-- The switch of a hosted subscriber changes no watcher. -/
@[simp] theorem watcher?_setActive (s : Store ρ σ) (target id : SubscriberId) (active : Bool) :
    (s.setActive target active).watcher? id = s.watcher? id := by
  refine watcher?_updateSubscriber_of_same (fun a => ?_) s target id
  obtain ⟨handles, role⟩ := a
  cases role <;> rfl

/-- An update of a watcher is seen at that watcher only. -/
theorem watcher?_updateWatcher (s : Store ρ σ) (id other : SubscriberId) (f : Watcher ρ → Watcher ρ) :
    (s.updateWatcher id f).watcher? other =
      if id = other then (s.watcher? other).map f else s.watcher? other := by
  unfold updateWatcher
  rw [watcher?_updateSubscriber]
  split
  · rw [watcher?_eq_bind]
    cases s.subscriber? other with
    | none => rfl
    | some a =>
      obtain ⟨handles, role⟩ := a
      cases role <;> rfl
  · rfl

/-- Everybody else keeps the watcher through an update. -/
theorem watcher?_updateWatcher_of_ne (hne : other ≠ id) (f : Watcher ρ → Watcher ρ) :
    (s.updateWatcher id f).watcher? other = s.watcher? other := by
  rw [watcher?_updateWatcher, if_neg hne.symm]

/-- The watcher updated is what the update makes of it. -/
theorem watcher?_updateWatcher_self (hw : s.watcher? id = some w) (f : Watcher ρ → Watcher ρ) :
    (s.updateWatcher id f).watcher? id = some (f w) := by
  rw [watcher?_updateWatcher, if_pos rfl, hw]
  rfl

/-- A disposal marks one watcher, and leaves the others. -/
theorem watcher?_dispose (s : Store ρ σ) (target id : SubscriberId) : (s.dispose target).watcher? id =
    if target = id then (s.watcher? id).map ({ · with disposed := true }) else s.watcher? id :=
  watcher?_updateWatcher s target id _

/-- A new subscriber is there under the next identity, and the others stay. -/
theorem subscriber?_push {subscriber : Subscriber ρ}
    (hpush : s'.subscribers = s.subscribers.push subscriber) (id : SubscriberId) :
    s'.subscriber? id = if id = s.nextSubscriber then some subscriber else s.subscriber? id := by
  have hid : id = s.nextSubscriber ↔ id.index = s.subscribers.size := by
    cases id
    simp [nextSubscriber]
  unfold subscriber?
  rw [hpush, Array.getElem?_push]
  simp only [hid]

/-- A new watcher is there under the next identity, and the others stay. -/
theorem watcher?_push {handles : Nat} {w : Watcher ρ}
    (hpush : s'.subscribers = s.subscribers.push ⟨handles, .watching w⟩) (id : SubscriberId) :
    s'.watcher? id = if id = s.nextSubscriber then some w else s.watcher? id := by
  unfold watcher?
  rw [subscriber?_push hpush]
  by_cases hid : id = s.nextSubscriber
  · rw [if_pos hid, if_pos hid]
  · rw [if_neg hid, if_neg hid]

/-- A watcher that has a handle and is not disposed is live. -/
theorem isLive_of_entry {handles : Nat} (hentry : s.subscriber? id = some ⟨handles + 1, .watching w⟩)
    (henabled : w.disposed = false) : s.isLive id = true := by
  simp [isLive, hentry, Subscriber.isLive, Subscriber.isAlive, Role.isActive, henabled]

/-- One more handle is counted at the entry retained. -/
theorem subscriber?_retain {handles : Nat} (hentry : s.subscriber? id = some ⟨handles + 1, .watching w⟩) :
    (s.retain id).subscriber? id = some ⟨handles + 2, .watching w⟩ := by
  rw [retain, subscriber?_updateSubscriber, if_pos rfl, hentry]
  rfl

/-! ## What a step does to a watcher -/

/-- The journal goes on without a delivery to somebody. -/
def Undelivered (id : SubscriberId) (s s' : Store ρ σ) : Prop :=
  ∃ events, s'.journal = events ++ s.journal ∧ ∀ value, .delivered id value ∉ events

/-- A journal that stays the same has no further delivery. -/
theorem undelivered_of_same (h : s'.journal = s.journal) : s.Undelivered id s' := ⟨[], h, by simp⟩

/-- One event that is no delivery to somebody leaves the deliveries to them. -/
theorem undelivered_of_cons {event : Event} (h : s'.journal = event :: s.journal)
    (hevent : ∀ value, event ≠ .delivered id value) : s.Undelivered id s' :=
  ⟨[event], h, fun value hmem => hevent value (List.mem_singleton.1 hmem).symm⟩

/-- Two stretches without a delivery make one. -/
theorem Undelivered.trans {s₁ : Store ρ σ} (h₁ : s.Undelivered id s₁) (h₂ : s₁.Undelivered id s') :
    s.Undelivered id s' := by
  obtain ⟨events₁, hjournal₁, hnone₁⟩ := h₁
  obtain ⟨events₂, hjournal₂, hnone₂⟩ := h₂
  refine ⟨events₂ ++ events₁, by rw [hjournal₂, hjournal₁, List.append_assoc], fun value hmem => ?_⟩
  exact (List.mem_append.1 hmem).elim (hnone₂ value) (hnone₁ value)

/-- What befalls a watcher that is there, in a step. -/
inductive Befalls (id : SubscriberId) (s s' : Store ρ σ) : Prop where
  | none (hsame : s'.watcher? id = s.watcher? id) (hquiet : s.Undelivered id s')
  /-- The watcher finds another value at its path than its baseline, and receives it. -/
  | delivered (w : Watcher ρ) (value : Value) (hw : s.watcher? id = some w) (hactive : w.disposed = false)
      (hfound : s.model.peek w.path w.root = .ok value) (hother : value.strictEq w.baseline = false)
      (hw' : s'.watcher? id = some (w.receive value))
      (hjournal : s'.journal = .delivered id value :: .resolved id value :: s.journal)
  | disposed (hw' : s'.watcher? id = (s.watcher? id).map ({ · with disposed := true }))
      (hjournal : s'.journal = s.journal)

/-- A step leaves a watcher that is there alone, delivers to it or disposes it. -/
theorem befalls_of_step (hstep : Step s s') (hold : id.index < s.subscribers.size) : Befalls id s s' := by
  cases hstep with
  | delivered other watcher value hwatcher hactive hfound hother =>
    by_cases hid : id = other
    · subst hid
      refine .delivered watcher value hwatcher hactive hfound hother ?_ rfl
      exact watcher?_updateWatcher_self (s := s.record (.resolved id value)) hwatcher _
    · refine .none (watcher?_updateWatcher_of_ne (s := s.record (.resolved other value)) hid _) ?_
      refine ⟨[.delivered other value, .resolved other value], rfl, fun found hmem => ?_⟩
      rcases List.mem_cons.1 hmem with heq | hmem
      · cases heq
        exact hid rfl
      · cases List.mem_singleton.1 hmem
  | noted event hnote =>
    refine .none rfl (undelivered_of_cons rfl fun value heq => ?_)
    subst heq
    cases hnote
  | agreed | storedPlain | textWritten | valueWritten =>
    exact .none rfl (undelivered_of_cons rfl fun value heq => by cases heq)
  | made | abandoned =>
    exact .none (watcher?_push_old hold rfl) (undelivered_of_cons rfl fun value heq => by cases heq)
  | tracked cells =>
    unfold subscribeCollector
    split
    · exact .none rfl (undelivered_of_same rfl)
    · exact .none rfl (undelivered_of_same rfl)
  | retained target => exact .none (watcher?_retain s target id) (undelivered_of_same rfl)
  | released target => exact .none (watcher?_release s target id) (undelivered_of_same rfl)
  | disposed target =>
    have hw := watcher?_dispose s target id
    by_cases htarget : target = id
    · exact .disposed (hw.trans (if_pos htarget)) rfl
    · exact .none (hw.trans (if_neg htarget)) (undelivered_of_same rfl)
  | hosted => exact .none (watcher?_push_old hold rfl) (undelivered_of_same rfl)
  | _ => exact .none rfl (undelivered_of_same rfl)

/-- A watcher remains one, and evolves. -/
theorem Befalls.evolves (h : Befalls id s s') (hv : s.watcher? id = some v) :
    ∃ w, s'.watcher? id = some w ∧ v.Evolves w := by
  cases h with
  | none hsame => exact ⟨v, hsame.trans hv, .refl v⟩
  | delivered w value hw hactive _ _ hw' =>
    obtain rfl : w = v := Option.some.inj (hw.symm.trans hv)
    exact ⟨_, hw', .receive hactive value⟩
  | disposed hw' =>
    rw [hv] at hw'
    exact ⟨_, hw', .dispose v⟩

/-- A watcher remains one. -/
theorem watcher?_of_step (hstep : Step s s') (hv : s.watcher? id = some v) :
    ∃ w, s'.watcher? id = some w :=
  ((befalls_of_step hstep (lt_size_of_watcher? hv)).evolves hv).imp fun _ h => h.1

end Store

end DataBinding
