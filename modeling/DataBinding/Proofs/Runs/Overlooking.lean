import DataBinding.Proofs.Model.Without
import DataBinding.Proofs.Runs.Writes
import DataBinding.Proofs.Watching.Entries

/-!
# Runs that overlook who is gone

A subscriber that nobody holds may still be in the lists of cells, and there it waits for the next cycle to
drop it. `Run.Overlooks blind gone run` says of a run from a store where nobody holds those who are gone that
nothing is said of them on the way and nothing about them changes, that they join no list, and that every
cell that is written has dropped them (`Store.PassedOver`). And their entries make no difference: the run
comes to the same as from the store without these entries, and leaves a store that is the same but for them.

The last is too much to ask of a run that looks at the lists and acts on what it sees there. So it is
asked only of those that are `blind`.
-/

set_option autoImplicit false

namespace DataBinding

variable {ρ σ : Type}

/-- The subscriber that an event tells something of. -/
def Event.subscriber? : Event → Option SubscriberId
  | .made id _ _ | .updating id | .resolved id _ | .delivered id _ => some id
  | _ => none

/-- The subscribers that an operation is asked for by name. -/
def Op.named : Op ρ σ → List SubscriberId
  | .update id | .dispose id | .retain id | .release id | .setActive id _ | .subscribe _ id => [id]
  | .collect slot => slot.toList
  | _ => []

/-! ## Stores -/

namespace Store

variable {gone : SubscriberId → Bool} {s s₁ s' : Store ρ σ} {id : SubscriberId} {cell : CellId}

/-- The store without the entries of some subscribers. -/
def without (s : Store ρ σ) (gone : SubscriberId → Bool) : Store ρ σ := s.withModel (·.without gone)

/-- Nobody holds those who are gone, and none of them is in the collector slot. -/
structure RidOf (s : Store ρ σ) (gone : SubscriberId → Bool) : Prop where
  unheld : ∀ {id}, gone id = true → ∃ role, s.subscriber? id = some ⟨0, role⟩
  uncollected : ∀ {id}, s.collector = some id → gone id = false

/-- What some time does to those who are gone: nothing but that cells which are written drop them. -/
structure PassedOver (gone : SubscriberId → Bool) (s s' : Store ρ σ) : Prop where
  uncollected : ∀ {id}, s'.collector = some id → gone id = false
  subscriber : ∀ {id}, gone id = true → s'.subscriber? id = s.subscriber? id
  listed : ∀ {cell id}, gone id = true → id ∈ s'.entries cell → id ∈ s.entries cell
  journal : ∃ events, s'.journal = events ++ s.journal ∧
    (∀ event ∈ events, ∀ id ∈ event.subscriber?, gone id = false) ∧
    ∀ cell value, Event.storedCell cell value ∈ events → ∀ id ∈ s'.entries cell, gone id = false

/-- Whoever has been passed over is still held by nobody. -/
theorem RidOf.passedOver (hs : s.RidOf gone) (h : PassedOver gone s s') : s'.RidOf gone where
  unheld {id} hid := by
    rw [h.subscriber hid]
    exact hs.unheld hid
  uncollected := h.uncollected

/-- If nothing happens, those who are gone are passed over. -/
theorem PassedOver.refl (hs : s.RidOf gone) : PassedOver gone s s :=
  ⟨hs.uncollected, fun _ => rfl, fun _ hmem => hmem, [], rfl, by simp, by simp⟩

/-- Passing over somebody twice is passing over them. -/
theorem PassedOver.trans (h₁ : PassedOver gone s s₁) (h₂ : PassedOver gone s₁ s') :
    PassedOver gone s s' where
  uncollected := h₂.uncollected
  subscriber hid := (h₂.subscriber hid).trans (h₁.subscriber hid)
  listed hid hmem := h₁.listed hid (h₂.listed hid hmem)
  journal := by
    obtain ⟨events₁, hjournal₁, htold₁, hdropped₁⟩ := h₁.journal
    obtain ⟨events₂, hjournal₂, htold₂, hdropped₂⟩ := h₂.journal
    refine ⟨events₂ ++ events₁, by rw [hjournal₂, hjournal₁, List.append_assoc], ?_, ?_⟩
    · intro event hevent
      exact (List.mem_append.1 hevent).elim (htold₂ event) (htold₁ event)
    · intro cell value hstored id hid
      rcases List.mem_append.1 hstored with hstored | hstored
      · exact hdropped₂ cell value hstored id hid
      · -- dropped before, and nobody who is gone has joined since
        cases hgone : gone id with
        | false => rfl
        | true => exact hgone ▸ hdropped₁ cell value hstored id (h₂.listed hgone hid)

/-- A change of anything but the subscribers, the entries and the slot, with what is said of it. -/
theorem PassedOver.of_same (hs : s.RidOf gone) (events : List Event)
    (hjournal : s'.journal = events ++ s.journal)
    (htold : ∀ event ∈ events, ∀ id ∈ event.subscriber?, gone id = false)
    (hunstored : ∀ cell value, Event.storedCell cell value ∉ events)
    (hentries : ∀ cell id, gone id = true → id ∈ s'.entries cell → id ∈ s.entries cell)
    (hsubscribers : s'.subscribers = s.subscribers) (hcollector : s'.collector = s.collector) :
    PassedOver gone s s' where
  uncollected hslot := hs.uncollected (hcollector ▸ hslot)
  subscriber {id} _ := by
    unfold subscriber?
    rw [hsubscribers]
  listed {cell id} := hentries cell id
  journal := ⟨events, hjournal, htold, fun cell value hstored => absurd hstored (hunstored cell value)⟩

/-- A change of subscribers that leaves those who are gone as they are. -/
theorem PassedOver.of_subscribers (hs : s.RidOf gone) (hmodel : s'.model = s.model)
    (hjournal : s'.journal = s.journal) (hcollector : s'.collector = s.collector)
    (hsubscriber : ∀ id, gone id = true → s'.subscriber? id = s.subscriber? id) :
    PassedOver gone s s' where
  uncollected hslot := hs.uncollected (hcollector ▸ hslot)
  subscriber {id} := hsubscriber id
  listed {cell id} _ hmem := by
    unfold entries at hmem ⊢
    rw [hmodel] at hmem
    exact hmem
  journal := ⟨[], hjournal, by simp, by simp⟩

/-- A change of a subscriber who is not gone passes over those who are. -/
theorem passedOver_update (hs : s.RidOf gone) (hid : gone id = false) (f : Subscriber ρ → Subscriber ρ) :
    PassedOver gone s (s.updateSubscriber id f) := by
  refine .of_subscribers hs rfl rfl rfl fun other hother => ?_
  rw [subscriber?_updateSubscriber, if_neg]
  rintro rfl
  rw [hid] at hother
  cases hother

/-- The next subscriber is not gone: it is nobody yet. -/
theorem RidOf.next (hs : s.RidOf gone) : gone s.nextSubscriber = false := by
  cases hgone : gone s.nextSubscriber with
  | false => rfl
  | true =>
    obtain ⟨role, hrole⟩ := hs.unheld hgone
    have hnone : s.subscriber? s.nextSubscriber = none := Array.getElem?_eq_none (Nat.le_refl _)
    rw [hnone] at hrole
    cases hrole

/-- A new subscriber leaves those who are gone as they are. -/
theorem RidOf.subscriber?_push (hs : s.RidOf gone) {added : Subscriber ρ}
    (hpush : s'.subscribers = s.subscribers.push added) (hid : gone id = true) :
    s'.subscriber? id = s.subscriber? id := by
  rw [Store.subscriber?_push hpush, if_neg]
  rintro rfl
  rw [hs.next] at hid
  cases hid

/-- Those who are gone are not live. -/
theorem RidOf.not_isLive (hs : s.RidOf gone) (hid : gone id = true) : s.isLive id = false := by
  obtain ⟨role, hrole⟩ := hs.unheld hid
  simp [isLive, hrole, Subscriber.isLive, Subscriber.isAlive]

/-- Subscribing somebody adds no entries of others. -/
theorem mem_entries_subscribeAll {cells : List CellId} {other : SubscriberId}
    (hmodel : s'.model = cells.foldl (fun m cell => m.subscribe cell other) s.model)
    (hne : id ≠ other) (h : id ∈ s'.entries cell) : id ∈ s.entries cell := by
  obtain ⟨count, hcount⟩ := entries_subscribeAll hmodel cell
  rw [hcount] at h
  rcases List.mem_append.1 h with h | h
  · exact h
  · exact absurd (List.mem_replicate.1 h).2 hne

/-- Somebody who is gone is not somebody who is there. -/
theorem ne_of_gone {other : SubscriberId} (hother : gone other = false) (hid : gone id = true) :
    id ≠ other := by
  rintro rfl
  rw [hother] at hid
  cases hid

/-! ### Operations on stores -/

/-- The collector subscribes in the same way without the entries of those who are gone. -/
theorem without_subscribeCollector (hs : s.RidOf gone) (cells : List CellId) :
    (s.without gone).subscribeCollector cells = (s.subscribeCollector cells).without gone := by
  unfold subscribeCollector
  cases hslot : s.collector with
  | none =>
    have hslot' : (s.without gone).collector = none := hslot
    simp only [hslot']
  | some id =>
    have hslot' : (s.without gone).collector = some id := hslot
    simp only [hslot']
    have hmodel := Model.without_foldl_subscribe (hs.uncollected hslot) cells s.model
    exact congrArg (fun model => { s with model }) hmodel.symm

/-- The collector is not gone, so its subscribing passes over those who are. -/
theorem passedOver_subscribeCollector (hs : s.RidOf gone) (cells : List CellId) :
    PassedOver gone s (s.subscribeCollector cells) := by
  unfold subscribeCollector
  split
  · exact .refl hs
  · next other hslot =>
    refine .of_same hs [] rfl (by simp) (by simp) (fun cell id hid hmem => ?_) rfl rfl
    exact mem_entries_subscribeAll rfl (ne_of_gone (hs.uncollected hslot) hid) hmem

/-- A watcher is enrolled in the same way without the entries of those who are gone. -/
theorem without_enroll (hs : s.RidOf gone) (handles : Nat) (watcher : Watcher ρ) (cells : List CellId)
    (event : Event) :
    (s.without gone).enroll handles watcher cells event =
      (s.enroll handles watcher cells event).without gone := by
  have hmodel := Model.without_foldl_subscribe hs.next cells s.model
  exact congrArg (fun model => { s.enroll handles watcher cells event with model }) hmodel.symm

/-- Enrolling a watcher passes over those who are gone. -/
theorem passedOver_enroll (hs : s.RidOf gone) (handles : Nat) (watcher : Watcher ρ) (cells : List CellId)
    {event : Event} (htold : ∀ id ∈ event.subscriber?, gone id = false)
    (hunstored : ∀ cell value, event ≠ .storedCell cell value) :
    PassedOver gone s (s.enroll handles watcher cells event) where
  uncollected hslot := hs.uncollected hslot
  subscriber hid := by
    have hpush : (s.enroll handles watcher cells event).subscribers =
        s.subscribers.push ⟨handles, .watching watcher⟩ := rfl
    exact hs.subscriber?_push hpush hid
  listed hid hmem := mem_entries_subscribeAll rfl (ne_of_gone hs.next hid) hmem
  journal := by
    refine ⟨[event], rfl, ?_, ?_⟩
    · intro other hother
      rw [List.mem_singleton.1 hother]
      exact htold
    · intro cell value hstored
      exact absurd (List.mem_singleton.1 hstored).symm (hunstored cell value)

/-- A list is pruned in the same way without the entries of those who are gone: the two filters commute. -/
theorem without_prune (s : Store ρ σ) (gone : SubscriberId → Bool) (cell : CellId) :
    (s.without gone).prune cell = (s.prune cell).without gone := by
  have hmodel : (s.model.updateSubscribers cell (·.filter s.isLive)).without gone =
      (s.model.without gone).updateSubscribers cell (·.filter s.isLive) := by
    refine Model.without_updateSubscribers (fun ids => ?_) s.model cell
    rw [List.filter_filter, List.filter_filter]
    exact List.filter_congr fun id _ => Bool.and_comm _ _
  exact congrArg (fun model => { s with model }) hmodel.symm

/-- A cycle drops those who are gone before it tells anybody. -/
theorem RidOf.gone_of_prune (hs : s.RidOf gone) (cell : CellId) :
    ∀ id ∈ (s.prune cell).entries cell, gone id = false := by
  intro id hid
  rw [entries_prune, if_pos rfl] at hid
  cases hgone : gone id with
  | false => rfl
  | true =>
    have hlive := (List.mem_filter.1 hid).2
    rw [hs.not_isLive hgone] at hlive
    cases hlive

/-- So the cycle has the same entries to tell, whether those who are gone were in the list or not. -/
theorem RidOf.entries_prune (hs : s.RidOf gone) (cell : CellId) :
    ((s.without gone).prune cell).entries cell = (s.prune cell).entries cell := by
  rw [without_prune]
  have hcell : ((s.prune cell).without gone).entries cell =
      ((s.prune cell).entries cell).filter fun id => !gone id :=
    congrArg Cell.subscribers (Model.cell_without (s.prune cell).model gone cell)
  rw [hcell, List.filter_eq_self]
  intro id hid
  rw [hs.gone_of_prune cell id hid, Bool.not_false]

/-- Pruning adds no entries. -/
theorem mem_entries_of_prune {other : CellId} (h : id ∈ (s.prune cell).entries other) :
    id ∈ s.entries other := by
  rw [Store.entries_prune] at h
  split at h
  · exact (List.mem_filter.1 h).1
  · exact h

/-- Pruning passes over those who are gone: at most it drops them. -/
theorem passedOver_prune (hs : s.RidOf gone) (cell : CellId) : PassedOver gone s (s.prune cell) :=
  .of_same hs [] rfl (by simp) (by simp) (fun _ _ _ hmem => mem_entries_of_prune hmem) rfl rfl

/-- A value is stored in the same way without the entries of those who are gone. -/
theorem without_storeCell (s : Store ρ σ) (gone : SubscriberId → Bool) (cell : CellId) (value : Value) :
    (s.without gone).storeCell cell value = (s.storeCell cell value).without gone :=
  congrArg (fun model => { s.storeCell cell value with model })
    (Model.without_setCellValue s.model gone cell value).symm

/-- From the storing of a value to the start of the cycle, by which those who are gone are dropped. -/
theorem passedOver_cycleStart (hs : s.RidOf gone) (cell : CellId) (value : Value) :
    PassedOver gone s ((s.storeCell cell value).prune cell) where
  uncollected hslot := hs.uncollected hslot
  subscriber _ := rfl
  listed {other id} _ hmem := by
    rw [← entries_storeCell s cell value other]
    exact mem_entries_of_prune hmem
  journal := by
    refine ⟨[.storedCell cell value], rfl, ?_, ?_⟩
    · intro event hevent id hid
      rw [List.mem_singleton.1 hevent] at hid
      cases hid
    · intro other value' hstored
      cases List.mem_singleton.1 hstored
      have hs' : (s.storeCell cell value).RidOf gone := ⟨hs.unheld, hs.uncollected⟩
      exact hs'.gone_of_prune cell

end Store

/-! ## Combinators -/

namespace Run

variable {α β : Type}

/-- From a store where nobody holds those who are gone, a run passes them over, and a blind one comes to
the same as from that store without their entries. -/
def Overlooks (blind : Prop) (gone : SubscriberId → Bool) (run : Run ρ σ α) : Prop :=
  ∀ s, s.RidOf gone →
    (blind →
      run (s.without gone) = (run s).map fun outcome => (outcome.1, outcome.2.without gone)) ∧
    ∀ result s', run s = some (result, s') → s.PassedOver gone s'

section Combinators

variable {blind : Prop} {gone : SubscriberId → Bool}

/-- A run that is done overlooks everybody. -/
theorem overlooks_done (a : α) : Overlooks blind gone (done a : Run ρ σ α) := by
  refine fun s hs => ⟨fun _ => rfl, fun result s' h => ?_⟩
  cases h
  exact .refl hs

/-- A run that does not come back overlooks everybody. -/
theorem overlooks_diverge : Overlooks blind gone (diverge : Run ρ σ α) :=
  fun _ _ => ⟨fun _ => rfl, fun _ _ h => by cases h⟩

/-- Passing on an error overlooks everybody. -/
theorem overlooks_propagate (e : Error) : Overlooks blind gone (propagate e : Run ρ σ α) := by
  refine fun s hs => ⟨fun _ => rfl, fun result s' h => ?_⟩
  cases h
  exact .refl hs

/-- A run that goes on overlooks whom both of its parts overlook. -/
theorem overlooks_bind {run : Run ρ σ α} {next : α → Run ρ σ β} (hrun : Overlooks blind gone run)
    (hnext : ∀ a, Overlooks blind gone (next a)) : Overlooks blind gone (run >>= next) := by
  intro s hs
  obtain ⟨hsame, hpassed⟩ := hrun s hs
  cases hfirst : run s with
  | none =>
    refine ⟨fun hblind => ?_, fun result s' h => ?_⟩
    · rw [bind_apply, bind_apply, hsame hblind, hfirst]
      rfl
    · rw [bind_apply, hfirst] at h
      cases h
  | some outcome =>
    obtain ⟨e | a, s₁⟩ := outcome
    · refine ⟨fun hblind => ?_, fun result s' h => ?_⟩
      · rw [bind_apply, bind_apply, hsame hblind, hfirst]
        rfl
      · rw [bind_apply, hfirst] at h
        cases h
        exact hpassed _ _ hfirst
    · have hpassed₁ := hpassed _ _ hfirst
      obtain ⟨hsame', hpassed'⟩ := hnext a s₁ (hs.passedOver hpassed₁)
      refine ⟨fun hblind => ?_, fun result s' h => ?_⟩
      · rw [bind_apply, bind_apply, hsame hblind, hfirst]
        exact hsame' hblind
      · rw [bind_apply, hfirst] at h
        exact hpassed₁.trans (hpassed' result s' h)

/-- A look at something that those who are gone make no difference to. -/
theorem overlooks_look_bind {f : Store ρ σ → α} {next : α → Run ρ σ β}
    (hf : ∀ s, f (s.without gone) = f s) (hnext : ∀ a, Overlooks blind gone (next a)) :
    Overlooks blind gone (look f >>= next) := by
  intro s hs
  rw [look_bind, look_bind, hf]
  exact hnext (f s) s hs

/-- A change overlooks those who are gone if it does the same without them and passes them over. -/
theorem overlooks_changeGet {f : Store ρ σ → α × Store ρ σ}
    (hf : ∀ s : Store ρ σ, s.RidOf gone → f (s.without gone) = ((f s).1, (f s).2.without gone))
    (hpassed : ∀ s : Store ρ σ, s.RidOf gone → s.PassedOver gone (f s).2) : Overlooks blind gone (changeGet f) := by
  refine fun s hs => ⟨fun _ => ?_, fun result s' h => ?_⟩
  · unfold changeGet
    rw [hf s hs]
    rfl
  · cases h
    exact hpassed s hs

/-- The same for a change that comes back with nothing. -/
theorem overlooks_change {f : Store ρ σ → Store ρ σ}
    (hf : ∀ s : Store ρ σ, s.RidOf gone → f (s.without gone) = (f s).without gone)
    (hpassed : ∀ s : Store ρ σ, s.RidOf gone → s.PassedOver gone (f s)) : Overlooks blind gone (change f) := by
  refine fun s hs => ⟨fun _ => ?_, fun result s' h => ?_⟩
  · unfold change
    rw [hf s hs]
    rfl
  · cases h
    exact hpassed s hs

/-- A change of what has nothing to do with subscribers, entries and the slot. -/
theorem overlooks_changeAside {f : Store ρ σ → Store ρ σ}
    (hf : ∀ s, f (s.without gone) = (f s).without gone)
    (hsame : ∀ s, (f s).subscribers = s.subscribers ∧ (f s).collector = s.collector ∧
      ∀ cell, (f s).entries cell = s.entries cell)
    (hjournal : ∀ s, ∃ events, (f s).journal = events ++ s.journal ∧
      (∀ event ∈ events, ∀ id ∈ event.subscriber?, gone id = false) ∧
      ∀ cell value, Event.storedCell cell value ∉ events) : Overlooks blind gone (change f) := by
  refine overlooks_change (fun s _ => hf s) fun s hs => ?_
  obtain ⟨hsubscribers, hcollector, hentries⟩ := hsame s
  obtain ⟨events, hevents, htold, hunstored⟩ := hjournal s
  refine .of_same hs events hevents htold hunstored (fun cell id _ hmem => ?_) hsubscribers hcollector
  rw [← hentries cell]
  exact hmem

/-- Writing down an event overlooks those who are gone, if it is not about one of them and stores nothing. -/
theorem overlooks_record {event : Event} (htold : ∀ id ∈ event.subscriber?, gone id = false)
    (hunstored : ∀ cell value, event ≠ .storedCell cell value) :
    Overlooks blind gone (change (·.record event) : Run ρ σ Unit) := by
  refine overlooks_changeAside (fun _ => rfl) (fun _ => ⟨rfl, rfl, fun _ => rfl⟩)
    fun s => ⟨[event], rfl, ?_, ?_⟩
  · intro other hother
    rw [List.mem_singleton.1 hother]
    exact htold
  · exact fun cell value hmem => hunstored cell value (List.mem_singleton.1 hmem).symm

/-- The view changes, and nothing is said of it. -/
theorem overlooks_withView (f : View ρ → View ρ) :
    Overlooks blind gone (change (·.withView f) : Run ρ σ Unit) :=
  overlooks_changeAside (fun _ => rfl) (fun _ => ⟨rfl, rfl, fun _ => rfl⟩)
    fun _ => ⟨[], rfl, by simp, by simp⟩

/-- The view changes, and something is said of it that concerns no subscriber. -/
theorem overlooks_shown (f : View ρ → View ρ) {event : Event} (htold : event.subscriber? = none)
    (hunstored : ∀ cell value, event ≠ .storedCell cell value) :
    Overlooks blind gone (change fun s => (s.withView f).record event : Run ρ σ Unit) := by
  refine overlooks_changeAside (fun _ => rfl) (fun _ => ⟨rfl, rfl, fun _ => rfl⟩)
    fun s => ⟨[event], rfl, ?_, ?_⟩
  · intro other hother id hid
    rw [List.mem_singleton.1 hother, htold] at hid
    cases hid
  · exact fun cell value hmem => hunstored cell value (List.mem_singleton.1 hmem).symm

/-- Raising an error overlooks everybody. -/
theorem overlooks_raise (e : Error) : Overlooks blind gone (raise e : Run ρ σ α) := by
  have hrecord : Overlooks blind gone (change (·.record (.raised e)) : Run ρ σ Unit) :=
    overlooks_record (fun _ hid => by cases hid) fun _ _ h => by cases h
  exact overlooks_bind hrecord fun _ => overlooks_propagate e

/-- Going on with a result or raising its error overlooks everybody. -/
theorem overlooks_orRaise (outcome : Except Error α) : Overlooks blind gone (orRaise outcome : Run ρ σ α) := by
  cases outcome with
  | ok a => exact overlooks_done a
  | error e => exact overlooks_raise e

/-- Demanding a value overlooks everybody. -/
theorem overlooks_demand (value : Option α) : Overlooks blind gone (demand value : Run ρ σ α) := by
  cases value with
  | some a => exact overlooks_done a
  | none => exact overlooks_diverge

/-- An attempt overlooks whom the run overlooks. -/
theorem overlooks_attempt {run : Run ρ σ α} (hrun : Overlooks blind gone run) :
    Overlooks blind gone (attempt run) := by
  intro s hs
  obtain ⟨hsame, hpassed⟩ := hrun s hs
  unfold attempt
  refine ⟨fun hblind => ?_, fun result s' h => ?_⟩
  · rw [hsame hblind]
    cases run s <;> rfl
  · obtain ⟨⟨outcome, s₁⟩, hrun', heq⟩ := Option.map_eq_some_iff.1 h
    obtain ⟨-, rfl⟩ := Prod.mk.inj heq
    exact hpassed _ _ hrun'

/-- Noting a failed write overlooks everybody. -/
theorem overlooks_failed (e : Error) :
    Overlooks blind gone (change (·.record (.writeFailed e)) : Run ρ σ Unit) :=
  overlooks_record (fun _ hid => by cases hid) fun _ _ h => by cases h

/-- A write overlooks whom the run overlooks, whether or not it fails. -/
theorem overlooks_writing {run : Run ρ σ α} (hrun : Overlooks blind gone run) :
    Overlooks blind gone (writing run) := by
  intro s hs
  obtain ⟨hsame, hpassed⟩ := hrun s hs
  refine ⟨fun hblind => ?_, fun result s' h => ?_⟩
  · unfold writing
    rw [hsame hblind]
    cases run s with
    | none => rfl
    | some outcome =>
      obtain ⟨e | a, s₁⟩ := outcome
      · rfl
      · rfl
  · unfold writing at h
    split at h
    · next e s₁ hfirst =>
      cases h
      have hpassed₁ := hpassed _ _ hfirst
      have hfailed : Overlooks blind gone (change (·.record (.writeFailed e)) : Run ρ σ Unit) :=
        overlooks_failed e
      exact hpassed₁.trans ((hfailed s₁ (hs.passedOver hpassed₁)).2 _ _ rfl)
    · exact hpassed _ _ h

/-- A loop overlooks whom it overlooks for each item. -/
theorem overlooks_each {f : α → Run ρ σ Unit} (items : List α)
    (hf : ∀ item ∈ items, Overlooks blind gone (f item)) : Overlooks blind gone (each items f) := by
  induction items with
  | nil => exact overlooks_done ()
  | cons item rest ih =>
    obtain ⟨hfirst, hrest⟩ := List.forall_mem_cons.1 hf
    exact overlooks_bind hfirst fun _ => ih hrest

/-- A change of somebody who is not gone overlooks those who are. -/
theorem overlooks_updateSubscriber {id : SubscriberId} (hid : gone id = false)
    (f : Subscriber ρ → Subscriber ρ) :
    Overlooks blind gone (change (·.updateSubscriber id f) : Run ρ σ Unit) :=
  overlooks_change (fun _ _ => rfl) fun _ hs => Store.passedOver_update hs hid f

/-- Holding somebody who is not gone during a run overlooks whom the run overlooks. -/
theorem overlooks_holding {id : SubscriberId} (hid : gone id = false) {run : Run ρ σ α}
    (hrun : Overlooks blind gone run) : Overlooks blind gone (holding id run) := by
  intro s hs
  have hretained : s.PassedOver gone (s.retain id) := Store.passedOver_update hs hid _
  obtain ⟨hsame, hpassed⟩ := hrun (s.retain id) (hs.passedOver hretained)
  unfold holding
  refine ⟨fun hblind => ?_, fun result s' h => ?_⟩
  · have hsame : run ((s.without gone).retain id) = _ := hsame hblind
    rw [hsame]
    cases run (s.retain id) <;> rfl
  · obtain ⟨⟨outcome, s₁⟩, hrun', heq⟩ := Option.map_eq_some_iff.1 h
    obtain ⟨-, rfl⟩ := Prod.mk.inj heq
    have hpassed₁ := hretained.trans (hpassed _ _ hrun')
    exact hpassed₁.trans (Store.passedOver_update (hs.passedOver hpassed₁) hid _)

end Combinators

end Run

end DataBinding
