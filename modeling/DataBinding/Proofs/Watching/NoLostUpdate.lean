import DataBinding.Proofs.Runs.Writes
import DataBinding.Proofs.Watching.Kept

/-!
# No update is lost

A watcher is current if none of the cells that it was subscribed to when it was made has been written
since it last looked at its path. While a notify cycle goes on many watchers are not current: those whose
turn has not come yet, those whose turn is over and whose cell was written again by a reaction, and those
in the lists of cycles that were overtaken by a nested one.

The argument does not follow the cycles. Every run, whatever reactions it sets off, `Advance`s the store:
a watcher that was current before it and is active after it is current after it. A write of a cell makes
some watchers outdated at one point only, when the value is stored; each of them that is active at the
end of the cycle was active when its turn came, looked at its path then, and was advanced from there on.
So at the end of any run from a fresh store, all active watchers are current, provided that no cycle was
broken off, and a current watcher knows the value at its path.
-/

set_option autoImplicit false

namespace DataBinding

namespace Event

/-- The making of a watcher subscribes it to the cells that its first reading went through. -/
def Subscribes (id : SubscriberId) (p : Property) : Event → Prop
  | .made watcher cells _ => watcher = id ∧ ∃ cell ∈ cells, p = .cell cell
  | _ => False

instance (id : SubscriberId) (p : Property) : DecidablePred (Subscribes id p)
  | .made watcher cells _ =>
    inferInstanceAs (Decidable (watcher = id ∧ ∃ cell ∈ cells, p = .cell cell))
  | .storedCell _ _ | .storedPlain _ _ _ | .writeFailed _ | .updating _ | .resolved _ _
  | .delivered _ _ | .dispatched _ _ _ | .wroteText _ | .wroteValue _ | .raised _ =>
    inferInstanceAs (Decidable False)

/-- The making that subscribes a watcher is also its first look. -/
theorem isLookOf_of_subscribes {id : SubscriberId} {p : Property} {event : Event}
    (h : event.Subscribes id p) : event.isLookOf id = true := by
  cases event with
  | made watcher cells value => simpa [isLookOf] using h.1
  | _ => cases h

/-- A note of the journal subscribes nobody. -/
theorem not_subscribes_of_isNote {event : Event} (h : event.isNote = true) (id : SubscriberId)
    (p : Property) : ¬ event.Subscribes id p := by
  cases event with
  | made => cases h
  | _ => exact False.elim

/-- Whether an event is that a write came back with an error. -/
def isFailedWrite : Event → Bool
  | .writeFailed _ => true
  | _ => false

end Event

namespace Store

variable {ρ σ : Type} {s s' s'' : Store ρ σ} {id : SubscriberId} {w : Watcher ρ}

/-- A property is a cell that a watcher was subscribed to when it was made. -/
def SubscribedTo (s : Store ρ σ) (id : SubscriberId) (p : Property) : Prop :=
  ∃ event ∈ s.journal, event.Subscribes id p

instance : DecidablePred (s.SubscribedTo id) := fun p =>
  inferInstanceAs (Decidable (∃ event ∈ s.journal, event.Subscribes id p))

/-- Nothing that a watcher was subscribed to when it was made was written since it last looked. -/
def Current (s : Store ρ σ) (id : SubscriberId) : Prop :=
  ∀ p, s.SubscribedTo id p → ¬ s.WrittenSinceLook id p

/-- No write has come back with an error. -/
def Unfailing (s : Store ρ σ) : Prop := ∀ event ∈ s.journal, event.isFailedWrite = false

instance : Decidable s.Unfailing :=
  inferInstanceAs (Decidable (∀ event ∈ s.journal, event.isFailedWrite = false))

/-- A current watcher that refreshes its baseline knows the value at its path, if what its path leads
through without a subscription was not written since it last looked. -/
theorem Accounted.baseline_agrees (h : s.Accounted) (hw : s.Active id w)
    (hrefresh : w.policy = .refresh) (hcurrent : s.Current id)
    (hpath : ∀ p ∈ s.model.trail w.path.segments w.root,
      s.SubscribedTo id p ∨ ¬ s.WrittenSinceLook id p) :
    ∃ value, s.model.peek w.path w.root = .ok value ∧ w.baseline.Agrees value := by
  obtain ⟨m, value, hm, hfound, hagrees, honward⟩ := h.looked hw
  have hstill : ∀ p ∈ s.model.trail w.path.segments w.root, ¬ s.WrittenSinceLook id p := by
    intro p hp
    rcases hpath p hp with hsubscribed | hunwritten
    · exact hcurrent p hsubscribed
    · exact hunwritten
  exact ⟨value, Model.peek_eq_of_onward honward hm hfound hstill, hagrees hrefresh⟩

/-! ## Staying current -/

/-- A watcher subscribed to a cell was made, and its first reading went through that cell. -/
theorem SubscribedTo.cell {cell : CellId} (h : s.SubscribedTo id (.cell cell)) :
    ∃ cells value, .made id cells value ∈ s.journal ∧ cell ∈ cells := by
  obtain ⟨event, hevent, hsubscribes⟩ := h
  cases event with
  | made watcher cells value =>
    obtain ⟨rfl, read, hread, heq⟩ := hsubscribes
    obtain rfl : cell = read := Property.cell.inj heq
    exact ⟨cells, value, hevent, hread⟩
  | _ => cases hsubscribes

/-- Nobody is subscribed to a property that has no cell. -/
theorem not_subscribedTo_field (object : ObjectId) (key : String) :
    ¬ s.SubscribedTo id (.field object key) := by
  rintro ⟨event, -, hsubscribes⟩
  cases event with
  | made watcher cells value =>
    obtain ⟨-, cell, -, heq⟩ := hsubscribes
    cases heq
  | _ => cases hsubscribes

/-- Somebody who was not made yet is current. -/
theorem current_of_unknown (h : s.Accounted) (hunknown : s.subscribers.size ≤ id.index) :
    s.Current id := by
  rintro p ⟨event, hevent, hsubscribes⟩
  have hlook := Event.isLookOf_of_subscribes hsubscribes
  exact absurd (h.known event hevent id hlook) (Nat.not_lt_of_le hunknown)

/-- What happened since the last look is new or was so before. -/
theorem mem_sinceLook_of_append {events : List Event} (hjournal : s'.journal = events ++ s.journal)
    {event : Event} (h : event ∈ s'.sinceLook id) : event ∈ events ∨ event ∈ s.sinceLook id := by
  unfold sinceLook at h ⊢
  rw [hjournal, List.takeWhile_append] at h
  split at h
  · exact List.mem_append.1 h
  · exact .inl (List.takeWhile_subset _ h)

/-- New events leave a watcher current if they do not make it and write none of its cells. -/
theorem Current.of_events (h : s.Current id) (events : List Event)
    (hjournal : s'.journal = events ++ s.journal)
    (hmade : ∀ event ∈ events, ∀ p, ¬ event.Subscribes id p)
    (hstored : ∀ event ∈ events, ∀ p, s.SubscribedTo id p → ¬ event.Writes p) :
    s'.Current id := by
  rintro p ⟨event, hevent, hsubscribes⟩ ⟨written, hsince, hwrites⟩
  rw [hjournal, List.mem_append] at hevent
  rcases hevent with hnew | hold
  · exact hmade event hnew p hsubscribes
  have hsubscribed : s.SubscribedTo id p := ⟨event, hold, hsubscribes⟩
  rcases mem_sinceLook_of_append hjournal hsince with hnew | hsince
  · exact hstored written hnew p hsubscribed hwrites
  · exact h p hsubscribed ⟨written, hsince, hwrites⟩

/-- Whoever has just looked is current. -/
theorem current_of_look {event : Event} {events : List Event}
    (hjournal : s.journal = event :: events) (hlook : event.isLookOf id = true) : s.Current id := by
  rintro p - ⟨event, hsince, -⟩
  rw [sinceLook_of_look hjournal hlook] at hsince
  cases hsince

/-- A step stores no cell, so it makes nobody outdated. -/
theorem current_of_step (hstep : Step s s') (h : s.Current id) : s'.Current id := by
  cases hstep with
  | made root path policy reaction cells value hfound =>
    by_cases hnew : s.nextSubscriber = id
    · exact current_of_look rfl (by simp [Event.isLookOf, hnew])
    · exact h.of_events [.made s.nextSubscriber cells value] rfl (by simp [Event.Subscribes, hnew])
        (by simp [Event.Writes])
  | noted event hnote =>
    refine h.of_events [event] rfl ?_ ?_
    · intro e he
      rw [List.mem_singleton.1 he]
      exact Event.not_subscribes_of_isNote hnote id
    · intro e he p _
      rw [List.mem_singleton.1 he]
      exact Event.not_writes_of_isNote hnote p
  | agreed watcher _ value =>
    exact h.of_events [.resolved watcher value] rfl (by simp [Event.Subscribes])
      (by simp [Event.Writes])
  | delivered watcher _ value =>
    exact h.of_events [.delivered watcher value, .resolved watcher value] rfl
      (by simp [Event.Subscribes]) (by simp [Event.Writes])
  | abandoned _ _ _ _ _ e =>
    exact h.of_events [.raised e] rfl (by simp [Event.Subscribes]) (by simp [Event.Writes])
  -- Nobody is subscribed to a property without a cell, so storing it makes nobody outdated.
  | storedPlain object key value =>
    refine h.of_events [.storedPlain object key value] rfl (by simp [Event.Subscribes]) ?_
    intro event hevent p hsubscribed hwrites
    obtain rfl := List.mem_singleton.1 hevent
    obtain rfl : p = .field object key := hwrites
    exact not_subscribedTo_field object key hsubscribed
  | textWritten node =>
    exact h.of_events [.wroteText node] rfl (by simp [Event.Subscribes]) (by simp [Event.Writes])
  | valueWritten node =>
    exact h.of_events [.wroteValue node] rfl (by simp [Event.Subscribes]) (by simp [Event.Writes])
  | tracked cells =>
    refine h.of_events [] ?_ (by simp) (by simp)
    unfold subscribeCollector
    split <;> rfl
  | _ => exact h.of_events [] rfl (by simp) (by simp)

/-! ## Where a run gets to -/

/-- What is so of every run, wherever it breaks off. -/
structure Passage (s s' : Store ρ σ) : Prop where
  journal : s.journal <:+ s'.journal
  size_le : s.subscribers.size ≤ s'.subscribers.size
  accounted : s.Accounted → s'.Accounted
  active : ∀ {id w}, s'.Active id w → id.index < s.subscribers.size → ∃ v, s.Active id v

/-- What a run leads to: if no write has failed by the end, whoever was current is current if it is
active. -/
structure Advance (s s' : Store ρ σ) : Prop extends Passage s s' where
  current : s.Accounted → s'.Unfailing → ∀ {id w}, s'.Active id w → s.Current id → s'.Current id

/-- If no write has failed by the end, none had failed on the way. -/
theorem Unfailing.of_suffix (h : s'.Unfailing) (hjournal : s.journal <:+ s'.journal) :
    s.Unfailing :=
  fun event hevent => h event (hjournal.subset hevent)

/-- An active watcher of the later store was active in the earlier one, or it is new and has nothing to
be outdated by. -/
theorem Passage.active_or_current (h : Passage s s') (haccounted : s.Accounted)
    (hw : s'.Active id w) : (∃ v, s.Active id v) ∨ s.Current id := by
  by_cases hlt : id.index < s.subscribers.size
  · exact .inl (h.active hw hlt)
  · exact .inr (current_of_unknown haccounted (Nat.le_of_not_lt hlt))

/-- Every chain of steps is a passage. -/
theorem passage : Discipline (Passage : Store ρ σ → Store ρ σ → Prop) where
  refl s := ⟨List.suffix_refl _, Nat.le_refl _, id, fun hw _ => ⟨_, hw⟩⟩
  trans h₁ h₂ := {
    journal := h₁.journal.trans h₂.journal
    size_le := Nat.le_trans h₁.size_le h₂.size_le
    accounted := fun h => h₂.accounted (h₁.accounted h)
    active := fun hw hlt => by
      obtain ⟨v, hv⟩ := h₂.active hw (Nat.lt_of_lt_of_le hlt h₁.size_le)
      exact h₁.active hv hlt }
  step hstep := {
    journal := (kept_step hstep).suffix
    size_le := size_le_of_step hstep
    accounted := .step hstep
    active := fun hw hlt => (active_of_step hstep hw hlt).imp fun _ hv => hv.1 }

/-- A store into a cell is a passage. -/
theorem passage_storeCell (s : Store ρ σ) (cell : CellId) (value : Value) :
    Passage s (s.storeCell cell value) where
  journal := List.suffix_cons _ _
  size_le := Nat.le_refl _
  accounted h := h.storeCell cell value
  active hw _ := ⟨_, hw⟩

/-- Every chain of steps is an advance. -/
theorem advance : Discipline (Advance : Store ρ σ → Store ρ σ → Prop) where
  refl s := { toPassage := passage.refl s, current := fun _ _ _ _ _ h => h }
  trans {s₁ s₂ s₃} h₁ h₂ := {
    toPassage := passage.trans h₁.toPassage h₂.toPassage
    current := fun haccounted hunfailing id w hw hcurrent => by
      have haccounted₂ := h₁.accounted haccounted
      refine h₂.current haccounted₂ hunfailing hw ?_
      rcases h₂.active_or_current haccounted₂ hw with ⟨v, hv⟩ | hcurrent₂
      · exact h₁.current haccounted (hunfailing.of_suffix h₂.journal) hv hcurrent
      · exact hcurrent₂ }
  step hstep := {
    toPassage := passage.step hstep
    current := fun _ _ _ _ _ hcurrent => current_of_step hstep hcurrent }

/-! ## A notify cycle -/

open Run (Keeps update visit each)

variable {respond : Respond ρ σ}

/-- An active watcher that is told of a change is current afterwards: it looked at its path, and whatever
its reaction did advanced the store. -/
theorem current_of_update (hrespond : Respond.Keeps Advance respond) {v : Watcher ρ}
    (haccounted : s.Accounted) (hv : s.Active id v)
    (hrun : update respond id s = some (.ok (), s')) (hunfailing : s'.Unfailing)
    (hw : s'.Active id w) : s'.Current id := by
  obtain ⟨handles, hentry, hactive⟩ := hv
  have hwatcher : s.watcher? id = some v := by
    unfold watcher? subscriber?
    rw [hentry]
  let s₁ := s.record (.updating id)
  have haccounted₁ : s₁.Accounted := .step (.noted s _ rfl) haccounted
  have hwatcher₁ : s₁.watcher? id = some v := hwatcher
  have hsubscriber : s₁.subscriber? id = some ⟨handles + 1, .watching v⟩ := hentry
  unfold update at hrun
  rw [Run.change_bind, Run.look_bind] at hrun
  simp only [show (s.record (.updating id)).subscriber? id = some ⟨handles + 1, .watching v⟩ from
    hentry, Run.updateWatcher, hactive, Bool.false_eq_true, if_false] at hrun
  rw [Run.peek_bind] at hrun
  cases hfound : s₁.model.peek v.path v.root with
  | error e =>
    rw [hfound, Run.orRaise_error_bind] at hrun
    cases hrun
  | ok value =>
    rw [hfound, Run.orRaise_ok_bind, Run.change_bind] at hrun
    split at hrun
    · cases hrun
      exact current_of_look rfl (by simp [Event.isLookOf])
    · let s₂ := ((s₁.record (.resolved id value)).updateWatcher id (·.receive value)).record
        (.delivered id value)
      have haccounted₂ : s₂.Accounted := haccounted₁.deliver hwatcher₁ hfound
      have hlooked : (s₁.record (.resolved id value)).Current id :=
        current_of_look rfl (by simp [Event.isLookOf])
      have hcurrent₂ : s₂.Current id :=
        hlooked.of_events [.delivered id value] rfl (by simp [Event.Subscribes])
          (by simp [Event.Writes])
      -- The watcher is current when its reaction starts, and the reaction advances the store from there.
      have hadvance : Advance s₂ s' :=
        Run.keeps_react advance hrespond v.reaction value _ _ hrun
      exact hadvance.current haccounted₂ hunfailing hw hcurrent₂

/-- The same for an entry of a list whose turn has come. -/
theorem current_of_visit (hrespond : Respond.Keeps Advance respond) {v : Watcher ρ}
    (haccounted : s.Accounted) (hv : s.Active id v)
    (hrun : visit (update respond) id s = some (.ok (), s')) (hunfailing : s'.Unfailing)
    (hw : s'.Active id w) : s'.Current id := by
  obtain ⟨s₁, hupdate, rfl⟩ := Run.told_of_visit (active_iff.1 hv).2 hrun
  have haccounted' : (s.retain id).Accounted := .step (.retained s id) haccounted
  have hcurrent :=
    current_of_update hrespond haccounted' (hv.retain id) hupdate hunfailing hw.of_release
  exact current_of_step (.released s₁ id) hcurrent

/-- Whoever is in the list that a cycle goes through, or was current before it, is current after it. -/
theorem current_of_each (hrespond : Respond.Keeps Advance respond) (entries : List SubscriberId)
    (haccounted : s.Accounted) (hrun : each entries (visit (update respond)) s = some (.ok (), s'))
    (hunfailing : s'.Unfailing) (hw : s'.Active id w) (h : id ∈ entries ∨ s.Current id) :
    s'.Current id := by
  induction entries generalizing s with
  | nil =>
    cases hrun
    exact h.resolve_left List.not_mem_nil
  | cons first rest ih =>
    obtain ⟨⟨⟩, s₁, hfirst, hrest⟩ := Run.bind_eq_ok.1 hrun
    have hupdate : ∀ id s, Keeps Advance s (update respond id) :=
      fun id _ => Run.keeps_update advance hrespond id
    have hadvance : Advance s s₁ := Run.keeps_visit advance hupdate first _ _ hfirst
    have hadvance' : Advance s₁ s' :=
      Run.keeps_each advance rest (fun id _ _ => Run.keeps_visit advance hupdate id) _ _ hrest
    have hunfailing₁ := hunfailing.of_suffix hadvance'.journal
    have haccounted₁ := hadvance.accounted haccounted
    refine ih haccounted₁ hrest ?_
    rcases hadvance'.active_or_current haccounted₁ hw with ⟨v₁, hv₁⟩ | hcurrent
    · rcases h with hmem | hcurrent
      · rcases List.mem_cons.1 hmem with rfl | hmem
        · refine .inr ?_
          rcases hadvance.active_or_current haccounted hv₁ with ⟨v, hv⟩ | hcurrent
          · exact current_of_visit hrespond haccounted hv hfirst hunfailing₁ hv₁
          · exact hadvance.current haccounted hunfailing₁ hv₁ hcurrent
        · exact .inl hmem
      · exact .inr (hadvance.current haccounted hunfailing₁ hv₁ hcurrent)
    · exact .inr hcurrent

/-- The same for the cycle after a value has been stored: it tells everybody whom the new value makes
outdated. -/
theorem current_of_notify (hrespond : Respond.Keeps Advance respond) {cell : CellId} {value : Value}
    (haccounted : s.Accounted)
    (hrun : Run.notify (update respond) cell (s.storeCell cell value) = some (.ok (), s'))
    (hunfailing : s'.Unfailing) (hw : s'.Active id w) (hcurrent : s.Current id) : s'.Current id := by
  let s₁ := s.storeCell cell value
  let s₂ := s₁.withModel (·.updateSubscribers cell (·.filter s₁.isLive))
  have haccounted₁ : s₁.Accounted := haccounted.storeCell cell value
  have haccounted₂ : s₂.Accounted := .step (.pruned s₁ cell) haccounted₁
  unfold Run.notify at hrun
  rw [Run.change_bind, Run.look_bind] at hrun
  have hrun : each (s₂.model.cell cell).subscribers (visit (update respond)) s₂ =
      some (.ok (), s') := hrun
  refine current_of_each hrespond _ haccounted₂ hrun hunfailing hw ?_
  have hupdate : ∀ id s, Keeps Advance s (update respond id) :=
    fun id _ => Run.keeps_update advance hrespond id
  have hadvance : Advance s₂ s' :=
    Run.keeps_each advance _ (fun id _ _ => Run.keeps_visit advance hupdate id) _ _ hrun
  rcases hadvance.active_or_current haccounted₂ hw with ⟨v, hv⟩ | hcurrent₂
  · by_cases hsubscribed : s.SubscribedTo id (.cell cell)
    · obtain ⟨cells, first, hmade, hread⟩ := hsubscribed.cell
      exact .inl (haccounted₂.subscribed hv (List.mem_cons_of_mem _ hmade) cell hread)
    · refine .inr (hcurrent.of_events [.storedCell cell value] rfl (by simp [Event.Subscribes]) ?_)
      intro event hevent p hp hwrites
      obtain rfl := List.mem_singleton.1 hevent
      obtain rfl : p = .cell cell := hwrites
      exact hsubscribed hp
  · exact .inr hcurrent₂

/-- The write of a cell advances the store, however its cycle nests with others. -/
theorem advance_setCell (hrespond : Respond.Keeps Advance respond) (s : Store ρ σ) (cell : CellId)
    (value : Value) : Keeps Advance s (Run.setCell (update respond) cell value) := by
  intro result s' hrun
  have hpassage : Passage s s' := by
    have hupdate : ∀ id s, Keeps Passage s (update respond id) :=
      fun id _ => Run.keeps_update passage (fun reaction stimulus s result s' hrun =>
        (hrespond reaction stimulus s result s' hrun).toPassage) id
    exact Run.keeps_setCell passage hupdate (passage_storeCell s cell value) _ _ hrun
  refine { toPassage := hpassage, current := fun haccounted hunfailing id w hw hcurrent => ?_ }
  obtain ⟨-, -, rfl⟩ | ⟨outcome, s₁, heach, ⟨rfl, -, rfl⟩ | ⟨e, -, rfl⟩⟩ := setCell_cases hrun
  · exact hcurrent
  · have hnotify := (Run.notify_storeCell (update respond) cell value s).trans heach
    exact current_of_notify hrespond haccounted hnotify hunfailing hw hcurrent
  · cases hunfailing (.writeFailed e) List.mem_cons_self

/-- A change by hand that leaves the journal alone and makes no watcher active advances the store, as
long as it leaves the account true. -/
theorem advance_of_hand (hjournal : s'.journal = s.journal)
    (hsize : s'.subscribers.size = s.subscribers.size) (haccounted : s.Accounted → s'.Accounted)
    (hactive : ∀ {id w}, s'.Active id w → s.Active id w) : Advance s s' where
  journal := hjournal ▸ List.suffix_refl _
  size_le := Nat.le_of_eq hsize.symm
  accounted := haccounted
  active hw _ := ⟨_, hactive hw⟩
  current _ _ _ _ _ hcurrent := hcurrent.of_events [] hjournal (by simp) (by simp)

/-- Everything that a host does is an advance, its writes with their cycles included. -/
theorem advance_write : HostDiscipline (Advance : Store ρ σ → Store ρ σ → Prop) where
  toDiscipline := advance
  write := advance_setCell
  subscribed s cell id := advance_of_hand rfl rfl (fun h => h.subscribeAll [cell] id) fun hw => hw
  collected s slot := advance_of_hand rfl rfl (fun h => h.of_same [] rfl (by simp) rfl rfl) fun hw => hw
  activated s id active := by
    have hsize : (s.setActive id active).subscribers.size = s.subscribers.size := by
      simp [setActive, updateSubscriber]
    have hactive : ∀ {other w}, (s.setActive id active).Active other w → s.Active other w :=
      fun hw => hw.of_setActive
    exact advance_of_hand rfl hsize
      (fun h => h.of_subscribers rfl rfl (Nat.le_of_eq hsize.symm) fun _ _ => hactive) hactive

/-! ## Runs from a fresh store -/

/-- A store in which a document was observed and nobody watches yet. -/
def observing (json : Json) (view : View ρ) (host : σ) : Store ρ σ :=
  { model := (Model.observe json {}).2, view, host }

/-- The books of a document that has just been observed are in order. -/
theorem accounted_observing (json : Json) (view : View ρ) (host : σ) :
    (observing json view host).Accounted where
  sound := Model.observe_sound json fun object key cell hslot => by cases hslot
  known event hevent := absurd hevent List.not_mem_nil
  subscribed := by
    rintro id w cells value ⟨handles, hentry, -⟩
    cases hentry
  looked := by
    rintro id w ⟨handles, hentry, -⟩
    cases hentry

end Store

/-- The ways to write a value. -/
inductive Write where
  | cell (id : CellId) (value : Value)
  | key (object : ObjectId) (name : String) (value : Value)
  | path (path : Path) (root value : Value)
  /-- Through a view model, which takes its path as text. -/
  | viewModel (vm : ViewModel) (path : String) (value : Value)

namespace Write

variable {ρ σ : Type}

/-- The script of a write. It comes back with whether the value changed. -/
def script : Write → Script ρ σ Bool
  | .cell id value => .perform (.setCell id value)
  | .key object name value => .perform (.setKey object name value)
  | .path target root value => .perform (.assign target root value)
  | .viewModel vm text value => do return (← vm.set text value).1

end Write

variable {ρ σ α : Type}

/-- When a write comes back after a run of any script with any host, in which no write has failed, every
active watcher that refreshes its baseline knows the value at its path, if each property that the path
leads through now was subscribed to when the watcher was made or was not written since it last looked. -/
theorem no_update_lost (host : Host ρ σ) (depth : Nat) (json : Json) (view : View ρ) (state : σ)
    (earlier : Script ρ σ α) (write : Write) {changed : Bool} {s : Store ρ σ}
    (hrun : (earlier.chain fun _ => write.script).run host depth
      (Store.observing json view state) = some (.ok changed, s))
    (hunfailing : s.Unfailing) {id : SubscriberId} {w : Watcher ρ}
    (hwatcher : s.watcher? id = some w) (hlive : s.isLive id = true) (hrefresh : w.policy = .refresh)
    (hpath : ∀ p ∈ s.model.trail w.path.segments w.root,
      s.SubscribedTo id p ∨ ¬ s.WrittenSinceLook id p) :
    ∃ value, s.model.peek w.path w.root = .ok value ∧ w.baseline.Agrees value := by
  have hfresh := Store.accounted_observing (ρ := ρ) json view state
  have hadvance : Store.Advance (Store.observing json view state) s :=
    Script.keeps_run Store.advance_write host depth _ _ _ _ hrun
  have hactive : s.Active id w := Store.active_iff.2 ⟨hwatcher, hlive⟩
  have hcurrent : s.Current id := by
    refine hadvance.current hfresh hunfailing hactive ?_
    exact Store.current_of_unknown hfresh (Nat.zero_le _)
  exact (hadvance.accounted hfresh).baseline_agrees hactive hrefresh hcurrent hpath

/-- A host that replaces a draft by the final text as soon as it is told of the draft. -/
def finalizing : Host Unit Unit where
  script _ stimulus :=
    match stimulus with
    | .delivered (.string "draft") => do
      let _ ← Script.perform (.assign ⟨[], "text"⟩ (.object ⟨0⟩) (.string "final"))
    | _ => pure ()

/-- Two watchers of one text are made. -/
def watchTwice : Script Unit Unit SubscriberId := do
  let _ ← Script.perform (.watch (.object ⟨0⟩) ⟨[], "text"⟩ .refresh ())
  Script.perform (.watch (.object ⟨0⟩) ⟨[], "text"⟩ .refresh ())

/-- A draft is written, and the first watcher replaces it before the second one is told of it: the cycle
of the replacement overtakes the cycle of the draft. -/
def overtaken : Option (Except Error Bool × Store Unit Unit) :=
  (watchTwice.chain fun _ => (Write.path ⟨[], "text"⟩ (.object ⟨0⟩) (.string "draft")).script).run
    finalizing 2 (Store.observing (.object [("text", .string "empty")]) {} ())

/-- The second watcher knows the final text. -/
theorem no_update_lost_overtaken : ∃ s w value, overtaken = some (.ok true, s) ∧
    s.watcher? ⟨1⟩ = some w ∧ s.model.peek w.path w.root = .ok value ∧ w.baseline.Agrees value := by
  have hdone : overtaken.isSome = true := by decide +kernel
  have hresult : ∀ outcome ∈ overtaken, outcome.1.toOption = some true := by decide +kernel
  have hunfailing : ∀ outcome ∈ overtaken, outcome.2.Unfailing := by decide +kernel
  have hlive : ∀ outcome ∈ overtaken, (outcome.2.watcher? ⟨1⟩).isSome = true ∧
      outcome.2.isLive ⟨1⟩ = true := by decide +kernel
  have hwatcher : ∀ outcome ∈ overtaken, ∀ w ∈ outcome.2.watcher? ⟨1⟩, w.policy = .refresh ∧
      ∀ p ∈ outcome.2.model.trail w.path.segments w.root,
        outcome.2.SubscribedTo ⟨1⟩ p ∨ ¬ outcome.2.WrittenSinceLook ⟨1⟩ p := by decide +kernel
  obtain ⟨⟨result, s⟩, hrun⟩ := Option.isSome_iff_exists.1 hdone
  have hok : result = .ok true := by
    have h := hresult _ hrun
    cases result with
    | ok changed => exact congrArg Except.ok (Option.some.inj h)
    | error e => cases h
  subst hok
  obtain ⟨hsome, hlive⟩ := hlive _ hrun
  obtain ⟨w, hw⟩ := Option.isSome_iff_exists.1 hsome
  obtain ⟨hrefresh, hpath⟩ := hwatcher _ hrun w hw
  obtain ⟨value, hfound, hagrees⟩ := no_update_lost finalizing 2 _ _ _ watchTwice _ hrun
    (hunfailing _ hrun) hw hlive hrefresh hpath
  exact ⟨s, w, value, hrun, hw, hfound, hagrees⟩

end DataBinding
