import DataBinding.Proofs.Model.Equality
import DataBinding.Proofs.Model.Subscribers
import DataBinding.Proofs.Watching.Active

/-!
# What the journal and the lists of subscribers say about watchers

A watcher looks at its path when it is made and whenever an update finds the value there. Since its last
look, some properties may have been written. `Store.Accounted` says of a store that its journal and its
lists give a true account of its active watchers: each is still in the list of every cell that it was
subscribed to when it was made, and there is an earlier model in which it looked at its path, found a
value that its baseline agrees with, and from which the present model differs only in what was written
since.

The main statements are `Accounted.step` and `Accounted.storeCell`: nothing that a run does makes the
account untrue.
-/

set_option autoImplicit false

namespace DataBinding

namespace Event

/-- Whether an event is a look of a watcher at its path. -/
def isLookOf (id : SubscriberId) : Event → Bool
  | .made watcher _ _ => watcher = id
  | .resolved watcher _ => watcher = id
  | _ => false

/-- The property that an event writes. -/
def Writes : Event → Property → Prop
  | .storedCell cell _, p => p = .cell cell
  | .storedPlain object key _, p => p = .field object key
  | _, _ => False

instance (event : Event) : DecidablePred event.Writes := fun p => by
  cases event <;> unfold Writes <;> infer_instance

/-- A note of the journal is no look. -/
theorem isLookOf_of_isNote {event : Event} (h : event.isNote = true) (id : SubscriberId) :
    event.isLookOf id = false := by
  cases event with
  | made => cases h
  | resolved => cases h
  | _ => rfl

/-- A note of the journal writes nothing. -/
theorem not_writes_of_isNote {event : Event} (h : event.isNote = true) (p : Property) :
    ¬ event.Writes p := by
  cases event with
  | storedCell => cases h
  | storedPlain => cases h
  | _ => exact id

end Event

namespace Store

variable {ρ σ : Type} {s s' : Store ρ σ} {id : SubscriberId} {w : Watcher ρ}

/-- The events since a watcher last looked at its path. -/
def sinceLook (s : Store ρ σ) (id : SubscriberId) : List Event :=
  s.journal.takeWhile fun event => !event.isLookOf id

/-- A property was written since a watcher last looked at its path. -/
def WrittenSinceLook (s : Store ρ σ) (id : SubscriberId) (p : Property) : Prop :=
  ∃ event ∈ s.sinceLook id, event.Writes p

instance : DecidablePred (s.WrittenSinceLook id) := fun p =>
  inferInstanceAs (Decidable (∃ event ∈ s.sinceLook id, event.Writes p))

/-- The journal and the lists of subscribers give a true account of the active watchers. -/
structure Accounted (s : Store ρ σ) : Prop where
  sound : s.model.Sound
  known : ∀ event ∈ s.journal, ∀ id, event.isLookOf id = true → id.index < s.subscribers.size
  subscribed : ∀ {id w cells value}, s.Active id w → .made id cells value ∈ s.journal →
    ∀ cell ∈ cells, id ∈ (s.model.cell cell).subscribers
  looked : ∀ {id w}, s.Active id w → ∃ (m : Model) (value : Value), m.Sound ∧
    m.peek w.path w.root = .ok value ∧ (w.policy = .refresh → w.baseline.Agrees value) ∧
    m.Onward (s.WrittenSinceLook id) s.model

/-! ## The passing of time -/

/-- Events that are no looks come on top of what happened since the last one. -/
theorem sinceLook_of_append {events : List Event} (hjournal : s'.journal = events ++ s.journal)
    (hlooks : ∀ event ∈ events, event.isLookOf id = false) :
    s'.sinceLook id = events ++ s.sinceLook id := by
  unfold sinceLook
  rw [hjournal]
  refine List.takeWhile_append_of_pos fun event hevent => ?_
  simp [hlooks event hevent]

/-- Right after a look nothing has happened since. -/
theorem sinceLook_of_look {event : Event} {events : List Event}
    (hjournal : s.journal = event :: events) (hlook : event.isLookOf id = true) :
    s.sinceLook id = [] := by
  unfold sinceLook
  rw [hjournal, List.takeWhile_cons, hlook]
  rfl

/-- What was looked at is still accounted for after events that are no looks. -/
theorem onward_sinceLook {m : Model} {events : List Event}
    (hm : m.Onward (s.WrittenSinceLook id) s.model)
    (hjournal : s'.journal = events ++ s.journal)
    (hlooks : ∀ event ∈ events, event.isLookOf id = false)
    (honward : s.model.Onward (fun p => ∃ event ∈ events, event.Writes p) s'.model) :
    m.Onward (s'.WrittenSinceLook id) s'.model := by
  refine (hm.trans honward).mono fun p hp => ?_
  unfold WrittenSinceLook
  rw [sinceLook_of_append hjournal hlooks]
  rcases hp with ⟨event, hevent, hwrites⟩ | ⟨event, hevent, hwrites⟩
  · exact ⟨event, List.mem_append_left _ hevent, hwrites⟩
  · exact ⟨event, List.mem_append_right _ hevent, hwrites⟩

/-- Time passes without looks: no watcher becomes active or changes, none loses an entry, and the
journal shows what was written. -/
theorem Accounted.of_quiet (h : s.Accounted) (events : List Event)
    (hjournal : s'.journal = events ++ s.journal)
    (hlooks : ∀ event ∈ events, ∀ id, event.isLookOf id = false)
    (hsize : s.subscribers.size ≤ s'.subscribers.size)
    (hactive : ∀ id w, s'.Active id w → s.Active id w)
    (hentries : ∀ id w, s'.Active id w → ∀ cell, id ∈ (s.model.cell cell).subscribers →
      id ∈ (s'.model.cell cell).subscribers)
    (hsound : s'.model.Sound)
    (honward : s.model.Onward (fun p => ∃ event ∈ events, event.Writes p) s'.model) :
    s'.Accounted where
  sound := hsound
  known event hevent id hlook := by
    rw [hjournal, List.mem_append] at hevent
    rcases hevent with hevent | hevent
    · rw [hlooks event hevent id] at hlook
      cases hlook
    · exact Nat.lt_of_lt_of_le (h.known event hevent id hlook) hsize
  subscribed {id w cells value} hw hmade cell hcell := by
    rw [hjournal, List.mem_append] at hmade
    rcases hmade with hmade | hmade
    · have hlook := hlooks _ hmade id
      simp [Event.isLookOf] at hlook
    · exact hentries id w hw cell (h.subscribed (hactive id w hw) hmade cell hcell)
  looked {id w} hw := by
    obtain ⟨m, value, hm, hfound, hbaseline, hwritten⟩ := h.looked (hactive id w hw)
    have hlooks' := fun event hevent => hlooks event hevent id
    exact ⟨m, value, hm, hfound, hbaseline, onward_sinceLook hwritten hjournal hlooks' honward⟩

/-- A watcher looks at its path. What it finds agrees with its baseline afterwards, and nothing is
written. -/
theorem Accounted.of_look (h : s.Accounted) {watcher : Watcher ρ} {value : Value}
    (events : List Event) (hwatcher : s.watcher? id = some watcher)
    (hfound : s.model.peek watcher.path watcher.root = .ok value)
    (hjournal : s'.journal = events ++ s.journal)
    (hevents : ∀ event ∈ events, event = .resolved id value ∨ event = .delivered id value)
    (hmodel : s'.model = s.model) (hsize : s'.subscribers.size = s.subscribers.size)
    (hself : ∀ w, s'.Active id w → w.path = watcher.path ∧ w.root = watcher.root ∧
      (w.policy = .refresh → w.baseline.Agrees value))
    (hback : ∀ other w, s'.Active other w → ∃ v, s.Active other v ∧ (other ≠ id → v = w)) :
    s'.Accounted := by
  have hothers : ∀ other, other ≠ id → ∀ event ∈ events, event.isLookOf other = false := by
    intro other hne event hevent
    rcases hevents event hevent with rfl | rfl
    · simpa [Event.isLookOf] using Ne.symm hne
    · rfl
  constructor
  case sound => exact hmodel ▸ h.sound
  case known =>
    intro event hevent other hlook
    rw [hsize]
    rw [hjournal, List.mem_append] at hevent
    rcases hevent with hevent | hevent
    · by_cases hne : other = id
      · exact hne ▸ lt_size_of_watcher? hwatcher
      · rw [hothers other hne event hevent] at hlook
        cases hlook
    · exact h.known event hevent other hlook
  case subscribed =>
    intro other w cells made hw hmade cell hcell
    obtain ⟨v, hv, -⟩ := hback other w hw
    rw [hjournal, List.mem_append] at hmade
    rcases hmade with hmade | hmade
    · rcases hevents _ hmade with heq | heq <;> cases heq
    · rw [hmodel]
      exact h.subscribed hv hmade cell hcell
  case looked =>
    intro other w hw
    by_cases hne : other = id
    · subst hne
      obtain ⟨hpath, hroot, hbaseline⟩ := hself w hw
      refine ⟨s.model, value, h.sound, ?_, hbaseline, .of_eq hmodel⟩
      rw [hpath, hroot]
      exact hfound
    · -- Nobody else has looked, so what they found last is as old as before.
      obtain ⟨v, hv, hsame⟩ := hback other w hw
      obtain rfl := hsame hne
      obtain ⟨m, value', hm, hfound', hbaseline, hwritten⟩ := h.looked hv
      have honward := onward_sinceLook hwritten hjournal (hothers other hne) (.of_eq hmodel)
      exact ⟨m, value', hm, hfound', hbaseline, honward⟩

/-! ## Steps that are not looks -/

/-- Nothing that the account is about has changed, and the new events neither look nor write. -/
theorem Accounted.of_same (h : s.Accounted) (events : List Event)
    (hjournal : s'.journal = events ++ s.journal)
    (hlooks : ∀ event ∈ events, ∀ id, event.isLookOf id = false)
    (hmodel : s'.model = s.model) (hsubscribers : s'.subscribers = s.subscribers) :
    s'.Accounted := by
  refine h.of_quiet events hjournal hlooks (Nat.le_of_eq (by rw [hsubscribers])) ?_ ?_ ?_ (.of_eq hmodel)
  · intro id w hw
    simpa only [Active, hsubscribers] using hw
  · intro id w _ cell hmem
    rw [hmodel]
    exact hmem
  · rw [hmodel]
    exact h.sound

/-- Only the model has changed. -/
theorem Accounted.of_model (h : s.Accounted) (events : List Event)
    (hjournal : s'.journal = events ++ s.journal)
    (hlooks : ∀ event ∈ events, ∀ id, event.isLookOf id = false)
    (hsubscribers : s'.subscribers = s.subscribers)
    (hentries : ∀ id w, s.Active id w → ∀ cell, id ∈ (s.model.cell cell).subscribers →
      id ∈ (s'.model.cell cell).subscribers)
    (hsound : s'.model.Sound)
    (honward : s.model.Onward (fun p => ∃ event ∈ events, event.Writes p) s'.model) :
    s'.Accounted := by
  have hactive : ∀ id w, s'.Active id w → s.Active id w := by
    intro id w hw
    simpa only [Active, hsubscribers] using hw
  refine h.of_quiet events hjournal hlooks (Nat.le_of_eq (by rw [hsubscribers])) hactive ?_ hsound honward
  intro id w hw cell hmem
  exact hentries id w (hactive id w hw) cell hmem

/-- Only subscribers have changed, and no watcher has become active. -/
theorem Accounted.of_subscribers (h : s.Accounted) (hjournal : s'.journal = s.journal)
    (hmodel : s'.model = s.model) (hsize : s.subscribers.size ≤ s'.subscribers.size)
    (hactive : ∀ id w, s'.Active id w → s.Active id w) : s'.Accounted := by
  have hsound : s'.model.Sound := hmodel ▸ h.sound
  have hjournal' : s'.journal = [] ++ s.journal := hjournal
  refine h.of_quiet [] hjournal' (by simp) hsize hactive ?_ hsound (.of_eq hmodel)
  intro id w _ cell hmem
  rw [hmodel]
  exact hmem

/-- A model that only grows takes no entry away. -/
theorem Accounted.of_within (h : s.Accounted) {m : Model} (hwithin : s.model.Within m)
    (hsound : m.Sound) : ({ s with model := m } : Store ρ σ).Accounted := by
  have hentries : ∀ id w, s.Active id w → ∀ cell, id ∈ (s.model.cell cell).subscribers →
      id ∈ (m.cell cell).subscribers :=
    fun _ _ _ _ hmem => Model.mem_subscribers_of_within hwithin hmem
  exact h.of_model [] rfl (by simp) rfl hentries hsound
    ((Model.onward_of_within hwithin).mono fun p hp => hp.elim)

/-- The books stay in order when a value is stored into a cell. -/
theorem Accounted.storeCell (h : s.Accounted) (cell : CellId) (value : Value) :
    (s.storeCell cell value).Accounted := by
  have hlooks : ∀ event ∈ [Event.storedCell cell value], ∀ id, event.isLookOf id = false := by
    intro event hevent id
    rw [List.mem_singleton.1 hevent]
    rfl
  refine h.of_model [.storedCell cell value] rfl hlooks rfl ?_
    (Model.sound_setCellValue h.sound cell value) ?_
  · intro id w _ other hmem
    exact Model.mem_subscribers_setCellValue cell value hmem
  · refine (Model.onward_setCellValue s.model cell value).mono fun p hp => ?_
    exact ⟨_, List.mem_singleton_self _, hp⟩

/-- The books stay in order when a value is stored under a key without a cell. -/
theorem Accounted.storePlain (h : s.Accounted) {object : ObjectId} {key : String} (value : Value)
    (hplain : ∀ cell, s.model.slot? object key ≠ some (.reactive cell)) :
    ((s.withModel (·.putPlain object key value)).record
      (.storedPlain object key value)).Accounted := by
  have hlooks : ∀ event ∈ [Event.storedPlain object key value], ∀ id,
      event.isLookOf id = false := by
    intro event hevent id
    rw [List.mem_singleton.1 hevent]
    rfl
  refine h.of_model [.storedPlain object key value] rfl hlooks rfl ?_
    (Model.sound_putPlain h.sound object key value) ?_
  · intro id w _ cell hmem
    exact hmem
  · refine (Model.onward_putPlain s.model object key value hplain).mono fun p hp => ?_
    exact ⟨_, List.mem_singleton_self _, hp⟩

/-- Whoever is subscribed to cells joins those who are there. -/
theorem Accounted.subscribeAll (h : s.Accounted) (cells : List CellId) (id : SubscriberId) :
    (s.withModel fun m => cells.foldl (fun m cell => m.subscribe cell id) m).Accounted := by
  obtain ⟨hsound, honward, hkept, -⟩ := Model.foldl_subscribe cells id s.model h.sound
  refine h.of_model [] rfl (by simp) rfl ?_ hsound (honward.mono fun p hp => hp.elim)
  intro other w _ cell hmem
  exact hkept cell other hmem

/-- Those who are active stay in a list when the others are dropped from it. -/
theorem Accounted.prune (h : s.Accounted) (cell : CellId) :
    (s.withModel (·.updateSubscribers cell (·.filter s.isLive))).Accounted := by
  have honward := Model.onward_updateSubscribers s.model cell (·.filter s.isLive)
  refine h.of_model [] rfl (by simp) rfl ?_ (Model.sound_updateSubscribers h.sound _ _)
    (honward.mono fun p hp => hp.elim)
  intro id w hw other hmem
  refine Model.mem_subscribers_updateSubscribers (fun hmem => ?_) hmem
  exact List.mem_filter.2 ⟨hmem, (active_iff.1 hw).2⟩

/-! ## Making a watcher -/

/-- A watcher that nobody holds enters no account. -/
theorem Accounted.abandon (h : s.Accounted) (watcher : Watcher ρ) (cells : List CellId)
    {event : Event} (hnote : event.isNote = true) : (s.enroll 0 watcher cells event).Accounted := by
  obtain ⟨hsound, honward, hkept, -⟩ := Model.foldl_subscribe cells s.nextSubscriber s.model h.sound
  have hlooks : ∀ e ∈ [event], ∀ id, e.isLookOf id = false := by
    intro e he id
    rw [List.mem_singleton.1 he]
    exact Event.isLookOf_of_isNote hnote id
  refine h.of_quiet [event] rfl hlooks (by simp [enroll]) ?_ ?_ hsound
    (honward.mono fun p hp => hp.elim)
  · intro id w hw
    by_cases hnew : id.index = s.subscribers.size
    · exact absurd (hw.of_enroll_new hnew).1 (Nat.lt_irrefl 0)
    · exact hw.of_enroll hnew
  · intro id w _ cell hmem
    exact hkept cell id hmem

/-- A new watcher is in the list of every cell that it read, and it has just looked at its path. -/
theorem Accounted.make (h : s.Accounted) {watcher : Watcher ρ} {cells : List CellId} {value : Value}
    (hfound : s.model.follow watcher.path watcher.root = ⟨cells, .ok value⟩)
    (hbaseline : watcher.baseline = value) :
    (s.enroll 1 watcher cells (.made s.nextSubscriber cells value)).Accounted := by
  obtain ⟨hsound, honward, hkept, hadded⟩ := Model.foldl_subscribe cells s.nextSubscriber s.model h.sound
  have hrange : ∀ cell ∈ cells, cell.index < s.model.cells.size := by
    intro cell hcell
    refine Model.followKeys_cells_lt h.sound watcher.path.text watcher.path.segments watcher.root ?_
    unfold Model.follow at hfound
    rw [hfound]
    exact hcell
  constructor
  case sound => exact hsound
  case known =>
    intro event hevent id hlook
    have hsize : (s.enroll 1 watcher cells (.made s.nextSubscriber cells value)).subscribers.size =
        s.subscribers.size + 1 := by simp [enroll]
    rw [hsize]
    rcases List.mem_cons.1 hevent with rfl | hevent
    · obtain rfl : s.nextSubscriber = id := by simpa [Event.isLookOf] using hlook
      exact Nat.lt_succ_self _
    · exact Nat.lt_succ_of_lt (h.known event hevent id hlook)
  case subscribed =>
    intro id w read value' hw hmade cell hcell
    rcases List.mem_cons.1 hmade with hnew | hold
    · cases hnew
      exact hadded cell hcell (hrange cell hcell)
    · -- Whoever was made before is known, and so is not the new watcher.
      have hlt := h.known _ hold id (by simp [Event.isLookOf])
      exact hkept cell id (h.subscribed (hw.of_enroll (Nat.ne_of_lt hlt)) hold cell hcell)
  case looked =>
    intro id w hw
    by_cases hnew : id.index = s.subscribers.size
    · obtain ⟨-, rfl⟩ := hw.of_enroll_new hnew
      have hpeek : s.model.peek w.path w.root = .ok value := by
        unfold Model.peek
        rw [hfound]
      refine ⟨s.model, value, h.sound, hpeek, fun _ => ?_, honward.mono fun p hp => hp.elim⟩
      rw [hbaseline]
      exact Value.agrees_self value
    · obtain ⟨m, value', hm, hpeek, hagrees, hwritten⟩ := h.looked (hw.of_enroll hnew)
      have hlooks : ∀ event ∈ [Event.made s.nextSubscriber cells value],
          event.isLookOf id = false := by
        intro event hevent
        rw [List.mem_singleton.1 hevent]
        simp only [Event.isLookOf, decide_eq_false_iff_not]
        rintro rfl
        exact hnew rfl
      refine ⟨m, value', hm, hpeek, hagrees, onward_sinceLook hwritten ?_ hlooks ?_⟩
      · rfl
      · exact honward.mono fun p hp => hp.elim

/-! ## Every step -/

/-- The books stay in order when a watcher looks and finds the value that it knows. -/
theorem Accounted.agree (h : s.Accounted) {watcher : Watcher ρ} {value : Value}
    (hwatcher : s.watcher? id = some watcher)
    (hfound : s.model.peek watcher.path watcher.root = .ok value)
    (hsame : value.strictEq watcher.baseline = true) : (s.record (.resolved id value)).Accounted := by
  have hevents : ∀ event ∈ [Event.resolved id value],
      event = .resolved id value ∨ event = .delivered id value :=
    fun event hevent => .inl (List.mem_singleton.1 hevent)
  refine h.of_look [.resolved id value] hwatcher hfound rfl hevents rfl rfl ?_ ?_
  · intro w hw
    have hw' : s.Active id w := hw
    obtain rfl : watcher = w := Option.some.inj (hwatcher.symm.trans (active_iff.1 hw').1)
    refine ⟨rfl, rfl, fun _ => .inl ?_⟩
    rw [Value.strictEq_comm]
    exact hsame
  · intro other w hw
    exact ⟨w, hw, fun _ => rfl⟩

/-- The books stay in order when a watcher is called with what is at its path. -/
theorem Accounted.deliver (h : s.Accounted) {watcher : Watcher ρ} {value : Value}
    (hwatcher : s.watcher? id = some watcher)
    (hfound : s.model.peek watcher.path watcher.root = .ok value) :
    (((s.record (.resolved id value)).updateWatcher id (·.receive value)).record
      (.delivered id value)).Accounted := by
  have hevents : ∀ event ∈ [Event.delivered id value, .resolved id value],
      event = .resolved id value ∨ event = .delivered id value := by
    intro event hevent
    simpa [or_comm] using hevent
  have hback : ∀ other w, (((s.record (.resolved id value)).updateWatcher id
      (·.receive value)).record (.delivered id value)).Active other w →
      ∃ v, s.Active other v ∧ w = if other = id then v.receive value else v := by
    intro other w hw
    exact hw.of_updateWatcher (s := s.record (.resolved id value)) fun _ => rfl
  refine h.of_look [.delivered id value, .resolved id value] hwatcher hfound rfl hevents rfl ?_ ?_ ?_
  · simp [record, updateWatcher, Store.updateSubscriber]
  · intro w hw
    obtain ⟨v, hv, rfl⟩ := hback id w hw
    obtain rfl : watcher = v := Option.some.inj (hwatcher.symm.trans (active_iff.1 hv).1)
    rw [if_pos rfl]
    refine ⟨rfl, rfl, fun hrefresh => ?_⟩
    have hrefresh : watcher.policy = .refresh := hrefresh
    unfold Watcher.receive
    rw [hrefresh]
    exact Value.agrees_self value
  · intro other w hw
    obtain ⟨v, hv, rfl⟩ := hback other w hw
    exact ⟨v, hv, fun hne => by rw [if_neg hne]⟩

/-- Nothing that a step does makes the account untrue. -/
theorem Accounted.step (hstep : Step s s') (h : s.Accounted) : s'.Accounted := by
  have hsize := size_le_of_step hstep
  cases hstep with
  | noted event hnote =>
    refine h.of_same [event] rfl ?_ rfl rfl
    intro e he id
    rw [List.mem_singleton.1 he]
    exact Event.isLookOf_of_isNote hnote id
  | agreed id watcher value hwatcher hactive hfound hsame => exact h.agree hwatcher hfound hsame
  | delivered id watcher value hwatcher hactive hfound hother => exact h.deliver hwatcher hfound
  | made root path policy reaction cells value hfound => exact h.make hfound rfl
  | abandoned root path policy reaction cells e hfailed => exact h.abandon _ cells rfl
  | storedPlain object key value hplain => exact h.storePlain value hplain
  | observed json =>
    exact h.of_within (Model.observe_within json s.model) (Model.observe_sound json h.sound)
  | newObject =>
    refine h.of_within (Model.Within.pushObject s.model []) ?_
    exact Model.sound_pushObject h.sound fun key cell hget => by cases hget
  | tracked cells =>
    unfold subscribeCollector
    split
    · exact h
    · next id hcollector => exact h.subscribeAll cells id
  | pruned cell => exact h.prune cell
  | retained => exact h.of_subscribers rfl rfl hsize fun id w hw => hw.of_retain
  | released => exact h.of_subscribers rfl rfl hsize fun id w hw => hw.of_release
  | disposed => exact h.of_subscribers rfl rfl hsize fun id w hw => hw.of_dispose
  | hosted => exact h.of_subscribers rfl rfl hsize fun id w hw => hw.of_addHosted
  | textWritten node text => exact h.of_same [.wroteText node] rfl (by simp [Event.isLookOf]) rfl rfl
  | valueWritten node value =>
    exact h.of_same [.wroteValue node] rfl (by simp [Event.isLookOf]) rfl rfl
  | binderAdded | watcherKept | hostSet | typed | listened | appended | attributeSet
  | planted => exact h.of_same [] rfl (by simp) rfl rfl

end Store

end DataBinding
