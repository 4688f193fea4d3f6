import DataBinding.Proofs.Runs.Supervision
import DataBinding.Proofs.Watching.Entries
import DataBinding.Proofs.Watching.Evolution
import DataBinding.Proofs.Watching.NoLostUpdate

/-!
# Who is in the lists of cells, and why

The library enters a watcher into the list of a cell in one place: when the watcher is made, once for each
time that its path leads through the cell. `Store.Enlisted` says of a store that this is all there is to
its lists. The journal tells which cells a watcher read when it was made, so the lists can be compared with
it: an active watcher has as many entries in a list as it read the cell, and the live entries of a list
stand in the order of the readings. The collector slot, through which any tracked reading would add
entries, is empty.

`Enlisted.step` shows it of every step, and `enlisted_supervisable` adds that nobody gets an entry who was
there before. As nested reactions start in the middle of operations, the main statement is about supervised
runs: it holds before and after each operation, at any depth.
-/

set_option autoImplicit false

namespace DataBinding

namespace Event

/-- Who read a cell when it was made, once for each time. -/
def reads (cell : CellId) : Event → List SubscriberId
  | .made id cells _ => List.replicate (cells.count cell) id
  | _ => []

/-- Whether an event is the making of a watcher. -/
def isMaking : Event → Bool
  | .made _ _ _ => true
  | _ => false

/-- Only the making of a watcher reads cells. -/
theorem reads_of_not_isMaking {event : Event} (h : event.isMaking = false) (cell : CellId) :
    event.reads cell = [] := by
  cases event with
  | made => cases h
  | _ => rfl

/-- A note of the journal makes no watcher. -/
theorem not_isMaking_of_isNote {event : Event} (h : event.isNote = true) : event.isMaking = false := by
  cases event with
  | made => cases h
  | _ => rfl

end Event

/-- An operation that neither fills the collector slot nor subscribes anybody by hand. -/
def Op.LeavesListsAlone {ρ σ : Type} : Op ρ σ → Prop
  | .collect _ | .subscribe _ _ => False
  | _ => True

namespace Store

variable {ρ σ : Type} {s s' : Store ρ σ} {id target : SubscriberId} {w : Watcher ρ} {cell : CellId}

/-- By whom a cell was read when it was made, in the order of the readings. -/
def reads (s : Store ρ σ) (cell : CellId) : List SubscriberId :=
  s.journal.reverse.flatMap (Event.reads cell)

/-- The readings of a further event come after those that were there. -/
theorem reads_of_cons {event : Event} (hjournal : s'.journal = event :: s.journal) (cell : CellId) :
    s'.reads cell = s.reads cell ++ event.reads cell := by
  simp [reads, hjournal]

/-- No watcher is made from one store to the other. -/
def MakesNobody (s s' : Store ρ σ) : Prop :=
  ∃ events, s'.journal = events ++ s.journal ∧ ∀ event ∈ events, event.isMaking = false

/-- A journal that stays the same makes nobody. -/
theorem MakesNobody.of_same (hjournal : s'.journal = s.journal) : s.MakesNobody s' :=
  ⟨[], hjournal, by simp⟩

/-- One event that is no making makes nobody. -/
theorem MakesNobody.of_cons {event : Event} (hjournal : s'.journal = event :: s.journal)
    (hevent : event.isMaking = false) : s.MakesNobody s' :=
  ⟨[event], hjournal, by simpa using hevent⟩

/-- Where nobody is made, every cell has the readings it had. -/
theorem MakesNobody.reads (h : s.MakesNobody s') (cell : CellId) : s'.reads cell = s.reads cell := by
  obtain ⟨events, hjournal, hevents⟩ := h
  have hnone : events.reverse.flatMap (Event.reads cell) = [] := by
    refine List.flatMap_eq_nil_iff.2 fun event hevent => ?_
    exact Event.reads_of_not_isMaking (hevents event (List.mem_reverse.1 hevent)) cell
  unfold Store.reads
  rw [hjournal, List.reverse_append, List.flatMap_append, hnone, List.append_nil]

/-- Where nobody is made, the makings in the journal are the same. -/
theorem MakesNobody.made {cells : List CellId} {value : Value} (h : s.MakesNobody s') :
    .made id cells value ∈ s'.journal ↔ .made id cells value ∈ s.journal := by
  obtain ⟨events, hjournal, hevents⟩ := h
  rw [hjournal, List.mem_append]
  refine ⟨fun hmade => hmade.resolve_left fun hnew => ?_, .inr⟩
  cases hevents _ hnew

/-- The lists of cells say who read what when it was made, and nothing else. -/
structure Enlisted (s : Store ρ σ) : Prop where
  idle : s.collector = none
  sound : s.model.Sound
  /-- Only watchers are in lists. -/
  entry : ∀ {cell id}, id ∈ s.entries cell → ∃ w, s.watcher? id = some w
  reader : ∀ {cell id}, id ∈ s.reads cell → ∃ w, s.watcher? id = some w
  /-- An active watcher has an entry for each time that its path led through a cell when it was made. -/
  count : ∀ {id w}, s.Active id w → ∃ (m : Model) (cells : List CellId) (value : Value),
    m.Onward (fun _ => True) s.model ∧ m.follow w.path w.root = ⟨cells, .ok value⟩ ∧
    .made id cells value ∈ s.journal ∧ ∀ cell, (s.entries cell).count id = cells.count cell
  /-- Not even a watcher that has died since has more entries than that. -/
  bound : ∀ {id cells value}, .made id cells value ∈ s.journal → id.index < s.subscribers.size ∧
    ∀ cell, (s.entries cell).count id ≤ cells.count cell
  /-- The live entries of a list stand in the order of the readings. -/
  order : ∀ cell, (s.entries cell).filter s.isLive = (s.reads cell).filter s.isLive

/-! ## What a step does to the model -/

/-- Every reactive key has its cell, after a step as before. -/
theorem sound_of_step (hstep : Step s s') (hsound : s.model.Sound) : s'.model.Sound := by
  have hsubscribed : ∀ (cells : List CellId) (id : SubscriberId),
      (cells.foldl (fun m cell => m.subscribe cell id) s.model).Sound := fun cells id =>
    (Model.foldl_subscribe cells id s.model hsound).1
  cases hstep with
  | made => exact hsubscribed _ _
  | abandoned => exact hsubscribed _ _
  | storedPlain object key value hplain => exact Model.sound_putPlain hsound object key value
  | observed json => exact Model.observe_sound json hsound
  | newObject =>
    refine Model.sound_pushObject hsound fun key cell hget => ?_
    cases hget
  | tracked cells =>
    unfold subscribeCollector
    split
    · exact hsound
    · exact hsubscribed _ _
  | pruned cell => exact Model.sound_updateSubscribers hsound cell _
  | _ => exact hsound

/-- The model of a store leads to those of all later ones. -/
theorem onward_of_step (hstep : Step s s') (hsound : s.model.Sound) :
    s'.model.Sound ∧ s.model.Onward (fun _ => True) s'.model := by
  obtain ⟨_, _, honward⟩ := kept_step hstep
  exact ⟨sound_of_step hstep hsound, honward.mono fun _ _ => trivial⟩

/-! ## Steps that make no watcher -/

/-- Nobody who was not live before is live after, and lists change at most by dropping those who are not
live: then the lists still say who read what. -/
theorem Enlisted.of_quiet (h : s.Enlisted) (hcollector : s'.collector = s.collector)
    (hmodel : s'.model.Sound ∧ s.model.Onward (fun _ => True) s'.model)
    (hmakes : s.MakesNobody s') (hsize : s.subscribers.size ≤ s'.subscribers.size)
    (hwatcher : ∀ {id w}, s.watcher? id = some w → ∃ v, s'.watcher? id = some v)
    (hlive : ∀ {id w}, s.watcher? id = some w → s'.isLive id = true → s.isLive id = true)
    (hactive : ∀ {id w}, s'.Active id w → ∃ v, s.Active id v ∧ v.path = w.path ∧ v.root = w.root)
    (hentries : ∀ cell, s'.entries cell = s.entries cell ∨
      s'.entries cell = (s.entries cell).filter s.isLive) : s'.Enlisted := by
  -- Dropping those who were not live before makes no difference to those who are live after.
  have hfilter : ∀ ids : List SubscriberId, (∀ id ∈ ids, ∃ w, s.watcher? id = some w) →
      (ids.filter s.isLive).filter s'.isLive = ids.filter s'.isLive := by
    intro ids hids
    rw [List.filter_filter]
    refine List.filter_congr fun id hid => ?_
    obtain ⟨w, hw⟩ := hids id hid
    cases hlive' : s'.isLive id with
    | false => rfl
    | true => rw [hlive hw hlive', Bool.and_true]
  constructor
  case idle => rw [hcollector, h.idle]
  case sound => exact hmodel.1
  case entry =>
    intro cell id hid
    have hid' : id ∈ s.entries cell := by
      rcases hentries cell with hsame | hpruned
      · rwa [hsame] at hid
      · rw [hpruned] at hid
        exact (List.mem_filter.1 hid).1
    obtain ⟨w, hw⟩ := h.entry hid'
    exact hwatcher hw
  case reader =>
    intro cell id hid
    rw [hmakes.reads] at hid
    obtain ⟨w, hw⟩ := h.reader hid
    exact hwatcher hw
  case count =>
    intro id w hw
    obtain ⟨v, hv, hpath, hroot⟩ := hactive hw
    obtain ⟨m, cells, value, honward, hfollow, hmade, hcount⟩ := h.count hv
    refine ⟨m, cells, value, (honward.trans hmodel.2).mono fun _ _ => trivial, ?_,
      hmakes.made.2 hmade, fun cell => ?_⟩
    · rw [← hpath, ← hroot]
      exact hfollow
    · rw [← hcount cell]
      rcases hentries cell with hsame | hpruned
      · rw [hsame]
      · rw [hpruned, List.count_filter (active_iff.1 hv).2]
  case bound =>
    intro id cells value hmade
    obtain ⟨hlt, hbound⟩ := h.bound (hmakes.made.1 hmade)
    refine ⟨Nat.lt_of_lt_of_le hlt hsize, fun cell => ?_⟩
    rcases hentries cell with hsame | hpruned
    · rw [hsame]
      exact hbound cell
    · rw [hpruned]
      exact Nat.le_trans (List.filter_sublist.count_le id) (hbound cell)
  case order =>
    intro cell
    have hreaders := hfilter (s.reads cell) fun id hid => h.reader hid
    have hentered := hfilter (s.entries cell) fun id hid => h.entry hid
    rw [hmakes.reads]
    rcases hentries cell with hsame | hpruned
    · rw [hsame, ← hentered, h.order cell, hreaders]
    · rw [hpruned, h.order cell, hreaders]

/-- The same for a step. -/
theorem Enlisted.of_quiet_step (h : s.Enlisted) (hstep : Step s s') (hmakes : s.MakesNobody s')
    (hold : ∀ {id w}, s'.Active id w → id.index < s.subscribers.size)
    (hentries : ∀ cell, s'.entries cell = s.entries cell ∨
      s'.entries cell = (s.entries cell).filter s.isLive) : s'.Enlisted := by
  refine h.of_quiet (collector_of_step hstep) (onward_of_step hstep h.sound) hmakes
    (size_le_of_step hstep) (watcher?_of_step hstep) (fun hw hlive => ?_) (fun hw => ?_) hentries
  · exact isLive_of_step hstep (lt_size_of_watcher? hw) hlive
  · exact active_of_step hstep hw (hold hw)

/-- A store into a cell leaves the lists as they are. -/
theorem Enlisted.storeCell (h : s.Enlisted) (target : CellId) (value : Value) :
    (s.storeCell target value).Enlisted := by
  have hmodel : (s.storeCell target value).model.Sound ∧
      s.model.Onward (fun _ => True) (s.storeCell target value).model :=
    ⟨Model.sound_setCellValue h.sound target value,
      (Model.onward_setCellValue s.model target value).mono fun _ _ => trivial⟩
  exact h.of_quiet rfl hmodel (.of_cons rfl rfl) (Nat.le_refl _) (fun hw => ⟨_, hw⟩)
    (fun _ hlive => hlive) (fun hw => ⟨_, hw, rfl, rfl⟩) fun cell => .inl (entries_storeCell s target value cell)

/-- Hosts may switch their own subscribers on and off: those are in no list. -/
theorem Enlisted.setActive (h : s.Enlisted) (target : SubscriberId) (active : Bool) :
    (s.setActive target active).Enlisted := by
  have hsize : (s.setActive target active).subscribers.size = s.subscribers.size := by
    simp [Store.setActive, updateSubscriber]
  refine h.of_quiet rfl ⟨h.sound, .of_eq rfl⟩ (.of_same rfl) (Nat.le_of_eq hsize.symm) (fun hw => ?_)
    (fun hw hlive => ?_) (fun hw => ⟨_, hw.of_setActive, rfl, rfl⟩) fun _ => .inl rfl
  · exact ⟨_, (watcher?_setActive s target _ active).trans hw⟩
  · have hv := (watcher?_setActive s target _ active).trans hw
    exact (active_iff.1 (active_iff.2 ⟨hv, hlive⟩).of_setActive).2

/-! ## Making a watcher -/

section Enroll

variable {handles : Nat} {watcher : Watcher ρ} {cells : List CellId} {event : Event}

/-- Whoever was there before is as live as before a watcher is enrolled. -/
theorem isLive_enroll_old (hold : id.index < s.subscribers.size) :
    (s.enroll handles watcher cells event).isLive id = s.isLive id := isLive_of_push hold rfl

/-- The watcher enrolled is there under the next identity. -/
theorem watcher?_enroll_new :
    (s.enroll handles watcher cells event).watcher? s.nextSubscriber = some watcher := by
  simp [enroll, nextSubscriber, watcher?, subscriber?]

/-- Whoever is in a list or has read a cell was there before the new watcher. -/
theorem Enlisted.filter_enroll {ids : List SubscriberId}
    (hids : ∀ id ∈ ids, ∃ w, s.watcher? id = some w) :
    ids.filter (s.enroll handles watcher cells event).isLive = ids.filter s.isLive := by
  refine List.filter_congr fun id hid => ?_
  obtain ⟨w, hw⟩ := hids id hid
  exact isLive_enroll_old (lt_size_of_watcher? hw)

/-- The next identity is in no list yet. -/
theorem Enlisted.nextSubscriber_not_mem (h : s.Enlisted) (cell : CellId) :
    s.nextSubscriber ∉ s.entries cell := by
  intro hmem
  obtain ⟨w, hw⟩ := h.entry hmem
  exact Nat.lt_irrefl _ (lt_size_of_watcher? hw)

/-- Whoever is not the watcher enrolled has the entries it had. -/
theorem count_entries_enroll (hold : id.index ≠ s.subscribers.size) (cell : CellId) :
    ((s.enroll handles watcher cells event).entries cell).count id = (s.entries cell).count id := by
  obtain ⟨count, hentries⟩ : ∃ count, (s.enroll handles watcher cells event).entries cell =
      s.entries cell ++ List.replicate count s.nextSubscriber := entries_subscribeAll rfl cell
  have hother : id ≠ s.nextSubscriber := fun heq => hold (by rw [heq]; rfl)
  rw [hentries, List.count_append, List.count_replicate, if_neg]
  · rfl
  · simpa using Ne.symm hother

/-- An active watcher from before has as many entries as before. -/
theorem Enlisted.count_enroll (h : s.Enlisted) (hw : (s.enroll handles watcher cells event).Active id w)
    (hold : id.index ≠ s.subscribers.size) :
    ∃ (m : Model) (read : List CellId) (value : Value),
      m.Onward (fun _ => True) (s.enroll handles watcher cells event).model ∧
      m.follow w.path w.root = ⟨read, .ok value⟩ ∧
      .made id read value ∈ (s.enroll handles watcher cells event).journal ∧
      ∀ cell, ((s.enroll handles watcher cells event).entries cell).count id = read.count cell := by
  obtain ⟨m, read, value, honward, hfollow, hmade, hcount⟩ := h.count (hw.of_enroll hold)
  obtain ⟨-, honward', -⟩ := Model.foldl_subscribe cells s.nextSubscriber s.model h.sound
  refine ⟨m, read, value, (honward.trans honward').mono fun _ _ => trivial, hfollow,
    List.mem_cons_of_mem _ hmade, fun cell => ?_⟩
  rw [count_entries_enroll hold, hcount cell]

/-- Those who were made before have as many entries as before. -/
theorem Enlisted.bound_enroll (h : s.Enlisted) {read : List CellId} {value : Value}
    (hmade : .made id read value ∈ s.journal) :
    id.index < (s.enroll handles watcher cells event).subscribers.size ∧
      ∀ cell, ((s.enroll handles watcher cells event).entries cell).count id ≤ read.count cell := by
  obtain ⟨hlt, hbound⟩ := h.bound hmade
  refine ⟨?_, fun cell => ?_⟩
  · simp only [enroll, Array.size_push]
    omega
  · rw [count_entries_enroll (Nat.ne_of_lt hlt)]
    exact hbound cell

/-- A watcher that is let go at once leaves entries behind that are not live. -/
theorem Enlisted.abandon (h : s.Enlisted) {e : Error} :
    (s.enroll 0 watcher cells (.raised e)).Enlisted := by
  have hentries : ∀ cell, ∃ count, (s.enroll 0 watcher cells (.raised e)).entries cell =
      s.entries cell ++ List.replicate count s.nextSubscriber := fun cell => entries_subscribeAll rfl cell
  have hmakes : s.MakesNobody (s.enroll 0 watcher cells (.raised e)) := .of_cons rfl rfl
  have hdead : (s.enroll 0 watcher cells (.raised e)).isLive s.nextSubscriber = false := by
    simp [enroll, nextSubscriber, isLive, subscriber?, Subscriber.isLive, Subscriber.isAlive]
  constructor
  case idle => exact h.idle
  case sound => exact (Model.foldl_subscribe cells s.nextSubscriber s.model h.sound).1
  case entry =>
    intro cell id hid
    obtain ⟨count, hentries⟩ := hentries cell
    rw [hentries] at hid
    rcases List.mem_append.1 hid with hid | hid
    · obtain ⟨w, hw⟩ := h.entry hid
      exact ⟨w, watcher?_of_push hw rfl⟩
    · rw [(List.mem_replicate.1 hid).2]
      exact ⟨watcher, watcher?_enroll_new⟩
  case reader =>
    intro cell id hid
    rw [hmakes.reads] at hid
    obtain ⟨w, hw⟩ := h.reader hid
    exact ⟨w, watcher?_of_push hw rfl⟩
  case count =>
    intro id w hw
    by_cases hnew : id.index = s.subscribers.size
    · exact absurd (hw.of_enroll_new hnew).1 (Nat.lt_irrefl 0)
    · exact h.count_enroll hw hnew
  case bound =>
    intro id read value hmade
    exact h.bound_enroll (hmakes.made.1 hmade)
  case order =>
    intro cell
    obtain ⟨count, hentries⟩ := hentries cell
    rw [hentries, hmakes.reads, List.filter_append, Enlisted.filter_enroll fun id hid => h.entry hid,
      Enlisted.filter_enroll fun id hid => h.reader hid, List.filter_replicate, hdead]
    simpa using h.order cell

/-- Following a path from a root reads cells of the model. -/
theorem Enlisted.lt_size_of_read (h : s.Enlisted) {outcome : Except Error Value}
    (hread : s.model.follow watcher.path watcher.root = ⟨cells, outcome⟩) {cell : CellId}
    (hcell : cell ∈ cells) : cell.index < s.model.cells.size := by
  refine Model.followKeys_cells_lt h.sound watcher.path.text watcher.path.segments watcher.root ?_
  unfold Model.follow at hread
  rw [hread]
  exact hcell

/-- Each list grows by an entry for each time its cell was read. -/
theorem Enlisted.entries_enroll (h : s.Enlisted) {outcome : Except Error Value}
    (hread : s.model.follow watcher.path watcher.root = ⟨cells, outcome⟩) (cell : CellId) :
    (s.enroll handles watcher cells event).entries cell =
      s.entries cell ++ List.replicate (cells.count cell) s.nextSubscriber := by
  by_cases hlt : cell.index < s.model.cells.size
  · exact Model.subscribers_foldl_subscribe cells s.nextSubscriber s.model hlt
  · have hunread : cells.count cell = 0 :=
      List.count_eq_zero.2 fun hcell => hlt (h.lt_size_of_read hread hcell)
    have hle := Nat.le_of_not_lt hlt
    have hle' : (s.enroll handles watcher cells event).model.cells.size ≤ cell.index := by
      have hsize : (s.enroll handles watcher cells event).model.cells.size = s.model.cells.size :=
        Model.size_foldl_subscribe _ _ _
      omega
    unfold entries
    rw [Model.subscribers_of_le hle, Model.subscribers_of_le hle', hunread]
    rfl

/-- A watcher that is made gets its entries, one for each reading. -/
theorem Enlisted.make (h : s.Enlisted) {value : Value}
    (hfound : s.model.follow watcher.path watcher.root = ⟨cells, .ok value⟩) :
    (s.enroll 1 watcher cells (.made s.nextSubscriber cells value)).Enlisted := by
  let s' := s.enroll 1 watcher cells (.made s.nextSubscriber cells value)
  obtain ⟨hsound, honward, -⟩ := Model.foldl_subscribe cells s.nextSubscriber s.model h.sound
  have hentries : ∀ cell, s'.entries cell =
      s.entries cell ++ List.replicate (cells.count cell) s.nextSubscriber := h.entries_enroll hfound
  have hjournal : s'.journal = .made s.nextSubscriber cells value :: s.journal := rfl
  have hreads : ∀ cell, s'.reads cell =
      s.reads cell ++ List.replicate (cells.count cell) s.nextSubscriber := reads_of_cons hjournal
  have hwatchers : ∀ {ids : List SubscriberId} {cell id}, (∀ id ∈ ids, ∃ w, s.watcher? id = some w) →
      id ∈ ids ++ List.replicate (cells.count cell) s.nextSubscriber →
      ∃ w, s'.watcher? id = some w := by
    intro ids cell id hids hid
    rcases List.mem_append.1 hid with hid | hid
    · obtain ⟨w, hw⟩ := hids id hid
      exact ⟨w, watcher?_of_push hw rfl⟩
    · rw [(List.mem_replicate.1 hid).2]
      exact ⟨watcher, watcher?_enroll_new⟩
  -- The watcher is in no list yet, so its entries are those that it is given now.
  have hown : ∀ cell, (s'.entries cell).count s.nextSubscriber = cells.count cell := by
    intro cell
    rw [hentries, List.count_append, List.count_eq_zero.2 (h.nextSubscriber_not_mem cell),
      List.count_replicate_self, Nat.zero_add]
  constructor
  case idle => exact h.idle
  case sound => exact hsound
  case entry =>
    intro cell id hid
    rw [hentries] at hid
    exact hwatchers (fun id hid => h.entry hid) hid
  case reader =>
    intro cell id hid
    rw [hreads] at hid
    exact hwatchers (fun id hid => h.reader hid) hid
  case count =>
    intro id w hw
    by_cases hnew : id.index = s.subscribers.size
    · obtain ⟨-, rfl⟩ := hw.of_enroll_new hnew
      obtain rfl : id = s.nextSubscriber := by
        cases id
        exact congrArg SubscriberId.mk hnew
      exact ⟨s.model, cells, value, honward.mono fun _ _ => trivial, hfound, List.mem_cons_self, hown⟩
    · exact h.count_enroll hw hnew
  case bound =>
    intro id read value' hmade
    rcases List.mem_cons.1 hmade with heq | hmade
    · cases heq
      exact ⟨by simp [nextSubscriber, enroll], fun cell => Nat.le_of_eq (hown cell)⟩
    · exact h.bound_enroll hmade
  case order =>
    intro cell
    rw [hentries, hreads, List.filter_append, List.filter_append,
      Enlisted.filter_enroll fun id hid => h.entry hid,
      Enlisted.filter_enroll fun id hid => h.reader hid, h.order cell]

end Enroll

/-! ## Every step -/

/-- Whatever a step does, the lists still say who read what. -/
theorem Enlisted.step (h : s.Enlisted) (hstep : Step s s') : s'.Enlisted := by
  have hstep' := hstep
  cases hstep with
  | made root path policy reaction cells value hfound => exact h.make hfound
  | abandoned root path policy reaction cells e hfailed => exact h.abandon
  | noted event hnote =>
    have hmaking := Event.not_isMaking_of_isNote hnote
    exact h.of_quiet_step hstep' (.of_cons rfl hmaking) (fun hw => hw.lt_size) fun _ => .inl rfl
  | agreed | storedPlain | textWritten | valueWritten =>
    exact h.of_quiet_step hstep' (.of_cons rfl rfl) (fun hw => hw.lt_size) fun _ => .inl rfl
  | delivered other watcher value =>
    refine h.of_quiet_step hstep' ⟨[_, _], rfl, ?_⟩ (fun hw => ?_) fun _ => .inl rfl
    · simp [Event.isMaking]
    · simpa [record, updateWatcher, updateSubscriber] using hw.lt_size
  | observed json =>
    exact h.of_quiet_step hstep' (.of_same rfl) (fun hw => hw.lt_size) fun cell =>
      .inl (Model.subscribers_observe json s.model cell)
  -- Nothing is tracked while the collector slot is empty.
  | tracked cells =>
    have hidle : s.subscribeCollector cells = s := by
      unfold subscribeCollector
      rw [h.idle]
    rw [hidle]
    exact h
  | pruned target =>
    refine h.of_quiet_step hstep' (.of_same rfl) (fun hw => hw.lt_size) fun cell => ?_
    have hpruned := entries_prune s target cell
    by_cases htarget : target = cell
    · exact .inr (hpruned.trans (if_pos htarget))
    · exact .inl (hpruned.trans (if_neg htarget))
  | retained other =>
    exact h.of_quiet_step hstep' (.of_same rfl) (fun hw => hw.of_retain.lt_size) fun _ => .inl rfl
  | released other =>
    exact h.of_quiet_step hstep' (.of_same rfl) (fun hw => hw.of_release.lt_size) fun _ => .inl rfl
  | disposed other =>
    exact h.of_quiet_step hstep' (.of_same rfl) (fun hw => hw.of_dispose.lt_size) fun _ => .inl rfl
  | hosted reaction =>
    exact h.of_quiet_step hstep' (.of_same rfl) (fun hw => hw.of_addHosted.lt_size) fun _ => .inl rfl
  | _ => exact h.of_quiet_step hstep' (.of_same rfl) (fun hw => hw.lt_size) fun _ => .inl rfl

/-! ## Whole runs -/

/-- What an operation does to lists: they still say who read what, and whoever was there before has got no
new entry. -/
structure Enlists (s s' : Store ρ σ) : Prop where
  enlisted : s'.Enlisted
  size_le : s.subscribers.size ≤ s'.subscribers.size
  joined : ∀ cell, ((s'.entries cell).filter fun id => id.index < s.subscribers.size).Sublist
    (s.entries cell)

/-- No change at all keeps the lists in order. -/
theorem Enlists.refl (h : s.Enlisted) : s.Enlists s :=
  ⟨h, Nat.le_refl _, fun _ => List.filter_sublist⟩

/-- Two changes that keep the lists in order keep them so together. -/
theorem Enlists.trans {s₁ s₂ s₃ : Store ρ σ} (h₁ : s₁.Enlists s₂) (h₂ : s₂.Enlists s₃) :
    s₁.Enlists s₃ where
  enlisted := h₂.enlisted
  size_le := Nat.le_trans h₁.size_le h₂.size_le
  joined cell := by
    have hfilter : (s₃.entries cell).filter (fun id => id.index < s₁.subscribers.size) =
        ((s₃.entries cell).filter fun id => id.index < s₂.subscribers.size).filter
          fun id => id.index < s₁.subscribers.size := by
      rw [List.filter_filter]
      refine List.filter_congr fun id _ => ?_
      have hle := h₁.size_le
      by_cases hlt : id.index < s₁.subscribers.size
      · have hlt' : id.index < s₂.subscribers.size := by omega
        simp [hlt, hlt']
      · simp [hlt]
    rw [hfilter]
    exact ((h₂.joined cell).filter _).trans (h₁.joined cell)

/-- A step gives entries to the watcher that it makes only. -/
theorem Enlists.of_step (hstep : Step s s') (h : s.Enlisted) : s.Enlists s' where
  enlisted := h.step hstep
  size_le := size_le_of_step hstep
  joined cell := by
    rcases entries_of_step hstep cell with hpruned | ⟨added, hadded, hnew⟩
    · rw [hpruned]
      exact List.filter_sublist.trans List.filter_sublist
    · have hnobody : added.filter (fun id => id.index < s.subscribers.size) = [] := by
        refine List.filter_eq_nil_iff.2 fun id hid => ?_
        rcases hnew id hid with hslot | ⟨rfl, -⟩
        · rw [h.idle] at hslot
          cases hslot
        · simp [nextSubscriber]
      rw [hadded, List.filter_append, hnobody, List.append_nil]
      exact List.filter_sublist

/-- A supervised run can watch over the order of the lists. -/
theorem enlisted_supervisable :
    Supervisable (Enlisted : Store ρ σ → Prop) (Enlists : Store ρ σ → Store ρ σ → Prop) where
  holds h := h.enlisted
  refl h := .refl h
  trans h₁ h₂ := h₁.trans h₂
  step hstep h := .of_step hstep h
  storing {s} cell value h := by
    refine ⟨h.storeCell cell value, Nat.le_refl _, fun other => ?_⟩
    rw [entries_storeCell]
    exact List.filter_sublist

/-- What a host may do by hand gives nobody an entry. -/
theorem enlists_byHand {op : Op ρ σ} (hop : op.LeavesListsAlone) (hhand : op.isByHand = true)
    (respond : Respond ρ σ) (depth : Nat) (s : Store ρ σ) :
    Run.Keeps (fun s s' => s.Enlisted → s.Enlists s') s (Run.perform respond depth op) := by
  cases op with
  | setActive id active =>
    refine Run.keeps_change fun h => ⟨h.setActive id active, Nat.le_of_eq ?_, fun _ => ?_⟩
    · simp [setActive, updateSubscriber]
    · exact List.filter_sublist
  | subscribe => cases hop
  | collect => cases hop
  | _ => cases hhand

/-- Nobody is in a list of a document that has just been observed. -/
theorem entries_observing (json : Json) (view : View ρ) (host : σ) (cell : CellId) :
    (observing json view host).entries cell = [] := by
  unfold entries observing
  rw [Model.subscribers_observe]
  exact Model.subscribers_of_le (Nat.zero_le _)

/-- The lists of a document that has just been observed are in order. -/
theorem enlisted_observing (json : Json) (view : View ρ) (host : σ) :
    (observing json view host).Enlisted where
  idle := rfl
  sound := (accounted_observing json view host).sound
  entry hid := by
    rw [entries_observing] at hid
    cases hid
  reader hid := by cases hid
  count hw := by
    obtain ⟨handles, hentry, -⟩ := hw
    cases hentry
  bound hmade := by cases hmade
  order cell := by
    rw [entries_observing]
    rfl

end Store

variable {ρ σ α : Type}

/-- Whatever a host does that leaves the collector slot and the lists alone, and however its reactions nest:
before and after each operation the collector slot is empty, an active watcher has an entry in the list of
a cell for each time that it read the cell when it was made, the live entries stand in the order of those
readings, and nobody has got an entry during the operation who was there before it. A supervisor who would
do something else where this fails does nothing else. -/
theorem enlisted_throughout {host : Host ρ σ} (hhost : host.Asks Op.LeavesListsAlone)
    {script : Script ρ σ α} (hscript : script.Asks Op.LeavesListsAlone) (depth : Nat) (json : Json)
    (view : View ρ) (state : σ) (instead : (op : Op ρ σ) → Run ρ σ op.Answer) :
    script.runSupervised Store.Enlists instead host depth (Store.observing json view state) =
      script.run host depth (Store.observing json view state) :=
  Script.run_supervised Store.enlisted_supervisable (fun _ hop hhand => Store.enlists_byHand hop hhand)
    hhost instead hscript depth (Store.enlisted_observing json view state)

/-- A host that makes two watchers as soon as one is told of a change: of the first, the path leads
nowhere. -/
def recruiting : Host Unit Unit where
  script _ stimulus :=
    match stimulus with
    | .delivered _ => do
      let _ ← Script.attempt (Script.perform (.watch (.object ⟨0⟩) ⟨["self"], "missing"⟩ .refresh ()))
      let _ ← Script.perform (.watch (.object ⟨0⟩) ⟨["self"], "text"⟩ .refresh ())
    | _ => pure ()

/-- The recruiting host fills no collector slot and subscribes nobody by hand. -/
theorem recruiting_asks : recruiting.Asks Op.LeavesListsAlone := by
  intro reaction stimulus
  cases stimulus with
  | delivered value =>
    refine ⟨trivial, fun _ => ⟨trivial, fun answer => ?_⟩⟩
    cases answer with
    | ok _ => trivial
    | error _ => trivial
  | _ => trivial

/-- An object is stored in itself, and a watcher is made whose path leads twice through that. -/
def watchInLoop : Script Unit Unit Bool :=
  .ask (.setKey ⟨0⟩ "self" (.object ⟨0⟩)) fun _ =>
    .ask (.watch (.object ⟨0⟩) ⟨["self", "self"], "text"⟩ .refresh ()) fun _ =>
      Script.perform (.setKey ⟨0⟩ "text" (.string "new"))

/-- The first watcher has two entries in the list of the loop; the one of the watcher that failed is dead. -/
theorem enlisted_throughout_in_loop : ∃ s,
    watchInLoop.run recruiting 2 (Store.observing
      (.object [("self", .null), ("text", .string "old")]) {} ()) = some (.ok true, s) ∧
    s.entries ⟨0⟩ = [⟨0⟩, ⟨0⟩, ⟨1⟩, ⟨2⟩] ∧ s.isLive ⟨1⟩ = false ∧
    watchInLoop.runSupervised Store.Enlists (fun _ => Run.diverge) recruiting 2 (Store.observing
      (.object [("self", .null), ("text", .string "old")]) {} ()) = some (.ok true, s) := by
  let run := watchInLoop.run recruiting 2 (Store.observing
    (.object [("self", .null), ("text", .string "old")]) {} ())
  have hdone : run.isSome = true := by decide +kernel
  have hresult : ∀ outcome ∈ run, outcome.1.toOption = some true := by decide +kernel
  have hentries : ∀ outcome ∈ run, outcome.2.entries ⟨0⟩ = [⟨0⟩, ⟨0⟩, ⟨1⟩, ⟨2⟩] ∧
      outcome.2.isLive ⟨1⟩ = false := by decide +kernel
  obtain ⟨⟨result, s⟩, hrun⟩ := Option.isSome_iff_exists.1 hdone
  have hok : result = .ok true := by
    have h := hresult _ hrun
    cases result with
    | ok changed => exact congrArg Except.ok (Option.some.inj h)
    | error e => cases h
  subst hok
  have hscript : watchInLoop.Asks Op.LeavesListsAlone :=
    ⟨trivial, fun _ => ⟨trivial, fun _ => ⟨trivial, fun _ => trivial⟩⟩⟩
  have hsupervised := enlisted_throughout recruiting_asks hscript 2
    (.object [("self", .null), ("text", .string "old")]) {} () fun _ => Run.diverge
  exact ⟨s, hrun, (hentries _ hrun).1, (hentries _ hrun).2, hsupervised.trans hrun⟩

end DataBinding
