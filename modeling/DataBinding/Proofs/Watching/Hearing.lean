import DataBinding.Proofs.Watching.Changes

/-!
# Watchers that are told together

Several watchers follow paths to one cell, and nobody else is in its list. `Store.Lined` says so of a store, with
the record of each of them, and `Store.Hears` says what becomes of such a group: each is called with some values
and has received them, whoever is new in the list is one of the group, and only that cell is written. What leaves
the whole group alone is the case in which nobody is called and the cell holds what it held (`Store.Spares`).

`Lined.visit_agreed` and `Lined.visit_delivered` are the two turns that a member of the group can have. If
reactions spare the group, the turns of several members come to what each of them makes of the value in the cell
(`Lined.each_meets`).
-/

set_option autoImplicit false

namespace DataBinding

variable {ρ σ : Type}

/-! ## Several calls -/

namespace Watcher

variable {w : Watcher ρ} {value : Value}

/-- What a watcher becomes that is called with some values. -/
def receives (w : Watcher ρ) (values : List Value) : Watcher ρ := values.foldl receive w

/-- To receive the values of two lists, one after the other, is to receive those of their append. -/
theorem receives_append (w : Watcher ρ) (values later : List Value) :
    w.receives (values ++ later) = (w.receives values).receives later := List.foldl_append

/-- Calls change the baseline and the counter of a watcher only. -/
theorem receives_eq (w : Watcher ρ) (values : List Value) : w.receives values =
    { w with
      baseline := (w.receives values).baseline
      fireCount := (w.receives values).fireCount } := by
  induction values generalizing w with
  | nil => rfl
  | cons value rest ih => exact ih (w.receive value)

/-- The calls leave the path as it is. -/
@[simp] theorem path_receives (w : Watcher ρ) (values : List Value) : (w.receives values).path = w.path := by
  rw [receives_eq]

/-- The calls leave the root as it is. -/
@[simp] theorem root_receives (w : Watcher ρ) (values : List Value) : (w.receives values).root = w.root := by
  rw [receives_eq]

/-- The calls leave the policy as it is. -/
@[simp] theorem policy_receives (w : Watcher ρ) (values : List Value) : (w.receives values).policy = w.policy := by
  rw [receives_eq]

/-- The calls leave the reaction as it is. -/
@[simp] theorem reaction_receives (w : Watcher ρ) (values : List Value) :
    (w.receives values).reaction = w.reaction := by
  rw [receives_eq]

/-- The calls neither dispose a watcher nor bring it back. -/
@[simp] theorem disposed_receives (w : Watcher ρ) (values : List Value) :
    (w.receives values).disposed = w.disposed := by
  rw [receives_eq]

/-- The baseline of a watcher that refreshes is the last value received. -/
theorem baseline_receives (hpolicy : w.policy = .refresh) (values : List Value) :
    (w.receives values).baseline = values.getLastD w.baseline := by
  induction values generalizing w with
  | nil => rfl
  | cons value rest ih =>
    have hbaseline : (w.receive value).baseline = value := by simp only [receive, hpolicy]
    have hrest := ih (w := w.receive value) hpolicy
    rw [hbaseline] at hrest
    rw [List.getLastD_cons]
    exact hrest

/-- A watcher is not called for a value that its baseline agrees with. -/
theorem calls_meet_agreed (hsame : value.strictEq w.baseline = true) : (w.meet value).2 = [] := by
  unfold meet
  rw [if_pos hsame]

/-- A watcher is called for a value that its baseline does not agree with. -/
theorem calls_meet_other (hother : value.strictEq w.baseline = false) : (w.meet value).2 = [value] := by
  unfold meet
  rw [if_neg (by rw [hother]; exact Bool.false_ne_true)]

/-- A refreshing watcher that has met a value knows it. -/
theorem knows_of_meet (hpolicy : w.policy = .refresh) (hself : value.strictEq value = true) :
    value.strictEq (w.receives (w.meet value).2).baseline = true := by
  rw [baseline_receives hpolicy]
  cases hsame : value.strictEq w.baseline with
  | true =>
    rw [calls_meet_agreed hsame]
    exact hsame
  | false =>
    rw [calls_meet_other hsame]
    exact hself

end Watcher

namespace Store

variable {m : Model} {cell : CellId} {group : List SubscriberId} {heard later : SubscriberId → List Value}
  {record : SubscriberId → Watcher ρ} {s s₁ s' : Store ρ σ} {id : SubscriberId} {w : Watcher ρ} {value : Value}

/-! ## What a group hears -/

/-- Each watcher of a group is called with some values, has received them, and is held as before. Whoever is new
in the list of a cell is one of the group, and nothing but the cell is written. -/
structure Hears (cell : CellId) (group : List SubscriberId) (heard : SubscriberId → List Value)
    (s s' : Store ρ σ) : Prop where
  held : ∀ id ∈ group, ∀ {handles w}, s.subscriber? id = some ⟨handles, .watching w⟩ →
    ∃ more, s'.subscriber? id = some ⟨handles + more, .watching (w.receives (heard id))⟩
  called : ∀ id ∈ group, s'.deliveries id = s.deliveries id ++ heard id
  listed : ∃ more, more ⊆ group ∧ s'.entries cell = s.entries cell ++ more
  onward : s.model.Onward (· = .cell cell) s'.model

/-- Nobody of the group is called, and the cell is not written either. -/
structure Spares (cell : CellId) (group : List SubscriberId) (s s' : Store ρ σ) : Prop where
  hears : s.Hears cell group (fun _ => []) s'
  value : (s'.model.cell cell).value = (s.model.cell cell).value

/-- One watcher is called with one value. -/
def only (id : SubscriberId) (value : Value) (other : SubscriberId) : List Value :=
  if other = id then [value] else []

/-- The one watcher is called with the value. -/
theorem only_self (id : SubscriberId) (value : Value) : only id value id = [value] := if_pos rfl

/-- Nobody else is called. -/
theorem only_of_ne {other : SubscriberId} (hne : other ≠ id) (value : Value) : only id value other = [] :=
  if_neg hne

namespace Hears

/-- A change of something other than the watchers, the list of the cell and what is outside the cell lets
nobody hear anything. -/
theorem of_same (hsubscribers : s'.subscribers = s.subscribers) (hquiet : ∀ id, s.Undelivered id s')
    (hentries : s'.entries cell = s.entries cell) (honward : s.model.Onward (· = .cell cell) s'.model) :
    s.Hears cell group (fun _ => []) s' where
  held id _ handles w hentry := by
    refine ⟨0, ?_⟩
    unfold subscriber? at hentry ⊢
    rw [hsubscribers]
    exact hentry
  called id _ := by rw [(hquiet id).deliveries, List.append_nil]
  listed := ⟨[], List.nil_subset _, by rw [hentries, List.append_nil]⟩
  onward := honward

/-- What a group hears in two changes is the append of what it hears in each. -/
theorem trans (h₁ : s.Hears cell group heard s₁) (h₂ : s₁.Hears cell group later s') :
    s.Hears cell group (fun id => heard id ++ later id) s' where
  held id hid handles w hentry := by
    obtain ⟨more, hentry₁⟩ := h₁.held id hid hentry
    obtain ⟨more₁, hentry'⟩ := h₂.held id hid hentry₁
    refine ⟨more + more₁, ?_⟩
    rw [Watcher.receives_append, ← Nat.add_assoc]
    exact hentry'
  called id hid := by rw [h₂.called id hid, h₁.called id hid, List.append_assoc]
  listed := by
    obtain ⟨more, hmore, hentries⟩ := h₁.listed
    obtain ⟨more₁, hmore₁, hentries₁⟩ := h₂.listed
    exact ⟨more ++ more₁, List.append_subset.2 ⟨hmore, hmore₁⟩, by rw [hentries₁, hentries, List.append_assoc]⟩
  onward := (h₁.onward.trans h₂.onward).mono fun _ hp => or_self_iff.1 hp

/-- A group that is spared has heard nothing more. -/
theorem spares (h₁ : s.Hears cell group heard s₁) (h₂ : s₁.Spares cell group s') :
    s.Hears cell group heard s' := by
  have h := h₁.trans h₂.hears
  simp only [List.append_nil] at h
  exact h

/-- An active watcher stays active, and has received what it heard. -/
theorem active (h : s.Hears cell group heard s') (hid : id ∈ group) (hw : s.Active id w) :
    s'.Active id (w.receives (heard id)) := by
  obtain ⟨handles, hentry, hactive⟩ := hw
  obtain ⟨more, hentry'⟩ := h.held id hid hentry
  refine ⟨handles + more, ?_, (w.disposed_receives _).trans hactive⟩
  rw [Nat.add_right_comm] at hentry'
  exact hentry'

/-- What a group hears while one of them is held. -/
theorem release (h : (s.retain id).Hears cell group heard s') (hw : s.Active id w) :
    s.Hears cell group heard (s'.release id) where
  held other hother handles v hentry := by
    by_cases hid : id = other
    · subst hid
      obtain ⟨n, hactive, -⟩ := hw
      obtain ⟨rfl, hrole⟩ := Subscriber.mk.inj (Option.some.inj (hentry.symm.trans hactive))
      obtain ⟨more, hentry'⟩ := h.held id hother (subscriber?_retain hentry)
      have hfewer : n + 2 + more - 1 = n + 1 + more := by omega
      refine ⟨more, ?_⟩
      rw [Store.release, subscriber?_updateSubscriber, if_pos rfl, hentry', Option.map_some, hfewer]
    · have hretained : (s.retain id).subscriber? other = some ⟨handles, .watching v⟩ := by
        rw [Store.retain, subscriber?_updateSubscriber, if_neg hid]
        exact hentry
      obtain ⟨more, hentry'⟩ := h.held other hother hretained
      refine ⟨more, ?_⟩
      rw [Store.release, subscriber?_updateSubscriber, if_neg hid]
      exact hentry'
  called := h.called
  listed := h.listed
  onward := h.onward

end Hears

/-- A change that leaves the subscribers, the deliveries and the model as they are spares every group. -/
theorem Spares.of_same (hsubscribers : s'.subscribers = s.subscribers) (hquiet : ∀ id, s.Undelivered id s')
    (hmodel : s'.model = s.model) : s.Spares cell group s' where
  hears := .of_same hsubscribers hquiet (by unfold entries; rw [hmodel]) (.of_eq hmodel)
  value := by rw [hmodel]

/-- No change at all spares every group. -/
theorem Spares.refl (s : Store ρ σ) : s.Spares cell group s :=
  .of_same rfl (fun _ => undelivered_of_same rfl) rfl

/-- Two changes that spare a group spare it together. -/
theorem Spares.trans (h₁ : s.Spares cell group s₁) (h₂ : s₁.Spares cell group s') : s.Spares cell group s' :=
  ⟨h₁.hears.spares h₂, h₂.value.trans h₁.value⟩

/-- An event of the journal that is no delivery spares every group. -/
theorem spares_record {event : Event} (hevent : ∀ id value, event ≠ .delivered id value) :
    s.Spares cell group (s.record event) :=
  .of_same rfl (fun id => undelivered_of_cons rfl (hevent id)) rfl

/-- A delivery lets one watcher hear the value, and nobody else. -/
theorem hears_deliverTo (hw : s.watcher? id = some w) (value : Value) :
    s.Hears cell group (only id value) (s.deliverTo id value) where
  held other _ handles v hentry := by
    refine ⟨0, ?_⟩
    by_cases hid : id = other
    · subst hid
      rw [only_self]
      exact subscriber?_updateWatcher (s := s.lookedAt id value) hentry _
    · rw [only_of_ne (Ne.symm hid)]
      exact (subscriber?_updateSubscriber (s.lookedAt id value) id other _).trans ((if_neg hid).trans hentry)
  called other _ := by
    have hupdating : s.Undelivered other (s.record (.updating id)) :=
      undelivered_of_cons rfl fun _ heq => by cases heq
    by_cases hid : other = id
    · subst hid
      rw [only_self, ← hupdating.deliveries]
      exact deliveries_of_delivered rfl
    · have hresolved : (s.record (.updating id)).Undelivered other (s.lookedAt id value) :=
        undelivered_of_cons rfl fun _ heq => by cases heq
      have hdelivered : (s.lookedAt id value).Undelivered other (s.deliverTo id value) :=
        undelivered_of_cons rfl fun _ heq => by
          cases heq
          exact hid rfl
      rw [only_of_ne hid, List.append_nil, ((hupdating.trans hresolved).trans hdelivered).deliveries]
  listed := ⟨[], List.nil_subset _, (List.append_nil _).symm⟩
  onward := .of_eq rfl

/-! ## A group in line -/

/-- The watchers of a group refresh, are active, and follow paths that have led to a cell in an earlier model,
since which nothing but the cell was written. They are in the list of the cell, one after the other, and nobody
else is. -/
structure Lined (m : Model) (cell : CellId) (group : List SubscriberId) (record : SubscriberId → Watcher ρ)
    (s : Store ρ σ) : Prop where
  ends : ∀ id ∈ group, m.EndsAt (record id).path (record id).root cell
  refreshes : ∀ id ∈ group, (record id).policy = .refresh
  active : ∀ id ∈ group, s.Active id (record id)
  listed : ∃ more, more ⊆ group ∧ s.entries cell = group ++ more
  onward : m.Onward (· = .cell cell) s.model

namespace Lined

/-- The group stays in line whatever it hears. -/
theorem hears (h : s.Lined m cell group record) (hhears : s.Hears cell group heard s') :
    s'.Lined m cell group (fun id => (record id).receives (heard id)) where
  ends id hid := by
    rw [Watcher.path_receives, Watcher.root_receives]
    exact h.ends id hid
  refreshes id hid := ((record id).policy_receives (heard id)).trans (h.refreshes id hid)
  active id hid := hhears.active hid (h.active id hid)
  listed := by
    obtain ⟨more, hmore, hentries⟩ := h.listed
    obtain ⟨more₁, hmore₁, hentries₁⟩ := hhears.listed
    exact ⟨more ++ more₁, List.append_subset.2 ⟨hmore, hmore₁⟩, by rw [hentries₁, hentries, List.append_assoc]⟩
  onward := (h.onward.trans hhears.onward).mono fun _ hp => or_self_iff.1 hp

/-- A group that is spared stays in line. -/
theorem spares (h : s.Lined m cell group record) (hspares : s.Spares cell group s') :
    s'.Lined m cell group record := h.hears hspares.hears

/-- Another handle for a subscriber leaves a group in line. -/
theorem retain (h : s.Lined m cell group record) (id : SubscriberId) : (s.retain id).Lined m cell group record :=
  ⟨h.ends, h.refreshes, fun other hother => (h.active other hother).retain id, h.listed, h.onward⟩

/-- A watcher of a group in line finds at its path what is in the cell. -/
theorem peek (h : s.Lined m cell group record) (hid : id ∈ group) :
    s.model.peek (record id).path (record id).root = .ok (s.model.cell cell).value := by
  have hends := h.ends id hid
  refine Model.peek_of_target? (Model.target?_of_onward h.onward hends.sound hends.target fun p hp heq => ?_)
  exact hends.once (heq ▸ hp)

/-- The cell that a group in line has somebody for is allocated. -/
theorem inside (h : s.Lined m cell group record) (hid : id ∈ group) : cell.index < s.model.cells.size :=
  Nat.lt_of_lt_of_le (Model.lt_size_of_target? (h.ends id hid).sound (h.ends id hid).target) h.onward.cells_le

/-! ## One turn -/

/-- In its turn a watcher that knows what is in the cell does nothing. -/
theorem visit_agreed (respond : Respond ρ σ) (h : s.Lined m cell group record) (hid : id ∈ group)
    (hsame : (s.model.cell cell).value.strictEq (record id).baseline = true) :
    ∃ s', Run.visit (Run.update respond) id s = some (.ok (), s') ∧ s.Spares cell group s' := by
  have hactive := h.active id hid
  have hretained := hactive.retain id
  have hfound : (s.retain id).model.peek (record id).path (record id).root =
    .ok (s.model.cell cell).value := h.peek hid
  refine ⟨((s.retain id).lookedAt id (s.model.cell cell).value).release id, ?_, ?_, rfl⟩
  · rw [Run.visit_live (active_iff.1 hactive).2,
      Run.update_agreed hretained.watcher? hretained.enabled hfound hsame]
    rfl
  · have hlooked : (s.retain id).Spares cell group ((s.retain id).lookedAt id (s.model.cell cell).value) :=
      (spares_record fun _ _ heq => by cases heq).trans (spares_record fun _ _ heq => by cases heq)
    exact hlooked.hears.release hactive

/-- In its turn a watcher that does not know what is in the cell is called with it, and then it is as its
reaction leaves it. -/
theorem visit_delivered {respond : Respond ρ σ} (h : s.Lined m cell group record) (hid : id ∈ group)
    (hvalue : (s.model.cell cell).value = value) (hother : value.strictEq (record id).baseline = false)
    (hreact : Run.react respond (record id).reaction value ((s.retain id).deliverTo id value) =
      some (.ok (), s'))
    (hheard : ((s.retain id).deliverTo id value).Hears cell group heard s') :
    Run.visit (Run.update respond) id s = some (.ok (), s'.release id) ∧
      s.Hears cell group (fun other => only id value other ++ heard other) (s'.release id) := by
  subst hvalue
  have hactive := h.active id hid
  have hretained := hactive.retain id
  have hfound : (s.retain id).model.peek (record id).path (record id).root =
    .ok (s.model.cell cell).value := h.peek hid
  refine ⟨?_, ((hears_deliverTo hretained.watcher? _).trans hheard).release hactive⟩
  rw [Run.visit_live (active_iff.1 hactive).2,
    Run.update_delivered hretained.watcher? hretained.enabled hfound hother, hreact]
  rfl

end Lined

end Store

/-! ## Several turns -/

/-- A reaction to what is in a cell comes back without an error and spares a group, in all models that have come
of one by writing the cell. -/
def Run.Calm (respond : Respond ρ σ) (m : Model) (cell : CellId) (group : List SubscriberId)
    (reaction : Reaction ρ) (value : Value) : Prop :=
  ∀ s : Store ρ σ, m.Onward (· = .cell cell) s.model → (s.model.cell cell).value = value →
    ∃ s', Run.react respond reaction value s = some (.ok (), s') ∧ s.Spares cell group s'

namespace Store.Lined

variable {m : Model} {cell : CellId} {group items : List SubscriberId} {record : SubscriberId → Watcher ρ}
  {s : Store ρ σ} {id : SubscriberId} {value : Value} {respond : Respond ρ σ}

/-- In its turn a watcher meets what is in the cell, if its reaction to it spares the group. -/
theorem visit_meets (h : s.Lined m cell group record) (hid : id ∈ group)
    (hvalue : (s.model.cell cell).value = value) (hcalm : Run.Calm respond m cell group (record id).reaction value) :
    ∃ heard s', Run.visit (Run.update respond) id s = some (.ok (), s') ∧ s.Hears cell group heard s' ∧
      (s'.model.cell cell).value = value ∧ heard id = ((record id).meet value).2 ∧
      ∀ other, other ≠ id → heard other = [] := by
  cases hsame : value.strictEq (record id).baseline with
  | true =>
    obtain ⟨s', hvisit, hspares⟩ := h.visit_agreed respond hid (hvalue.symm ▸ hsame)
    exact ⟨_, s', hvisit, hspares.hears, hspares.value.trans hvalue, (Watcher.calls_meet_agreed hsame).symm,
      fun _ _ => rfl⟩
  | false =>
    obtain ⟨s', hreact, hspares⟩ := hcalm ((s.retain id).deliverTo id value) h.onward hvalue
    obtain ⟨hvisit, hhears⟩ := h.visit_delivered hid hvalue hsame hreact hspares.hears
    refine ⟨_, _, hvisit, hhears, hspares.value.trans hvalue, ?_, fun other hne => ?_⟩
    · rw [only_self, List.append_nil, Watcher.calls_meet_other hsame]
    · rw [only_of_ne hne, List.append_nil]

/-- In a part of a cycle in which everybody has one turn all meet what is in the cell, if their reactions spare
the group. -/
theorem each_meets (h : s.Lined m cell group record) (hitems : items ⊆ group) (honce : items.Nodup)
    (hvalue : (s.model.cell cell).value = value)
    (hcalm : ∀ id ∈ items, Run.Calm respond m cell group (record id).reaction value) :
    ∃ heard s', Run.each items (Run.visit (Run.update respond)) s = some (.ok (), s') ∧
      s.Hears cell group heard s' ∧ (s'.model.cell cell).value = value ∧
      (∀ id ∈ items, heard id = ((record id).meet value).2) ∧ ∀ id ∉ items, heard id = [] := by
  induction items generalizing s record with
  | nil =>
    exact ⟨_, s, rfl, (Spares.refl s).hears, hvalue, fun _ hmem => absurd hmem List.not_mem_nil, fun _ _ => rfl⟩
  | cons id rest ih =>
    obtain ⟨hid, hrest⟩ := List.cons_subset.1 hitems
    obtain ⟨hnew, honce⟩ := List.nodup_cons.1 honce
    obtain ⟨first, s₁, hvisit, hfirst, hvalue₁, hmet, hothers⟩ :=
      h.visit_meets hid hvalue (hcalm id List.mem_cons_self)
    -- The others have the record that they had.
    have hsame : ∀ other ∈ rest, (record other).receives (first other) = record other := fun other hmem => by
      rw [hothers other fun heq => hnew (heq ▸ hmem)]
      rfl
    obtain ⟨later, s', heach, hlater, hvalue', hmet', hothers'⟩ := ih (h.hears hfirst) hrest honce hvalue₁
      fun other hmem => by
        rw [hsame other hmem]
        exact hcalm other (List.mem_cons_of_mem id hmem)
    refine ⟨_, s', Run.each_cons_of_ok hvisit heach, hfirst.trans hlater, hvalue', fun other hmem => ?_,
      fun other hmem => ?_⟩
    · rcases List.mem_cons.1 hmem with rfl | hmem
      · rw [hmet, hothers' other hnew, List.append_nil]
      · rw [hothers other fun heq => hnew (heq ▸ hmem), List.nil_append, hmet' other hmem, hsame other hmem]
    · rw [hothers other fun heq => hmem (heq ▸ List.mem_cons_self),
        hothers' other fun hin => hmem (List.mem_cons_of_mem id hin), List.nil_append]

/-- Members of the group who know what is in the cell do nothing, however many turns they have. -/
theorem each_agreed (respond : Respond ρ σ) (h : s.Lined m cell group record) (hitems : items ⊆ group)
    (hknown : ∀ id ∈ group, (s.model.cell cell).value.strictEq (record id).baseline = true) :
    ∃ s', Run.each items (Run.visit (Run.update respond)) s = some (.ok (), s') ∧ s.Spares cell group s' := by
  induction items generalizing s with
  | nil => exact ⟨s, rfl, .refl s⟩
  | cons id rest ih =>
    obtain ⟨hid, hrest⟩ := List.cons_subset.1 hitems
    obtain ⟨s₁, hvisit, hfirst⟩ := h.visit_agreed respond hid (hknown id hid)
    obtain ⟨s', heach, hlater⟩ := ih (h.spares hfirst) hrest (by rw [hfirst.value]; exact hknown)
    exact ⟨s', Run.each_cons_of_ok hvisit heach, hfirst.trans hlater⟩

end Store.Lined

end DataBinding
