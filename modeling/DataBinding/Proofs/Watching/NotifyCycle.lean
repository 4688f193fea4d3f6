import DataBinding.Proofs.Runs.Discipline
import DataBinding.Proofs.Watching.Entries

/-!
# What a notify cycle does, whatever its updates do

While a cycle goes through the list of a cell, the updates that it calls may start cycles over the same
list, add entries to it, and dispose or let go of anybody. From outside, only two things can happen to a
list: entries join it at its end, and a cycle drops those that are not live. `Traffic` is what comes of
any number of these, one after the other and nested in one another; it says who joined, and in what order.

Two facts hold of all traffic, by induction on it. The live entries at the end are those that were there
at the start or joined, in that order (`Traffic.live_entries`). And nobody else is in the list
(`Traffic.entries_sublist`). They need that whoever is not live stays so (`Store.Steady`): otherwise an
entry could be dropped and its subscriber become live again.

`Run.Cycle` is the cycle itself: one turn for each entry of the list as it was after pruning, each with the
store of that moment. `Cycle.traffic` composes the traffic of the updates that a cycle calls, so the cycle
is itself traffic, and the contract that `notify_cycle` asks of updates is one that updates which notify
again can meet. `Host.subscribing` shows that the updates of the library meet it.
-/

set_option autoImplicit false

namespace DataBinding

namespace Store

variable {ρ σ : Type} {s s' s₁ s₂ : Store ρ σ}

/-- Every subscriber that is named in a list or in the collector slot is there. -/
structure Known (s : Store ρ σ) : Prop where
  entries : ∀ {cell id}, id ∈ s.entries cell → id.index < s.subscribers.size
  collector : ∀ {id}, s.collector = some id → id.index < s.subscribers.size

/-- Subscribers stay, those who are named are there, and whoever is not live stays so. -/
structure Steady (s s' : Store ρ σ) : Prop where
  size_le : s.subscribers.size ≤ s'.subscribers.size
  known : s.Known → s'.Known
  live : ∀ {id}, id.index < s.subscribers.size → s'.isLive id = true → s.isLive id = true

/-- Two steady changes are steady together. -/
theorem Steady.trans (h₁ : s.Steady s₁) (h₂ : s₁.Steady s₂) : s.Steady s₂ where
  size_le := Nat.le_trans h₁.size_le h₂.size_le
  known hknown := h₂.known (h₁.known hknown)
  live hold hlive := h₁.live hold (h₂.live (Nat.lt_of_lt_of_le hold h₁.size_le) hlive)

/-- Names are known if they are so cell by cell. -/
theorem Known.of_cells (hcells : ∀ cell ∈ s.model.cells, ∀ id ∈ cell.subscribers,
      id.index < s.subscribers.size)
    (hcollector : ∀ id ∈ s.collector, id.index < s.subscribers.size) : s.Known where
  entries {cell id} hid := by
    by_cases hlt : cell.index < s.model.cells.size
    · have hcell : s.model.cell cell ∈ s.model.cells := by
        simp [Model.cell, hlt]
      exact hcells _ hcell id hid
    · unfold Store.entries at hid
      rw [Model.subscribers_of_le (Nat.le_of_not_lt hlt)] at hid
      cases hid
  collector hslot := hcollector _ hslot

/-- Those who are known stay known when only known ones join. -/
theorem Known.of_entries (hknown : s.Known) (hsize : s.subscribers.size ≤ s'.subscribers.size)
    (hentries : ∀ cell, ∀ id ∈ s'.entries cell, id ∈ s.entries cell ∨ id.index < s'.subscribers.size)
    (hcollector : ∀ id, s'.collector = some id →
      s.collector = some id ∨ id.index < s'.subscribers.size) : s'.Known where
  entries {cell id} hid := by
    rcases hentries cell id hid with hid | hlt
    · exact Nat.lt_of_lt_of_le (hknown.entries hid) hsize
    · exact hlt
  collector {id} hslot := by
    rcases hcollector id hslot with hslot | hlt
    · exact Nat.lt_of_lt_of_le (hknown.collector hslot) hsize
    · exact hlt

/-- Every step is steady. -/
theorem steady_of_step (hstep : Step s s') : s.Steady s' where
  size_le := size_le_of_step hstep
  known hknown := by
    refine hknown.of_entries (size_le_of_step hstep) ?_ ?_
    · intro cell id hid
      rcases entries_of_step hstep cell with hpruned | ⟨added, hadded, hnew⟩
      · rw [hpruned] at hid
        exact .inl (List.mem_filter.1 hid).1
      · rw [hadded] at hid
        rcases List.mem_append.1 hid with hid | hid
        · exact .inl hid
        · refine .inr ?_
          rcases hnew id hid with hslot | ⟨rfl, hsize⟩
          · exact Nat.lt_of_lt_of_le (hknown.collector hslot) (size_le_of_step hstep)
          · rw [hsize]
            exact Nat.lt_succ_self _
    · intro id hslot
      rw [collector_of_step hstep] at hslot
      exact .inl hslot
  live hold hlive := isLive_of_step hstep hold hlive

end Store

variable {ρ σ : Type} {s s' s₁ : Store ρ σ} {cell : CellId} {added : List SubscriberId}

/-! ## Traffic -/

/-- What can happen to the list of a cell, with those who join it on the way. -/
inductive Traffic (cell : CellId) : List SubscriberId → Store ρ σ → Store ρ σ → Prop where
  /-- Some join, or nobody does. -/
  | joined {added : List SubscriberId} {s s' : Store ρ σ}
      (hentries : s'.entries cell = s.entries cell ++ added) (hsteady : s.Steady s') :
      Traffic cell added s s'
  /-- Those who are not live are dropped. -/
  | pruned {s s' : Store ρ σ} (hentries : s'.entries cell = (s.entries cell).filter s.isLive)
      (hsteady : s.Steady s') : Traffic cell [] s s'
  | andThen {first second : List SubscriberId} {s₁ s₂ s₃ : Store ρ σ} :
      Traffic cell first s₁ s₂ → Traffic cell second s₂ s₃ → Traffic cell (first ++ second) s₁ s₃

namespace Traffic

/-- Traffic of any kind is steady. -/
theorem steady (h : Traffic cell added s s') : s.Steady s' := by
  induction h with
  | joined _ hsteady => exact hsteady
  | pruned _ hsteady => exact hsteady
  | andThen _ _ ih₁ ih₂ => exact ih₁.trans ih₂

/-- Whoever joins is there. -/
theorem added_lt (h : Traffic cell added s s') (hknown : s.Known) :
    ∀ id ∈ added, id.index < s'.subscribers.size := by
  induction h with
  | joined hentries hsteady =>
    intro id hid
    apply (hsteady.known hknown).entries
    rw [hentries]
    exact List.mem_append_right _ hid
  | pruned => simp
  | andThen h₁ h₂ ih₁ ih₂ =>
    intro id hid
    rcases List.mem_append.1 hid with hid | hid
    · exact Nat.lt_of_lt_of_le (ih₁ hknown id hid) h₂.steady.size_le
    · exact ih₂ (h₁.steady.known hknown) id hid

/-- Those who are live at the end were live before, so dropping the others first changes nothing. -/
theorem filter_filter_live {ids : List SubscriberId} (hsteady : s.Steady s')
    (hids : ∀ id ∈ ids, id.index < s.subscribers.size) :
    (ids.filter s.isLive).filter s'.isLive = ids.filter s'.isLive := by
  rw [List.filter_filter]
  refine List.filter_congr fun id hid => ?_
  cases hlive : s'.isLive id with
  | false => rfl
  | true => rw [hsteady.live (hids id hid) hlive, Bool.and_true]

/-- The live entries at the end are those that were there at the start or joined. -/
theorem live_entries (h : Traffic cell added s s') (hknown : s.Known) :
    (s'.entries cell).filter s'.isLive = (s.entries cell ++ added).filter s'.isLive := by
  induction h with
  | joined hentries hsteady => rw [hentries]
  | pruned hentries hsteady =>
    rw [hentries, List.append_nil]
    exact filter_filter_live hsteady fun id hid => hknown.entries hid
  | @andThen first second s₁ s₂ s₃ h₁ h₂ ih₁ ih₂ =>
    have hknown₂ := h₁.steady.known hknown
    have hbefore : ∀ id ∈ s₁.entries cell ++ first, id.index < s₂.subscribers.size := by
      intro id hid
      rcases List.mem_append.1 hid with hid | hid
      · exact Nat.lt_of_lt_of_le (hknown.entries hid) h₁.steady.size_le
      · exact h₁.added_lt hknown id hid
    have hbetween : (s₂.entries cell).filter s₃.isLive = (s₁.entries cell ++ first).filter s₃.isLive := by
      calc (s₂.entries cell).filter s₃.isLive
          = ((s₂.entries cell).filter s₂.isLive).filter s₃.isLive :=
            (filter_filter_live h₂.steady fun id hid => hknown₂.entries hid).symm
        _ = ((s₁.entries cell ++ first).filter s₂.isLive).filter s₃.isLive := by rw [ih₁ hknown]
        _ = (s₁.entries cell ++ first).filter s₃.isLive := filter_filter_live h₂.steady hbefore
    rw [ih₂ hknown₂, List.filter_append, hbetween, ← List.filter_append, List.append_assoc]

/-- Nobody is in the list at the end who was not there at the start and did not join. -/
theorem entries_sublist (h : Traffic cell added s s') :
    (s'.entries cell).Sublist (s.entries cell ++ added) := by
  induction h with
  | joined hentries => exact hentries ▸ List.Sublist.refl _
  | pruned hentries =>
    rw [hentries, List.append_nil]
    exact List.filter_sublist
  | andThen _ _ ih₁ ih₂ =>
    rw [← List.append_assoc]
    exact ih₂.trans (ih₁.append_right _)

/-- Nobody joins along a step that leaves the list as it is. -/
theorem of_step (hstep : Step s s') (hentries : s'.entries cell = s.entries cell) :
    Traffic cell [] s s' :=
  .joined (by rw [hentries, List.append_nil]) (Store.steady_of_step hstep)

end Traffic

/-! ## Cycles -/

namespace Run

/-- The turn of an entry in a cycle. -/
structure Cycle.Turn (ρ σ : Type) where
  subscriber : SubscriberId
  /-- The store when the turn comes. -/
  before : Store ρ σ

namespace Cycle.Turn

/-- Whether the subscriber is live when its turn comes. -/
def isLive (turn : Turn ρ σ) : Bool := turn.before.isLive turn.subscriber

/-- The store in which the update of the subscriber starts. -/
def held (turn : Turn ρ σ) : Store ρ σ := turn.before.retain turn.subscriber

end Cycle.Turn

variable {tell : SubscriberId → Run ρ σ Unit} {turns : List (Cycle.Turn ρ σ)}
  {result : Except Error Unit}

/-- The turns of a cycle. An entry that is live when its turn comes is updated, and held while it is;
another one is passed over. The first update that fails is the last turn. -/
inductive Cycle (tell : SubscriberId → Run ρ σ Unit) :
    List (Cycle.Turn ρ σ) → Store ρ σ → Except Error Unit → Store ρ σ → Prop where
  | finished (s : Store ρ σ) : Cycle tell [] s (.ok ()) s
  | passedOver {id : SubscriberId} {turns : List (Cycle.Turn ρ σ)} {s s' : Store ρ σ}
      {result : Except Error Unit} (hlive : s.isLive id = false) :
      Cycle tell turns s result s' → Cycle tell (⟨id, s⟩ :: turns) s result s'
  | updated {id : SubscriberId} {turns : List (Cycle.Turn ρ σ)} {s s₁ s' : Store ρ σ}
      {result : Except Error Unit} (hlive : s.isLive id = true)
      (htell : tell id (s.retain id) = some (.ok (), s₁)) :
      Cycle tell turns (s₁.release id) result s' → Cycle tell (⟨id, s⟩ :: turns) s result s'
  | failed {id : SubscriberId} {s s₁ : Store ρ σ} {e : Error} (hlive : s.isLive id = true)
      (htell : tell id (s.retain id) = some (.error e, s₁)) :
      Cycle tell [⟨id, s⟩] s (.error e) (s₁.release id)

/-- Going through a list is a cycle over it, up to the entry whose update fails. -/
theorem cycle_of_each (ids : List SubscriberId) (hrun : each ids (visit tell) s = some (result, s')) :
    ∃ turns, Cycle tell turns s result s' ∧ turns.map Cycle.Turn.subscriber <+: ids ∧
      (result = .ok () → turns.map Cycle.Turn.subscriber = ids) := by
  induction ids generalizing s with
  | nil =>
    cases hrun
    exact ⟨[], .finished _, List.prefix_refl _, fun _ => rfl⟩
  | cons id rest ih =>
    obtain ⟨e, hvisit, rfl⟩ | ⟨⟨⟩, s₁, hvisit, hrest⟩ := bind_cases hrun
    · -- Whoever is passed over does not fail.
      cases hlive : s.isLive id with
      | false =>
        rw [visit_dead hlive] at hvisit
        cases hvisit
      | true =>
        obtain ⟨t, htell, rfl⟩ := told_of_visit hlive hvisit
        refine ⟨[⟨id, s⟩], .failed hlive htell, ?_, fun hok => by cases hok⟩
        exact (List.prefix_cons_inj id).2 List.nil_prefix
    · obtain ⟨turns, hcycle, hprefix, hall⟩ := ih hrest
      refine ⟨⟨id, s⟩ :: turns, ?_, (List.prefix_cons_inj id).2 hprefix, fun hok => ?_⟩
      · cases hlive : s.isLive id with
        | false =>
          rw [visit_dead hlive] at hvisit
          cases hvisit
          exact .passedOver hlive hcycle
        | true =>
          obtain ⟨t, htell, rfl⟩ := told_of_visit hlive hvisit
          exact .updated hlive htell hcycle
      · rw [List.map_cons, hall hok]

/-- A cycle that fails ends with the turn whose update failed. -/
theorem Cycle.last_of_error {e : Error} (h : Cycle tell turns s (.error e) s') :
    ∃ last s₁, turns.getLast? = some last ∧ last.isLive = true ∧
      tell last.subscriber last.held = some (.error e, s₁) := by
  generalize hresult : Except.error e = result at h
  induction h with
  | finished s => cases hresult
  | passedOver hlive _ ih =>
    obtain ⟨last, s₁, hlast, hrest⟩ := ih hresult
    exact ⟨last, s₁, by rw [List.getLast?_cons, hlast]; rfl, hrest⟩
  | updated hlive htell _ ih =>
    obtain ⟨last, s₁, hlast, hrest⟩ := ih hresult
    exact ⟨last, s₁, by rw [List.getLast?_cons, hlast]; rfl, hrest⟩
  | failed hlive htell =>
    cases hresult
    exact ⟨_, _, rfl, hlive, htell⟩

/-- What an update does to the list of a cell is traffic in which those join whom `added` says: `added id s`
is for the update of `id` that starts in `s`. It is asked of the stores in which everybody is there who is
so in the store `start`. -/
def Subscribing (start : Store ρ σ) (cell : CellId) (tell : SubscriberId → Run ρ σ Unit)
    (added : SubscriberId → Store ρ σ → List SubscriberId) : Prop :=
  ∀ id s result s', start.subscribers.size ≤ s.subscribers.size → s.Known →
    tell id s = some (result, s') → Traffic cell (added id s) s s'

/-- Those who join during the turns of a cycle. -/
def joining (added : SubscriberId → Store ρ σ → List SubscriberId) (turns : List (Cycle.Turn ρ σ)) :
    List SubscriberId :=
  (turns.filter Cycle.Turn.isLive).flatMap fun turn => added turn.subscriber turn.held

variable {added : SubscriberId → Store ρ σ → List SubscriberId} {start : Store ρ σ}

/-- A cycle is traffic, by induction on its turns. -/
theorem Cycle.traffic (htell : Subscribing start cell tell added) (h : Cycle tell turns s result s')
    (hsize : start.subscribers.size ≤ s.subscribers.size) (hknown : s.Known) :
    Traffic cell (joining added turns) s s' := by
  -- What one update does, from the taking hold of its subscriber to the letting go.
  have hvisit : ∀ {id s s₁ outcome}, start.subscribers.size ≤ s.subscribers.size → s.Known →
      tell id (s.retain id) = some (outcome, s₁) →
      Traffic cell (added id (s.retain id)) s (s₁.release id) := by
    intro id s s₁ outcome hsize hknown hrun
    have hretain : Traffic cell [] s (s.retain id) := .of_step (.retained s id) rfl
    have hsize' := Nat.le_trans hsize hretain.steady.size_le
    have hupdate := htell id _ _ _ hsize' (hretain.steady.known hknown) hrun
    have hrelease : Traffic cell [] s₁ (s₁.release id) := .of_step (.released s₁ id) rfl
    simpa using (hretain.andThen hupdate).andThen hrelease
  induction h with
  | finished s => exact .joined (by simp [joining]) ⟨Nat.le_refl _, id, fun _ hlive => hlive⟩
  | @passedOver id turns s s' result hlive _ ih =>
    have hdead : Cycle.Turn.isLive ⟨id, s⟩ = false := hlive
    have hjoining : joining added (⟨id, s⟩ :: turns) = joining added turns := by
      simp [joining, hdead]
    rw [hjoining]
    exact ih hsize hknown
  | @updated id turns s s₁ s' result hlive hrun _ ih =>
    have hturn := hvisit hsize hknown hrun
    have hlive' : Cycle.Turn.isLive ⟨id, s⟩ = true := hlive
    have hjoining : joining added (⟨id, s⟩ :: turns) =
        added id (s.retain id) ++ joining added turns := by
      simp [joining, hlive', Cycle.Turn.held]
    rw [hjoining]
    exact hturn.andThen (ih (Nat.le_trans hsize hturn.steady.size_le) (hturn.steady.known hknown))
  | @failed id s s₁ e hlive hrun =>
    have hlive' : Cycle.Turn.isLive ⟨id, s⟩ = true := hlive
    have hjoining : joining added [⟨id, s⟩] = added id (s.retain id) := by
      simp [joining, hlive', Cycle.Turn.held]
    rw [hjoining]
    exact hvisit hsize hknown hrun

/-! ## The cycle of a notify -/

/-- What a notify of a cell has done when it comes back, told by the turns of its cycle. -/
structure Notified (tell : SubscriberId → Run ρ σ Unit) (cell : CellId)
    (added : SubscriberId → Store ρ σ → List SubscriberId) (turns : List (Cycle.Turn ρ σ))
    (s : Store ρ σ) (result : Except Error Unit) (s' : Store ρ σ) : Prop where
  /-- The turns come one after the other, from the pruned list on, and those who are live are updated. -/
  cycle : Cycle tell turns (s.prune cell) result s'
  /-- The turns are those of the entries that were live at the start, in their order. -/
  turns_prefix : turns.map Cycle.Turn.subscriber <+: (s.entries cell).filter s.isLive
  /-- Each of these entries has its turn, unless an update fails. -/
  turns_eq : result = .ok () → turns.map Cycle.Turn.subscriber = (s.entries cell).filter s.isLive
  /-- If an update fails, its turn is the last, and its error is the result. -/
  last : ∀ e, result = .error e → ∃ turn s₁, turns.getLast? = some turn ∧ turn.isLive = true ∧
    tell turn.subscriber turn.held = some (.error e, s₁)
  /-- Whoever was in the list or joined it, and is still live, is in it: in that order, and as often. -/
  live_entries : (s'.entries cell).filter s'.isLive =
    (s.entries cell ++ joining added turns).filter s'.isLive
  /-- Nobody else is, and no entry that was not live at the start. -/
  entries_sublist : (s'.entries cell).Sublist ((s.entries cell).filter s.isLive ++ joining added turns)

end Run

/-! ## Updates of the library -/

/-- An operation that a host may ask for if it knows the first `n` subscribers: it subscribes nobody else
by hand, and it switches nobody on. -/
def Op.SteadyFor (n : Nat) : Op ρ σ → Prop
  | .subscribe _ id => id.index < n
  | .collect slot => ∀ id ∈ slot, id.index < n
  | .setActive _ active => active = false
  | _ => True

namespace Traffic

/-- Traffic of any kind, once so many subscribers are there. -/
def Along (n : Nat) (cell : CellId) (s s' : Store ρ σ) : Prop :=
  s.subscribers.size ≤ s'.subscribers.size ∧
    (n ≤ s.subscribers.size → ∃ added, Traffic cell added s s')

variable {n : Nat}

/-- Traffic with known newcomers is traffic of some kind. -/
theorem Along.of_traffic (h : Traffic cell added s s') : Along n cell s s' :=
  ⟨h.steady.size_le, fun _ => ⟨added, h⟩⟩

/-- Steps are traffic. -/
theorem along (n : Nat) (cell : CellId) : Discipline (Along n cell : Store ρ σ → Store ρ σ → Prop) where
  refl s := Along.of_traffic
    (.joined (List.append_nil _).symm ⟨Nat.le_refl _, id, fun _ hlive => hlive⟩)
  trans h₁ h₂ := by
    refine ⟨Nat.le_trans h₁.1 h₂.1, fun hn => ?_⟩
    obtain ⟨first, hfirst⟩ := h₁.2 hn
    obtain ⟨second, hsecond⟩ := h₂.2 (Nat.le_trans hn h₁.1)
    exact ⟨first ++ second, hfirst.andThen hsecond⟩
  step hstep := by
    have hsteady := Store.steady_of_step hstep
    rcases Store.entries_of_step hstep cell with hpruned | ⟨added, hadded, -⟩
    · exact Along.of_traffic (.pruned hpruned hsteady)
    · exact Along.of_traffic (.joined hadded hsteady)

/-- So is the storing of a value. -/
theorem along_write (n : Nat) (cell : CellId) :
    WriteDiscipline (Along n cell : Store ρ σ → Store ρ σ → Prop) := by
  refine .of_storing (along n cell) fun s target value => ?_
  have hentries := Store.entries_storeCell s target value
  have hsteady : s.Steady (s.storeCell target value) := by
    refine ⟨Nat.le_refl _, fun hknown => ?_, fun _ hlive => hlive⟩
    refine hknown.of_entries (Nat.le_refl _) (fun cell id hid => ?_) fun id hslot => .inl hslot
    rw [hentries] at hid
    exact .inl hid
  have htraffic : Traffic cell [] s (s.storeCell target value) :=
    .joined (by rw [hentries, List.append_nil]) hsteady
  exact .of_traffic htraffic

/-- And so is what a host does by hand, as far as it is allowed to. -/
theorem along_byHand {op : Op ρ σ} (hop : op.SteadyFor n) (hhand : op.isByHand = true)
    (respond : Respond ρ σ) (depth : Nat) (s : Store ρ σ) :
    Run.Keeps (Along n cell) s (Run.perform respond depth op) := by
  cases op with
  | subscribe target id =>
    have hmodel : (s.withModel (·.subscribe target id)).model =
        [target].foldl (fun m cell => m.subscribe cell id) s.model := rfl
    refine Run.keeps_change ⟨Nat.le_refl _, fun hn => ?_⟩
    obtain ⟨count, hcount⟩ := Store.entries_subscribeAll hmodel cell
    refine ⟨_, .joined hcount ⟨Nat.le_refl _, fun hknown => ?_, fun _ h => h⟩⟩
    refine hknown.of_entries (Nat.le_refl _) (fun other entry hentry => ?_) fun _ hslot => .inl hslot
    obtain ⟨count, hcount⟩ := Store.entries_subscribeAll hmodel other
    rw [hcount] at hentry
    rcases List.mem_append.1 hentry with hold | hnew
    · exact .inl hold
    · rw [(List.mem_replicate.1 hnew).2]
      exact .inr (Nat.lt_of_lt_of_le hop hn)
  | collect slot =>
    refine Run.keeps_change ⟨Nat.le_refl _, fun hn => ⟨[], ?_⟩⟩
    refine .joined (List.append_nil _).symm ⟨Nat.le_refl _, fun hknown => ?_, fun _ h => h⟩
    refine hknown.of_entries (Nat.le_refl _) (fun _ _ hid => .inl hid) fun id hslot => .inr ?_
    exact Nat.lt_of_lt_of_le (hop id hslot) hn
  | setActive id active =>
    obtain rfl : active = false := hop
    have hsize : (s.setActive id false).subscribers.size = s.subscribers.size := by
      simp [Store.setActive, Store.updateSubscriber]
    have hsteady : s.Steady (s.setActive id false) := by
      refine ⟨Nat.le_of_eq hsize.symm, fun hknown => ?_, fun _ hlive => Store.isLive_of_switchOff hlive⟩
      exact hknown.of_entries (Nat.le_of_eq hsize.symm) (fun _ _ h => .inl h) fun _ h => .inl h
    have htraffic : Traffic cell [] s (s.setActive id false) :=
      .joined (List.append_nil _).symm hsteady
    exact Run.keeps_change (.of_traffic htraffic)
  | _ => cases hhand

end Traffic

/-- The updates of the library change lists as `notify_cycle` asks, whatever the reactions of the host are,
as long as they switch nobody on and subscribe by hand only those whom the host knows. -/
theorem Host.subscribing {n : Nat} {host : Host ρ σ} (hhost : host.Asks (Op.SteadyFor n)) (depth : Nat)
    (start : Store ρ σ) (hn : n ≤ start.subscribers.size) (cell : CellId) :
    ∃ added, Run.Subscribing start cell (Run.update (host.respond depth)) added := by
  have hrespond : Respond.Keeps (Traffic.Along n cell) (host.respond depth) :=
    Host.keeps_respond (Traffic.along_write n cell)
      (fun op hop hhand => Traffic.along_byHand hop hhand) hhost depth
  have htraffic : ∀ id s, ∃ added, ∀ result s', start.subscribers.size ≤ s.subscribers.size →
      Run.update (host.respond depth) id s = some (result, s') → Traffic cell added s s' := by
    -- Those who join can be told only once the update has come back; otherwise nobody is named.
    intro id s
    cases hrun : Run.update (host.respond depth) id s with
    | none => exact ⟨[], fun _ _ _ h => by cases h⟩
    | some outcome =>
      have hkeeps := Run.keeps_update (Traffic.along n cell) hrespond id _ _ hrun
      by_cases hsize : start.subscribers.size ≤ s.subscribers.size
      · obtain ⟨added, hadded⟩ := hkeeps.2 (Nat.le_trans hn hsize)
        refine ⟨added, fun result s' _ h => ?_⟩
        cases h
        exact hadded
      · exact ⟨[], fun _ _ h => absurd h hsize⟩
  refine ⟨fun id s => (htraffic id s).choose, fun id s result s' hsize _ hrun => ?_⟩
  exact (htraffic id s).choose_spec result s' hsize hrun

/-! ## The cycle of a notify -/

namespace Run

variable {tell : SubscriberId → Run ρ σ Unit} {result : Except Error Unit}
  {added : SubscriberId → Store ρ σ → List SubscriberId}

/-- A notify goes once through the list as it was when it started, whatever the updates that it calls do
to that list. -/
theorem notify_cycle (htell : Subscribing s cell tell added) (hknown : s.Known)
    (hrun : notify tell cell s = some (result, s')) :
    ∃ turns, Notified tell cell added turns s result s' := by
  have hpruned : (s.prune cell).entries cell = (s.entries cell).filter s.isLive := by
    rw [Store.entries_prune, if_pos rfl]
  have hprune : Traffic cell [] s (s.prune cell) :=
    .pruned hpruned (Store.steady_of_step (.pruned s cell))
  have hrun : each ((s.prune cell).entries cell) (visit tell) (s.prune cell) = some (result, s') := hrun
  obtain ⟨turns, hcycle, hprefix, hall⟩ := cycle_of_each _ hrun
  rw [hpruned] at hprefix hall
  have hknown' : (s.prune cell).Known := hprune.steady.known hknown
  have hturns : Traffic cell (joining added turns) (s.prune cell) s' :=
    hcycle.traffic htell hprune.steady.size_le hknown'
  refine ⟨turns, hcycle, hprefix, hall, ?_, ?_, ?_⟩
  · intro e he
    subst he
    exact hcycle.last_of_error
  · have htraffic := hprune.andThen hturns
    rw [List.nil_append] at htraffic
    exact htraffic.live_entries hknown
  · have hsublist := hturns.entries_sublist
    rw [hpruned] at hsublist
    exact hsublist

/-! A cycle that its updates tamper with. -/

/-- What the subscribers of `crowd` do when they are notified. -/
inductive Manner where
  | meddles | leaves | fails

/-- A host whose first subscriber that meddles joins the list once more, disposes a watcher that is still
to come, notifies the cell again and adds a watcher. -/
def meddling : Host Manner Bool where
  script manner _ :=
    match manner with
    | .meddles => .ask .look fun
      | .error e => .fail e
      | .ok s =>
        if s.host then .done (.ok ())
        else do
          Script.perform (.setHost true)
          Script.perform (.subscribe ⟨0⟩ ⟨0⟩)
          Script.perform (.dispose ⟨3⟩)
          let _ ← Script.attempt (Script.perform (.notify ⟨0⟩))
          let _ ← Script.perform (.watch (.object ⟨0⟩) ⟨[], "x"⟩ .refresh .leaves)
    | .leaves => Script.perform (.release ⟨2⟩)
    | .fails => .fail .notReactive

/-- A cell with six entries: one subscriber has two, and one is dead. -/
def crowd : Store Manner Bool where
  model := {
    objects := #[[("x", .reactive ⟨0⟩)]]
    cells := #[{ subscribers := [⟨0⟩, ⟨1⟩, ⟨0⟩, ⟨2⟩, ⟨3⟩, ⟨4⟩] }] }
  subscribers := #[⟨1, .hosted true .meddles⟩, ⟨0, .hosted true .leaves⟩, ⟨1, .hosted true .leaves⟩,
    ⟨1, .watching {
      root := .object ⟨0⟩, path := ⟨[], "x"⟩, policy := .refresh, reaction := .hosted .leaves }⟩,
    ⟨1, .hosted true .fails⟩]
  host := false

/-- The meddling host asks only for what is steady. -/
theorem meddling_asks : meddling.Asks (Op.SteadyFor 5) := by
  intro manner stimulus
  cases manner with
  | meddles =>
    refine ⟨trivial, fun answer => ?_⟩
    cases answer with
    | error e => trivial
    | ok s =>
      dsimp only
      split
      · trivial
      · refine ⟨trivial, fun answer => ?_⟩
        cases answer with
        | error e => trivial
        | ok _ =>
          have hknown : (0 : Nat) < 5 := by omega
          refine ⟨hknown, fun answer => ?_⟩
          cases answer with
          | error e => trivial
          | ok _ =>
            refine ⟨trivial, fun answer => ?_⟩
            cases answer with
            | error e => trivial
            | ok _ =>
              refine ⟨trivial, fun answer => ⟨trivial, fun answer => ?_⟩⟩
              cases answer with
              | error e => trivial
              | ok _ => trivial
  | leaves => exact ⟨trivial, fun _ => trivial⟩
  | fails => trivial

/-- The error that something came back with. -/
def errorOf : Except Error Unit → Option Error
  | .ok _ => none
  | .error e => some e

/-- Each of the five live entries has its turn, whatever the nested cycle does; the two who joined are in
the list, and so is the one that has died since. -/
theorem notify_cycle_of_crowd : ∃ added turns s',
    notify (update (meddling.respond 3)) ⟨0⟩ crowd = some (.error .notReactive, s') ∧
    s'.entries ⟨0⟩ = [⟨0⟩, ⟨0⟩, ⟨2⟩, ⟨4⟩, ⟨0⟩, ⟨5⟩] ∧
    Notified (update (meddling.respond 3)) ⟨0⟩ added turns crowd (.error .notReactive) s' := by
  let run := notify (update (meddling.respond 3)) ⟨0⟩ crowd
  have hdone : run.isSome = true := by decide +kernel
  have hfailed : ∀ outcome ∈ run, errorOf outcome.1 = some .notReactive := by decide +kernel
  have hentries : ∀ outcome ∈ run, outcome.2.entries ⟨0⟩ = [⟨0⟩, ⟨0⟩, ⟨2⟩, ⟨4⟩, ⟨0⟩, ⟨5⟩] := by
    decide +kernel
  obtain ⟨⟨result, s'⟩, hrun⟩ := Option.isSome_iff_exists.1 hdone
  have hresult : result = .error .notReactive := by
    cases result with
    | ok _ => cases hfailed _ hrun
    | error e => exact congrArg Except.error (Option.some.inj (hfailed _ hrun))
  subst hresult
  have hknown : crowd.Known := .of_cells (by decide) (by decide)
  obtain ⟨added, hadded⟩ := Host.subscribing meddling_asks 3 crowd (Nat.le_refl _) ⟨0⟩
  obtain ⟨turns, hturns⟩ := notify_cycle hadded hknown hrun
  exact ⟨added, turns, s', hrun, hentries _ hrun, hturns⟩

end Run

end DataBinding
