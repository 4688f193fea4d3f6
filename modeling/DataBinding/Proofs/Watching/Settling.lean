import DataBinding.Proofs.Watching.Hearing
import Mathlib.Data.List.Iterate

/-!
# A watcher that writes back

A watcher whose reaction writes into the cell that it watches is told of its own write, in a cycle that runs inside
the cycle of the write before. If what it writes is always `g` of what it was called with, and iterating `g` comes
to a value that `g` keeps, the write settles there. The watchers before it in the list are told of every value
before it is, and so each of them and the watcher itself are called with all iterates in their order. Those
after it have their first turn in the innermost cycle, when the value is the last one already, and in the
turns that they still have when the outer cycles go on they know it.

`Host.Echoes` says what one call of the reaction comes to. It is shown by induction on how far the value is from
settling: a cycle comes to what the call in it comes to (`Lined.cycle_settles`), and a call to what the cycle of
the next write comes to.
-/

set_option autoImplicit false

namespace DataBinding

variable {ρ σ : Type}

/-! ## Writes of the watched cell -/

namespace Store

variable {m : Model} {cell : CellId} {group : List SubscriberId} {record : SubscriberId → Watcher ρ}
  {s : Store ρ σ} {id : SubscriberId} {value : Value}

/-- A reading that does not go through the cell subscribes nobody to it. -/
theorem spares_subscribeCollector {cells : List CellId} (hinside : cell.index < s.model.cells.size)
    (hother : cell ∉ cells) : s.Spares cell group (s.subscribeCollector cells) := by
  unfold subscribeCollector
  cases s.collector with
  | none => exact .refl s
  | some id =>
    have honward := Model.onward_foldl_subscribe cells id s.model
    refine ⟨.of_same rfl (fun _ => undelivered_of_same rfl) ?_ (honward.mono fun _ hp => hp.elim),
      honward.value hinside not_false⟩
    refine (Model.subscribers_foldl_subscribe cells id s.model hinside).trans ?_
    rw [List.count_eq_zero.2 hother, List.replicate_zero, List.append_nil]
    rfl

/-- The collector slot changes lists, and no subscriber. -/
theorem subscribers_subscribeCollector (s : Store ρ σ) (cells : List CellId) :
    (s.subscribeCollector cells).subscribers = s.subscribers := by
  unfold subscribeCollector
  cases s.collector <;> rfl

/-- A cycle starts by dropping those who are not live from the list. -/
theorem entries_cycleStart (s : Store ρ σ) (cell : CellId) (value : Value) :
    (s.cycleStart cell value).entries cell = (s.entries cell).filter s.isLive := by
  have hpruned := entries_prune (s.storeCell cell value) cell cell
  rw [if_pos rfl, entries_storeCell] at hpruned
  exact hpruned

/-- A cycle starts with the value in the cell. -/
theorem value_cycleStart (hinside : cell.index < s.model.cells.size) (value : Value) :
    ((s.cycleStart cell value).model.cell cell).value = value := by
  have hstored : ((s.model.setCellValue cell value).cell cell).value = value := by
    rw [Model.cell_setCellValue, if_pos ⟨rfl, hinside⟩]
  refine Eq.trans ?_ hstored
  exact (Model.onward_updateSubscribers (s.model.setCellValue cell value) cell _).value
    (by simpa [Model.setCellValue] using hinside) not_false

/-- The start of a cycle writes its cell and nothing else. -/
theorem onward_cycleStart (s : Store ρ σ) (cell : CellId) (value : Value) :
    s.model.Onward (· = .cell cell) (s.cycleStart cell value).model :=
  ((Model.onward_setCellValue s.model cell value).trans
    (Model.onward_updateSubscribers (s.model.setCellValue cell value) cell _)).mono
    fun _ hp => hp.resolve_left not_false

/-- A group is called by nobody before the cycle starts. -/
theorem Lined.hears_cycleStart (h : s.Lined m cell group record) (value : Value) :
    s.Hears cell group (fun _ => []) (s.cycleStart cell value) := by
  refine .of_same rfl (fun _ => undelivered_of_cons rfl fun _ heq => by cases heq) ?_
    (onward_cycleStart s cell value)
  rw [entries_cycleStart]
  obtain ⟨more, hmore, hentries⟩ := h.listed
  refine List.filter_eq_self.2 fun id hid => (active_iff.1 (h.active id ?_)).2
  rw [hentries] at hid
  exact (List.mem_append.1 hid).elim (fun hid => hid) fun hid => hmore hid

end Store

namespace Run

variable {m : Model} {cell : CellId} {s : Store ρ σ} {value : Value}

/-- A write through a path to a cell is a write of the cell, in a store that spares the watchers of the cell. -/
theorem assign_eq_setCell_subscribed {path : Path} {root : Value} (hends : m.EndsAt path root cell)
    (honward : m.Onward (· = .cell cell) s.model) (tell : SubscriberId → Run ρ σ Unit) (value : Value) :
    cell ∉ (s.model.followKeys path.text path.parents root).cells ∧
      assign tell path root value s = setCell tell cell value
        (s.subscribeCollector (s.model.followKeys path.text path.parents root).cells) := by
  have hstill : ∀ p ∈ m.trail path.parents root, ¬ p = .cell cell := fun p hp heq => hends.once (heq ▸ hp)
  obtain ⟨object, hbefore, -⟩ := Model.target?_eq_some_iff.1 hends.target
  obtain ⟨object, hfound, hslot⟩ :=
    Model.target?_eq_some_iff.1 (Model.target?_of_onward honward hends.sound hends.target hstill)
  have htrail := Model.trail_of_onward honward hends.sound hbefore hstill
  refine ⟨fun hmem => hends.once (htrail ▸ Model.mem_trail_of_mem_cells hmem), ?_⟩
  rw [assign_container hfound, setKey_reactive]
  unfold Store.subscribeCollector
  cases s.collector with
  | none => exact hslot
  | some id => exact (Model.onward_foldl_subscribe _ id s.model).reactive hslot

/-- An operation that writes a cell comes back without an error if the write of the cell does, which may start in
another store that spares the watchers of the cell. -/
theorem perform_of_setCell (respond : Respond ρ σ) (depth : Nat) (group : List SubscriberId) {op : Op ρ σ}
    (hsound : m.Sound) (hacyclic : m.Acyclic) (honward : m.Onward (· = .cell cell) s.model)
    (hinside : cell.index < s.model.cells.size) (htarget : op.target? m = some (cell, value)) :
    ∃ t, s.Spares cell group t ∧ ∀ {changed s'}, setCell (update respond) cell value t = some (.ok changed, s') →
      ∃ answer, perform respond depth op s = some (.ok answer, s') := by
  cases op with
  | assign path root written =>
    obtain ⟨found, hfound, heq⟩ := Option.map_eq_some_iff.1 htarget
    obtain ⟨rfl, rfl⟩ := Prod.mk.inj heq
    obtain ⟨hother, hassign⟩ := assign_eq_setCell_subscribed ⟨hsound, hfound, hacyclic.not_mem_trail hfound⟩
      honward (update respond) written
    exact ⟨_, Store.spares_subscribeCollector hinside hother, fun hwrite => ⟨_, hassign.trans hwrite⟩⟩
  | setKey object key written =>
    obtain ⟨found, hfound, heq⟩ := Option.map_eq_some_iff.1 htarget
    obtain ⟨rfl, rfl⟩ := Prod.mk.inj heq
    have hslot := honward.reactive (Model.cellAt?_eq_some_iff.1 hfound)
    exact ⟨s, .refl s, fun hwrite => ⟨_, (setKey_reactive hslot written).trans hwrite⟩⟩
  | setCell target written =>
    obtain ⟨rfl, rfl⟩ := Prod.mk.inj (Option.some.inj htarget)
    exact ⟨s, .refl s, fun hwrite => ⟨_, hwrite⟩⟩
  | _ => cases htarget

end Run

/-! ## Write-backs -/

open Store (only)

/-- The reaction of a watcher writes `g` of each value back into the cell that the value is delivered from, from
a first value on to one that `g` keeps. The reactions of the others in the group are calm meanwhile, if
reactions may nest at least `n` deep. -/
structure Host.WritesBack (host : Host ρ σ) (n : Nat) (m : Model) (cell : CellId) (group : List SubscriberId)
    (writer : SubscriberId) (record : SubscriberId → Watcher ρ) (g : Value → Value) (k : Nat) (first : Value) :
    Prop where
  back : ∀ i ≤ k, ∃ reaction op, (record writer).reaction = .hosted reaction ∧
    op.target? m = some (cell, g^[i + 1] first) ∧
    host.script reaction (.delivered (g^[i] first)) = do let _ ← Script.perform op
  calm : ∀ id ∈ group, id ≠ writer → ∀ i ≤ k, ∀ depth ≥ n,
    Run.Calm (host.respond depth) m cell group (record id).reaction (g^[i] first)
  moving : ∀ i < k, (g^[i + 1] first).strictEq (g^[i] first) = false
  fixed : (g^[k + 1] first).strictEq (g^[k] first) = true

namespace Host.WritesBack

variable {host : Host ρ σ} {n k : Nat} {m : Model} {cell : CellId} {group : List SubscriberId}
  {writer : SubscriberId} {record : SubscriberId → Watcher ρ} {g : Value → Value} {first : Value}

/-- From the next value on it is the same. -/
theorem next (h : host.WritesBack n m cell group writer record g (k + 1) first) :
    host.WritesBack n m cell group writer record g k (g first) where
  back i hi := h.back (i + 1) (Nat.succ_le_succ hi)
  calm id hid hne i hi := h.calm id hid hne (i + 1) (Nat.succ_le_succ hi)
  moving i hi := h.moving (i + 1) (Nat.succ_lt_succ hi)
  fixed := h.fixed

/-- The records may have received values already when a watcher starts to write back. -/
theorem receives (h : host.WritesBack n m cell group writer record g k first)
    (heard : SubscriberId → List Value) :
    host.WritesBack n m cell group writer (fun id => (record id).receives (heard id)) g k first where
  back := by
    simp only [Watcher.reaction_receives]
    exact h.back
  calm id := by
    simp only [Watcher.reaction_receives]
    exact h.calm id
  moving := h.moving
  fixed := h.fixed

/-- The value that `g` keeps is strictly equal to itself. -/
theorem last_self (h : host.WritesBack n m cell group writer record g k first) :
    (g^[k] first).strictEq (g^[k] first) = true := Value.strictEq_self_of_strictEq h.fixed

end Host.WritesBack

/-- The reaction that writes back comes back without an error if the write of the next value does, one level of
nesting further in. -/
theorem Host.WritesBack.react_of_setCell {host : Host ρ σ} {n k : Nat} (depth : Nat) {m : Model} {cell : CellId}
    {before after : List SubscriberId} {writer : SubscriberId} {record : SubscriberId → Watcher ρ}
    {g : Value → Value} {first : Value} {s : Store ρ σ}
    (hback : host.WritesBack n m cell (before ++ writer :: after) writer record g k first) (hsound : m.Sound)
    (hacyclic : m.Acyclic) (h : s.Lined m cell (before ++ writer :: after) record) :
    ∃ t, s.Spares cell (before ++ writer :: after) t ∧
      ∀ {changed s'}, Run.setCell (Run.update (host.respond depth)) cell (g first) t = some (.ok changed, s') →
        Run.react (host.respond (depth + 1)) (record writer).reaction first s = some (.ok (), s') := by
  obtain ⟨reaction, op, hreaction, htarget, hscript⟩ := hback.back 0 (Nat.zero_le k)
  have hwriter : writer ∈ before ++ writer :: after := by simp
  obtain ⟨t, hspares, hperform⟩ := Run.perform_of_setCell (host.respond depth) depth (before ++ writer :: after)
    hsound hacyclic h.onward (h.inside hwriter) htarget
  refine ⟨t, hspares, fun {changed s'} hwrite => ?_⟩
  obtain ⟨answer, hanswer⟩ := hperform hwrite
  rw [hreaction]
  change (host.script reaction (.delivered (g^[0] first))).runWith (Run.perform (host.respond depth) depth) s = _
  rw [hscript]
  exact ((Script.ends_perform hanswer).bind (Script.ends_done (.ok ()) s')).runWith

/-- What a call of the reaction that writes back comes to. When it starts, everybody up to the watcher that
writes back has received the value. They are called with the values that follow, and those after it with
the last one, unless they know it; or with nothing, if nothing follows. -/
def Host.Echoes (host : Host ρ σ) (n depth : Nat) (m : Model) (cell : CellId) (before : List SubscriberId)
    (writer : SubscriberId) (after : List SubscriberId) (g : Value → Value) (k : Nat) (first : Value) : Prop :=
  ∀ {s : Store ρ σ} {record : SubscriberId → Watcher ρ}, s.Lined m cell (before ++ writer :: after) record →
    host.WritesBack n m cell (before ++ writer :: after) writer record g k first →
    (s.model.cell cell).value = first → (∀ id ∈ before ++ [writer], (record id).baseline = first) →
    ∃ heard s', Run.react (host.respond depth) (record writer).reaction first s = some (.ok (), s') ∧
      s.Hears cell (before ++ writer :: after) heard s' ∧ (s'.model.cell cell).value = g^[k] first ∧
      (∀ id ∈ before ++ [writer], heard id = List.iterate g (g first) k) ∧
      ∀ id ∈ after, heard id = [] ∨ heard id = ((record id).meet (g^[k] first)).2

/-- Meeting a value again is no call. -/
theorem Watcher.calls_meet_again {w : Watcher ρ} {value : Value} {heard : List Value}
    (hpolicy : w.policy = .refresh) (hself : value.strictEq value = true)
    (hheard : heard = [] ∨ heard = (w.meet value).2) :
    heard ++ ((w.receives heard).meet value).2 = (w.meet value).2 := by
  rcases hheard with rfl | rfl
  · rfl
  · rw [calls_meet_agreed (knows_of_meet hpolicy hself), List.append_nil]

/-- Around somebody who is named once, everybody is named once, and either before or after. -/
theorem nodup_around {before after : List SubscriberId} {writer : SubscriberId}
    (honce : (before ++ writer :: after).Nodup) : before.Nodup ∧ after.Nodup ∧ writer ∉ before ∧
      writer ∉ after ∧ ∀ id ∈ after, id ∉ before ++ [writer] := by
  obtain ⟨hbefore, hrest, hapart⟩ := List.nodup_append.1 honce
  obtain ⟨hwriter, hafter⟩ := List.nodup_cons.1 hrest
  refine ⟨hbefore, hafter, fun hmem => hapart _ hmem _ List.mem_cons_self rfl, hwriter, fun id hid hmem => ?_⟩
  rcases List.mem_append.1 hmem with hmem | hmem
  · exact hapart _ hmem _ (List.mem_cons_of_mem writer hid) rfl
  · exact hwriter (List.mem_singleton.1 hmem ▸ hid)

/-- Somebody is in a group if they come no later than the writer, or after it. -/
theorem mem_around_iff {before after : List SubscriberId} {writer id : SubscriberId} :
    id ∈ before ++ writer :: after ↔ id ∈ before ++ [writer] ∨ id ∈ after := by
  simp [or_assoc]

section Cycle

variable {host : Host ρ σ} {n depth k : Nat} {m : Model} {cell : CellId} {before after : List SubscriberId}
  {writer : SubscriberId} {record : SubscriberId → Watcher ρ} {g : Value → Value} {s : Store ρ σ}
  {first : Value}

/-- Up to the turn of the watcher that writes back a cycle comes to what the call of its reaction comes to: everybody
so far is called with all the values from the first to the last. -/
theorem Store.Lined.writer_settles (h : s.Lined m cell (before ++ writer :: after) record)
    (honce : (before ++ writer :: after).Nodup)
    (hback : host.WritesBack n m cell (before ++ writer :: after) writer record g k first)
    (hechoes : host.Echoes n depth m cell before writer after g k first) (hdepth : n ≤ depth)
    (hvalue : (s.model.cell cell).value = first)
    (hnew : ∀ id ∈ before ++ [writer], first.strictEq (record id).baseline = false) :
    ∃ heard s', Run.each (before ++ [writer]) (Run.visit (Run.update (host.respond depth))) s =
        some (.ok (), s') ∧
      s.Hears cell (before ++ writer :: after) heard s' ∧ (s'.model.cell cell).value = g^[k] first ∧
      (∀ id ∈ before ++ [writer], heard id = List.iterate g first (k + 1)) ∧
      ∀ id ∈ after, heard id = [] ∨ heard id = ((record id).meet (g^[k] first)).2 := by
  obtain ⟨honceBefore, -, hwriterBefore, hwriterAfter, hapart⟩ := nodup_around honce
  have hbefore : before ⊆ before ++ writer :: after := List.subset_append_left _ _
  have hwriter : writer ∈ before ++ writer :: after := by simp
  have hneBefore : ∀ id ∈ before, id ≠ writer := fun id hid heq => hwriterBefore (heq ▸ hid)
  have hneAfter : ∀ id ∈ after, id ≠ writer := fun id hid heq => hwriterAfter (heq ▸ hid)
  -- Those before the watcher that writes back.
  obtain ⟨heard₁, s₁, heach₁, hhears₁, hvalue₁, hmet₁, hothers₁⟩ := h.each_meets hbefore honceBefore hvalue
    fun id hid => hback.calm id (hbefore hid) (hneBefore id hid) 0 (Nat.zero_le k) depth hdepth
  have h₁ := h.hears hhears₁
  -- The store in which the reaction starts, and everybody up to here has received the first value.
  have hactive := (h₁.active writer hwriter).retain writer
  have h₂ := (h₁.retain writer).hears (Store.hears_deliverTo hactive.watcher? first)
  have hfirst : ∀ id ∈ before ++ [writer], heard₁ id ++ only writer first id = [first] := by
    intro id hid
    rcases List.mem_append.1 hid with hmem | hmem
    · rw [hmet₁ id hmem, Watcher.calls_meet_other (hnew id hid), Store.only_of_ne (hneBefore id hmem),
        List.append_nil]
    · rw [List.mem_singleton.1 hmem, hothers₁ writer hwriterBefore, Store.only_self, List.nil_append]
  have hnone : ∀ id ∈ after, heard₁ id ++ only writer first id = [] := by
    intro id hid
    rw [hothers₁ id fun hmem => hapart id hid (List.mem_append_left _ hmem), Store.only_of_ne (hneAfter id hid),
      List.append_nil]
  have hreceived : ∀ id ∈ before ++ [writer],
      (((record id).receives (heard₁ id)).receives (only writer first id)).baseline = first := by
    intro id hid
    rw [← Watcher.receives_append, hfirst id hid,
      Watcher.baseline_receives (h.refreshes id (mem_around_iff.2 (.inl hid)))]
    rfl
  obtain ⟨heard₃, s₃, hreact, hhears₃, hvalue₃, hechoed, hafter⟩ :=
    hechoes h₂ ((hback.receives heard₁).receives (only writer first)) hvalue₁ hreceived
  rw [Watcher.reaction_receives] at hreact
  have hother : first.strictEq ((record writer).receives (heard₁ writer)).baseline = false := by
    rw [hothers₁ writer hwriterBefore]
    exact hnew writer (by simp)
  obtain ⟨hvisit, hhears⟩ := h₁.visit_delivered hwriter hvalue₁ hother hreact hhears₃
  refine ⟨_, _, Run.each_append_ok heach₁ (Run.each_cons_of_ok hvisit rfl), hhears₁.trans hhears, hvalue₃,
    fun id hid => ?_, fun id hid => ?_⟩
  · rw [← List.append_assoc, hfirst id hid, hechoed id hid]
    rfl
  · rw [← List.append_assoc, hnone id hid, List.nil_append]
    have hcalled := hafter id hid
    rw [← Watcher.receives_append, hnone id hid] at hcalled
    exact hcalled

/-- A cycle comes to what the call of the reaction in it comes to: everybody up to the watcher that writes back
is called with all the values from the first to the last, and those after it meet the last. -/
theorem Store.Lined.cycle_settles (h : s.Lined m cell (before ++ writer :: after) record)
    (honce : (before ++ writer :: after).Nodup)
    (hback : host.WritesBack n m cell (before ++ writer :: after) writer record g k first)
    (hechoes : host.Echoes n depth m cell before writer after g k first) (hdepth : n ≤ depth)
    (hvalue : (s.model.cell cell).value = first)
    (hnew : ∀ id ∈ before ++ [writer], first.strictEq (record id).baseline = false) :
    ∃ heard s', Run.each (s.entries cell) (Run.visit (Run.update (host.respond depth))) s = some (.ok (), s') ∧
      s.Hears cell (before ++ writer :: after) heard s' ∧ (s'.model.cell cell).value = g^[k] first ∧
      (∀ id ∈ before ++ [writer], heard id = List.iterate g first (k + 1)) ∧
      ∀ id ∈ after, heard id = ((record id).meet (g^[k] first)).2 := by
  obtain ⟨more, hmore, hentries⟩ := h.listed
  obtain ⟨-, honceAfter, -, hwriterAfter, hapart⟩ := nodup_around honce
  have hafter : after ⊆ before ++ writer :: after := fun id hid => mem_around_iff.2 (.inr hid)
  obtain ⟨heard₁, s₁, heach₁, hhears₁, hvalue₁, hcalled₁, hlate₁⟩ :=
    h.writer_settles honce hback hechoes hdepth hvalue hnew
  have h₁ := h.hears hhears₁
  -- Those after the watcher that writes back find the last value, which some of them may know already.
  obtain ⟨heard₂, s₂, heach₂, hhears₂, hvalue₂, hmet₂, hothers₂⟩ :=
    h₁.each_meets hafter honceAfter hvalue₁ fun id hid =>
      (hback.receives heard₁).calm id (hafter hid) (fun heq => hwriterAfter (heq ▸ hid)) k (Nat.le_refl k) depth
        hdepth
  have hhears := hhears₁.trans hhears₂
  have hcalled : ∀ id ∈ before ++ [writer], heard₁ id ++ heard₂ id = List.iterate g first (k + 1) := by
    intro id hid
    rw [hcalled₁ id hid, hothers₂ id fun hmem => hapart id hmem hid, List.append_nil]
  have hlate : ∀ id ∈ after, heard₁ id ++ heard₂ id = ((record id).meet (g^[k] first)).2 := by
    intro id hid
    rw [hmet₂ id hid]
    exact Watcher.calls_meet_again (h.refreshes id (hafter hid)) hback.last_self (hlate₁ id hid)
  -- Whoever has another entry knows the last value by now.
  have hknown : ∀ id ∈ before ++ writer :: after,
      (s₂.model.cell cell).value.strictEq ((record id).receives (heard₁ id ++ heard₂ id)).baseline = true := by
    intro id hid
    rw [hvalue₂]
    rcases mem_around_iff.1 hid with hmem | hmem
    · have hlast : (List.iterate g first (k + 1)).getLastD (record id).baseline = g^[k] first := by
        rw [List.iterate_add, List.iterate, List.iterate, List.getLastD_concat]
      rw [hcalled id hmem, Watcher.baseline_receives (h.refreshes id hid), hlast]
      exact hback.last_self
    · rw [hlate id hmem]
      exact Watcher.knows_of_meet (h.refreshes id hid) hback.last_self
  obtain ⟨s', heach₃, hspares⟩ := (h.hears hhears).each_agreed (host.respond depth) hmore hknown
  refine ⟨_, s', ?_, hhears.spares hspares, hspares.value.trans hvalue₂, hcalled, hlate⟩
  have hentries : s.entries cell = (before ++ [writer]) ++ (after ++ more) := by simp [hentries]
  rw [hentries]
  exact Run.each_append_ok heach₁ (Run.each_append_ok heach₂ heach₃)

/-- What a call of the reaction that writes back comes to, by induction on how many values follow: the call
writes the next value, and the cycle of that write comes to what the next call comes to. -/
theorem Host.echoes (hsound : m.Sound) (hacyclic : m.Acyclic) (honce : (before ++ writer :: after).Nodup)
    (hdepth : n + k < depth) : host.Echoes n depth m cell before writer after g k first := by
  induction k generalizing first depth with
  | zero =>
    intro s record h hback hvalue hreceived
    obtain ⟨inner, rfl⟩ : ∃ inner, depth = inner + 1 := ⟨depth - 1, by omega⟩
    obtain ⟨t, hspares, hreact⟩ := hback.react_of_setCell inner hsound hacyclic h
    -- The cell holds what is written back, so nobody is told.
    have hsame : (t.model.cell cell).value.strictEq (g first) = true := by
      rw [hspares.value, hvalue, Value.strictEq_comm]
      exact hback.fixed
    exact ⟨_, t, hreact (Run.setCell_same hsame), hspares.hears, hspares.value.trans hvalue, fun _ _ => rfl,
      fun _ _ => .inl rfl⟩
  | succ k ih =>
    intro s record h hback hvalue hreceived
    obtain ⟨inner, rfl⟩ : ∃ inner, depth = inner + 1 := ⟨depth - 1, by omega⟩
    obtain ⟨t, hspares, hreact⟩ := hback.react_of_setCell inner hsound hacyclic h
    have hwriter : writer ∈ before ++ writer :: after := by simp
    -- The cell takes another value, and its cycle comes to the writer again, one level further in.
    have hmoving : (g first).strictEq first = false := hback.moving 0 (Nat.succ_pos k)
    have hother : (t.model.cell cell).value.strictEq (g first) = false := by
      rw [hspares.value, hvalue, Value.strictEq_comm]
      exact hmoving
    have hinside := (h.spares hspares).inside hwriter
    have hstart := hspares.hears.trans ((h.spares hspares).hears_cycleStart (g first))
    have hnew : ∀ id ∈ before ++ [writer], (g first).strictEq (record id).baseline = false := fun id hid => by
      rw [hreceived id hid]
      exact hmoving
    have hdeep : n ≤ inner := by omega
    obtain ⟨heard, s', heach, hhears, hvalue', hcalled, hlate⟩ := (h.hears hstart).cycle_settles honce hback.next
      (ih (by omega)) hdeep (Store.value_cycleStart hinside (g first)) hnew
    exact ⟨_, s', hreact (Run.setCell_changed hother heach), hstart.trans hhears, hvalue', hcalled,
      fun id hid => .inr (hlate id hid)⟩

end Cycle

/-! ## Writes that settle -/

/-- The write of a value has settled: the cell holds the last value, everybody up to the watcher that writes back
was called with all the values, and those after it with the last one, if it is not what the cell held before. -/
structure Store.Settled (cell : CellId) (before : List SubscriberId) (writer : SubscriberId)
    (after : List SubscriberId) (values : List Value) (last : Value) (s s' : Store ρ σ) : Prop where
  value : (s'.model.cell cell).value = last
  called : ∀ id ∈ before ++ [writer], s'.deliveries id = s.deliveries id ++ values
  late : ∀ id ∈ after, s'.deliveries id =
    s.deliveries id ++ if last.strictEq (s.model.cell cell).value then [] else [last]

/-- In a model without cycles the live entries in the list of a cell are those of a group, one for each. All of them
are refreshing watchers at the end of whose path the cell is, and they know what is in it. -/
structure Store.WatchedBy (cell : CellId) (group : List SubscriberId) (record : SubscriberId → Watcher ρ)
    (s : Store ρ σ) : Prop where
  sound : s.model.Sound
  acyclic : s.model.Acyclic
  listed : (s.entries cell).filter s.isLive = group
  once : group.Nodup
  active : ∀ id ∈ group, s.Active id (record id)
  refreshes : ∀ id ∈ group, (record id).policy = .refresh
  target : ∀ id ∈ group, s.model.target? (record id).path (record id).root = some cell
  knows : ∀ id ∈ group, (record id).baseline.Agrees (s.model.cell cell).value

section Settled

variable {host : Host ρ σ} {n depth k : Nat} {cell : CellId} {before after group : List SubscriberId}
  {writer : SubscriberId} {record : SubscriberId → Watcher ρ} {g : Value → Value} {s t : Store ρ σ}
  {first : Value}

/-- The group is in line when the cycle of a write starts, also if readings that do not go through the cell have
come first. -/
theorem Store.WatchedBy.lined (h : s.WatchedBy cell group record) (hspares : s.Spares cell group t)
    (hsubscribers : t.subscribers = s.subscribers) (value : Value) :
    (t.cycleStart cell value).Lined s.model cell group record where
  ends id hid := ⟨h.sound, h.target id hid, h.acyclic.not_mem_trail (h.target id hid)⟩
  refreshes := h.refreshes
  active id hid := hspares.hears.active hid (h.active id hid)
  listed := by
    obtain ⟨more, hmore, hlisted⟩ := hspares.hears.listed
    have hlive : t.isLive = s.isLive := by
      funext id
      unfold isLive subscriber?
      rw [hsubscribers]
    refine ⟨more.filter s.isLive, fun id hid => hmore (List.mem_of_mem_filter hid), ?_⟩
    rw [entries_cycleStart, hlive, hlisted, List.filter_append, h.listed]
  onward := (hspares.hears.onward.trans (onward_cycleStart t cell value)).mono fun _ hp => or_self_iff.1 hp

/-- The write of the cell settles, also from a store that was reached by readings that do not go through it. -/
theorem Store.WatchedBy.setCell_settles (h : s.WatchedBy cell (before ++ writer :: after) record)
    (hback : host.WritesBack n s.model cell (before ++ writer :: after) writer record g k first)
    (hother : first.strictEq (s.model.cell cell).value = false) (hdepth : n + k < depth)
    (hspares : s.Spares cell (before ++ writer :: after) t) (hsubscribers : t.subscribers = s.subscribers) :
    ∃ s', Run.setCell (Run.update (host.respond depth)) cell first t = some (.ok true, s') ∧
      s.Settled cell before writer after (List.iterate g first (k + 1)) (g^[k] first) s' := by
  have hlined := h.lined hspares hsubscribers first
  have hwriter : writer ∈ before ++ writer :: after := by simp
  have hinside : cell.index < t.model.cells.size :=
    Nat.lt_of_lt_of_le (Model.lt_size_of_target? h.sound (h.target writer hwriter)) hspares.hears.onward.cells_le
  have hother' : (t.model.cell cell).value.strictEq first = false := by
    rw [hspares.value, Value.strictEq_comm]
    exact hother
  have hnew : ∀ id ∈ before ++ [writer], first.strictEq (record id).baseline = false := fun id hid => by
    rw [(h.knows id (mem_around_iff.2 (.inl hid))).strictEq_eq]
    exact hother
  have hdeep : n ≤ depth := by omega
  obtain ⟨heard, s', heach, hhears, hvalue, hcalled, hlate⟩ := hlined.cycle_settles h.once hback
    (Host.echoes h.sound h.acyclic h.once hdepth) hdeep (value_cycleStart hinside first) hnew
  have hdeliveries : ∀ id ∈ before ++ writer :: after, s'.deliveries id = s.deliveries id ++ heard id := by
    intro id hid
    have hquiet : t.Undelivered id (t.cycleStart cell first) := undelivered_of_cons rfl fun _ heq => by cases heq
    rw [hhears.called id hid, hquiet.deliveries, hspares.hears.called id hid, List.append_nil]
  refine ⟨s', Run.setCell_changed hother' heach, hvalue, fun id hid => ?_, fun id hid => ?_⟩
  · rw [hdeliveries id (mem_around_iff.2 (.inl hid)), hcalled id hid]
  · have hmem : id ∈ before ++ writer :: after := mem_around_iff.2 (.inr hid)
    rw [hdeliveries id hmem, hlate id hid]
    unfold Watcher.meet
    rw [(h.knows id hmem).strictEq_eq]
    split <;> rfl

/-- Let a watcher write `g` of whatever it is called with back into the cell at the end of its path, in a model
without cycles, and let only refreshing watchers of that cell be in its list, each of which knows what is in the
cell. Let the reactions of the others come back without an error, write nothing, and neither dispose nor let go of any
of these watchers nor have one of them updated. If iterating `g` on a value that is not in the cell changes
it `k` times and then keeps it, the write of that value, through a path, of a key or of the cell itself, comes back
with `true`, the cell holds the last iterate, everybody up to the watcher that writes back has been called
with all iterates in their order, and everybody after it with the last one, or with nothing if that was in the
cell before. -/
theorem write_back_settles (hwatched : s.WatchedBy cell (before ++ writer :: after) record)
    (hback : host.WritesBack n s.model cell (before ++ writer :: after) writer record g k first)
    (hother : first.strictEq (s.model.cell cell).value = false) (hdepth : n + k < depth) :
    (∀ path root, s.model.target? path root = some cell → ∃ s',
      Run.perform (host.respond depth) depth (.assign path root first) s = some (.ok true, s') ∧
      s.Settled cell before writer after (List.iterate g first (k + 1)) (g^[k] first) s') ∧
    (∀ object key, s.model.cellAt? object key = some cell → ∃ s',
      Run.perform (host.respond depth) depth (.setKey object key first) s = some (.ok true, s') ∧
      s.Settled cell before writer after (List.iterate g first (k + 1)) (g^[k] first) s') ∧
    ∃ s', Run.perform (host.respond depth) depth (.setCell cell first) s = some (.ok true, s') ∧
      s.Settled cell before writer after (List.iterate g first (k + 1)) (g^[k] first) s' := by
  refine ⟨fun path root htarget => ?_, fun object key hcell => ?_, ?_⟩
  · obtain ⟨hnot, hassign⟩ := Run.assign_eq_setCell_subscribed
      ⟨hwatched.sound, htarget, hwatched.acyclic.not_mem_trail htarget⟩ (.of_eq rfl)
      (Run.update (host.respond depth)) first
    -- The write comes to the cell with whoever is in the collector slot subscribed on the way.
    obtain ⟨s', hrun, hsettled⟩ := hwatched.setCell_settles hback hother hdepth
      (Store.spares_subscribeCollector (Model.lt_size_of_target? hwatched.sound htarget) hnot)
      (Store.subscribers_subscribeCollector s _)
    exact ⟨s', hassign.trans hrun, hsettled⟩
  · obtain ⟨s', hrun, hsettled⟩ := hwatched.setCell_settles hback hother hdepth (.refl s) rfl
    exact ⟨s', (Run.setKey_reactive (Model.cellAt?_eq_some_iff.1 hcell) first).trans hrun, hsettled⟩
  · exact hwatched.setCell_settles hback hother hdepth (.refl s) rfl

end Settled

/-! A text under review: who reads it, who revises it, and who prints it. -/

/-- What the watchers of a text do with it. -/
inductive Duty where
  | reads
  | revises
  | prints
  deriving DecidableEq

/-- A draft becomes a proposal, and a proposal becomes final. -/
def revised : Value → Value
  | .string text =>
    .string (if text = "draft" then "proposal" else if text = "proposal" then "final" else text)
  | value => value

/-- A host that writes the revised text back, and that runs a script when the text is read. -/
def reviewing (reading : Script Duty Unit Unit) : Host Duty Unit where
  script part stimulus :=
    match part, stimulus with
    | .revises, .delivered value => do
      let _ ← Script.perform (.assign ⟨[], "text"⟩ (.object ⟨0⟩) (revised value))
    | .reads, .delivered _ => reading
    | _, _ => pure ()

/-- A watcher of the text. -/
def reviewer (part : Duty) : Watcher Duty where
  root := .object ⟨0⟩
  path := ⟨[], "text"⟩
  policy := .refresh
  reaction := .hosted part
  baseline := .string "blank"

/-- A text that is watched by a reader, the one who revises it, and a printer, in this order. -/
def inReview : Store Duty Unit :=
  [Duty.reads, .revises, .prints].foldl
    (fun s part => s.enroll 1 (reviewer part) [⟨0⟩] (.made s.nextSubscriber [⟨0⟩] (.string "blank")))
    (Store.observing (.object [("text", .string "blank")]) {} ())

/-- The watchers of the text by their handles. -/
def reviewers (id : SubscriberId) : Watcher Duty :=
  reviewer (if id = ⟨0⟩ then .reads else if id = ⟨1⟩ then .revises else .prints)

/-- The text, before anybody watches it. -/
def blankText : Model := (Model.observe (.object [("text", .string "blank")]) {}).2

/-- The text in review differs from the one that nobody watches by its list alone. -/
theorem inReview_alike : Model.Alike blankText inReview.model :=
  ((Model.Alike.subscribeAll blankText [⟨0⟩] ⟨0⟩).trans (.subscribeAll _ [⟨0⟩] ⟨1⟩)).trans
    (.subscribeAll _ [⟨0⟩] ⟨2⟩)

/-- Everybody who watches the text is active, refreshes, follows it, and knows it. -/
theorem inReview_watched : inReview.WatchedBy ⟨0⟩ ([⟨0⟩] ++ ⟨1⟩ :: [⟨2⟩]) reviewers where
  sound object key cell hslot := by
    rw [inReview_alike.slot?] at hslot
    have hblank : blankText.Sound := Model.observe_sound _ fun _ _ _ hslot => by cases hslot
    exact hblank object key cell hslot
  acyclic id text keys := by
    rw [inReview_alike.followKeys]
    exact Model.acyclic_observe _ id text keys
  listed := rfl
  once := by decide
  active id hid := by
    have hid : id = ⟨0⟩ ∨ id = ⟨1⟩ ∨ id = ⟨2⟩ := by simpa using hid
    rcases hid with rfl | rfl | rfl <;> exact ⟨0, rfl, rfl⟩
  refreshes _ _ := rfl
  target _ _ := rfl
  knows _ _ := .inl rfl

/-- A reader who takes a note of having read. -/
def takesNote : Script Duty Unit Unit := do
  let _ ← Script.perform (.observe (.object [("read", .bool true)]))

/-- Nobody but the one who revises does anything that matters to the others. -/
theorem reviewing_calm {duty : Duty} (hduty : duty ≠ .revises) {depth : Nat} (hdepth : 1 ≤ depth)
    (group : List SubscriberId) (value : Value) :
    Run.Calm ((reviewing takesNote).respond depth) inReview.model ⟨0⟩ group (.hosted duty) value := by
  intro s honward _
  obtain ⟨inner, rfl⟩ : ∃ inner, depth = inner + 1 := ⟨depth - 1, by omega⟩
  cases duty with
  | reads =>
    have hgrown := Model.onward_of_within (Model.observe_within (.object [("read", .bool true)]) s.model)
    have hinside : (⟨0⟩ : CellId).index < s.model.cells.size :=
      Nat.lt_of_lt_of_le (by decide) honward.cells_le
    refine ⟨_, rfl, .of_same rfl (fun _ => Store.undelivered_of_same rfl) ?_ (hgrown.mono fun _ hp => hp.elim),
      hgrown.value hinside not_false⟩
    exact Model.subscribers_observe _ s.model ⟨0⟩
  | revises => exact absurd rfl hduty
  | prints => exact ⟨s, rfl, .refl s⟩

/-- What the reaction of the one who revises writes back, starting from a draft. -/
theorem reviewing_writesBack : (reviewing takesNote).WritesBack 1 inReview.model ⟨0⟩ ([⟨0⟩] ++ ⟨1⟩ :: [⟨2⟩]) ⟨1⟩
    reviewers revised 2 (.string "draft") where
  back i _ := by
    refine ⟨.revises, .assign ⟨[], "text"⟩ (.object ⟨0⟩) (revised (revised^[i] (.string "draft"))), rfl, ?_, rfl⟩
    rw [Function.iterate_succ_apply']
    rfl
  calm id _ hne i _ depth hdepth := by
    have hduty : (if id = ⟨0⟩ then Duty.reads else if id = ⟨1⟩ then .revises else .prints) ≠ .revises := by
      rw [if_neg hne]
      split <;> exact nofun
    exact reviewing_calm hduty hdepth _ _
  moving := by decide +kernel
  fixed := by decide +kernel

/-- A draft is written over the blank text. -/
def writeDraft (reading : Script Duty Unit Unit) : Run Duty Unit Bool :=
  Run.perform ((reviewing reading).respond 4) 4 (.assign ⟨[], "text"⟩ (.object ⟨0⟩) (.string "draft"))

/-- The reader and the one who revises have been told of three texts, and the printer of the last one. -/
def FinallyPrinted (s : Store Duty Unit) : Prop :=
  inReview.Settled ⟨0⟩ [⟨0⟩] ⟨1⟩ [⟨2⟩] [.string "draft", .string "proposal", .string "final"] (.string "final") s

/-- The draft of a text in review settles, though the reader takes notes meanwhile. -/
theorem write_back_settles_draft : ∃ s', writeDraft takesNote inReview = some (.ok true, s') ∧ FinallyPrinted s' := by
  have hsettles := write_back_settles inReview_watched reviewing_writesBack (by decide +kernel) (by decide : 1 + 2 < 4)
  obtain ⟨s', hrun, hsettled⟩ := hsettles.1 ⟨[], "text"⟩ (.object ⟨0⟩) rfl
  exact ⟨s', hrun, hsettled⟩

/-! Readers that write nothing, and are not harmless. -/

/-- A reader asks for no write, and all the same the write of a draft does not settle. -/
def Unsettles (reading : Script Duty Unit Unit) : Prop :=
  reading.Asks (fun op => ∀ m, op.target? m = none) ∧
    ∃ result s', writeDraft reading inReview = some (result, s') ∧ ¬ (result = .ok true ∧ FinallyPrinted s')

/-- A run that can be checked to come to another text, or to print another. -/
theorem unsettles_of_run {reading : Script Duty Unit Unit} (hasks : reading.Asks (fun op => ∀ m, op.target? m = none))
    (hrun : ((writeDraft reading inReview).any fun outcome =>
      (outcome.2.model.cell ⟨0⟩).value.string? != some "final" ||
        (outcome.2.deliveries ⟨2⟩).map Value.string? != [some "final"]) = true) : Unsettles reading := by
  refine ⟨hasks, ?_⟩
  cases hwrite : writeDraft reading inReview with
  | none =>
    rw [hwrite] at hrun
    cases hrun
  | some outcome =>
    obtain ⟨result, s'⟩ := outcome
    refine ⟨result, s', rfl, fun ⟨_, hprinted⟩ => ?_⟩
    have hvalue := hprinted.value
    have hlate : s'.deliveries ⟨2⟩ = [.string "final"] := hprinted.late ⟨2⟩ List.mem_cons_self
    rw [hwrite, Option.any_some, hvalue, hlate] at hrun
    exact Bool.false_ne_true hrun

/-- A draft does not settle if the reader disposes whoever revises or lets go of them, if it has the printer updated,
or if it fails. -/
theorem write_back_meddled_with : inReview.WatchedBy ⟨0⟩ ([⟨0⟩] ++ ⟨1⟩ :: [⟨2⟩]) reviewers ∧
    Unsettles (Script.perform (.dispose ⟨1⟩)) ∧ Unsettles (Script.perform (.release ⟨1⟩)) ∧
    Unsettles (Script.perform (.update ⟨2⟩)) ∧ Unsettles (Script.fail .notReactive) := by
  refine ⟨inReview_watched, ?_, ?_, ?_, ?_⟩
  · exact unsettles_of_run ⟨fun _ => rfl, fun _ => trivial⟩ (by decide +kernel)
  · exact unsettles_of_run ⟨fun _ => rfl, fun _ => trivial⟩ (by decide +kernel)
  · exact unsettles_of_run ⟨fun _ => rfl, fun _ => trivial⟩ (by decide +kernel)
  · exact unsettles_of_run trivial (by decide +kernel)

end DataBinding
