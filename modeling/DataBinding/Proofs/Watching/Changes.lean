import DataBinding.Proofs.Watching.NotifyCycle
import DataBinding.Proofs.Watching.Undisturbed

/-!
# What a watcher is called with

The record of a watcher always fits what was delivered to it, whatever reactions do (`Store.Told`). If nobody
disturbs a watcher it can also be said what is delivered. `changes` goes through the values that are written
into a cell and drops those that the cell holds already. A watcher at the end of whose path the cell is, in a
model without cycles, is called with all of these changes, or with those among them that differ from the value
from its making (`BaselinePolicy.calls`).

The proof follows the writes one by one. Between two writes the watcher is `Store.Poised`: it has one entry in
the list of the cell, and its path still leads there. A write that changes the cell comes to the turn of that
entry, and in it the watcher meets the written value (`Poised.setCell`).
-/

set_option autoImplicit false

namespace DataBinding

variable {ρ σ : Type}

/-! ## Changes -/

/-- The values that change what a cell holds, among those that are written into it one after the other. -/
def changes (current : Value) : List Value → List Value
  | [] => []
  | value :: rest => if current.strictEq value then changes current rest else value :: changes value rest

/-- The values that a watcher is called with while values are written into its cell. -/
def BaselinePolicy.calls (policy : BaselinePolicy) (first current : Value) (values : List Value) : List Value :=
  match policy with
  | .refresh => changes current values
  | .frozen => (changes current values).filter fun value => !value.strictEq first

/-- The baseline of a watcher that has met all changes of its cell. -/
def BaselinePolicy.baseline (policy : BaselinePolicy) (first current : Value) : Value :=
  match policy with
  | .refresh => current
  | .frozen => first

/-- What a watcher becomes that finds a value at its path, and the values that it is called with. -/
def Watcher.meet (w : Watcher ρ) (value : Value) : Watcher ρ × List Value :=
  if value.strictEq w.baseline then (w, []) else (w.receive value, [value])

namespace Watcher

variable {w : Watcher ρ} {value first current : Value}

/-- A watcher that meets a value keeps all but its baseline and its count. -/
theorem meet_same (w : Watcher ρ) (value : Value) : (w.meet value).1.path = w.path ∧
    (w.meet value).1.root = w.root ∧ (w.meet value).1.policy = w.policy ∧
    (w.meet value).1.disposed = w.disposed := by
  unfold meet
  split
  · exact ⟨rfl, rfl, rfl, rfl⟩
  · exact ⟨rfl, rfl, rfl, rfl⟩

/-- The baseline of a watcher that meets a change. -/
theorem baseline_meet (hbaseline : w.baseline = w.policy.baseline first current)
    (hchanged : current.strictEq value = false) :
    (w.meet value).1.baseline = w.policy.baseline first value := by
  unfold meet
  cases hpolicy : w.policy with
  | refresh =>
    rw [hpolicy] at hbaseline
    have hother : value.strictEq w.baseline = false := by
      rw [hbaseline, Value.strictEq_comm]
      exact hchanged
    rw [if_neg (by rw [hother]; exact Bool.false_ne_true)]
    simp only [receive, hpolicy, BaselinePolicy.baseline]
  | frozen =>
    rw [hpolicy] at hbaseline
    split
    · exact hbaseline
    · simp only [receive, hpolicy]
      exact hbaseline

/-- What a watcher is called with that meets a change, and goes on to meet others. -/
theorem calls_meet (hbaseline : w.baseline = w.policy.baseline first current)
    (hchanged : current.strictEq value = false) (rest : List Value) :
    w.policy.calls first current (value :: rest) =
      (w.meet value).2 ++ w.policy.calls first value rest := by
  have hchanges : changes current (value :: rest) = value :: changes value rest := by
    rw [changes, if_neg (by rw [hchanged]; exact Bool.false_ne_true)]
  unfold meet BaselinePolicy.calls
  rw [hchanges]
  cases hpolicy : w.policy with
  | refresh =>
    rw [hpolicy] at hbaseline
    have hother : value.strictEq w.baseline = false := by
      rw [hbaseline, Value.strictEq_comm]
      exact hchanged
    rw [if_neg (by rw [hother]; exact Bool.false_ne_true)]
    rfl
  | frozen =>
    rw [hpolicy] at hbaseline
    rw [hbaseline, List.filter_cons]
    cases hfirst : value.strictEq first with
    | true => simp [BaselinePolicy.baseline, hfirst]
    | false => simp [BaselinePolicy.baseline, hfirst]

end Watcher

/-! ## The watcher between writes -/

/-- A path of a sound model leads to a cell, and not through the cell before. -/
structure Model.EndsAt (m : Model) (path : Path) (root : Value) (cell : CellId) : Prop where
  sound : m.Sound
  target : m.target? path root = some cell
  once : .cell cell ∉ m.trail path.parents root

/-- An active watcher has one entry in the list of a cell, and since its path has led there, in an earlier
model, nothing else was written. -/
structure Store.Poised (m : Model) (id : SubscriberId) (w : Watcher ρ) (cell : CellId) (s : Store ρ σ) :
    Prop where
  ends : m.EndsAt w.path w.root cell
  active : s.Active id w
  entry : (s.entries cell).count id = 1
  onward : m.Onward (· = .cell cell) s.model

namespace Store.Poised

variable {m : Model} {id : SubscriberId} {w v : Watcher ρ} {cell : CellId} {s s' : Store ρ σ} {value : Value}
  {values : List Value}

/-- The cell that a watcher is poised at is allocated. -/
theorem inside (h : s.Poised m id w cell) : cell.index < s.model.cells.size :=
  Nat.lt_of_lt_of_le (Model.lt_size_of_target? h.ends.sound h.ends.target) h.onward.cells_le

/-- The watcher finds what is in the cell. -/
theorem peek (h : s.Poised m id w cell) : s.model.peek w.path w.root = .ok (s.model.cell cell).value := by
  refine Model.peek_of_target? (Model.target?_of_onward h.onward h.ends.sound h.ends.target fun p hp heq => ?_)
  exact h.ends.once (heq ▸ hp)

/-- The watcher stays poised while nothing happens that matters to it but that it is called. -/
theorem takes (h : s.Poised m id w cell) (htakes : s.Takes id w v values s') (hpath : v.path = w.path)
    (hroot : v.root = w.root) (henabled : v.disposed = w.disposed) :
    s'.Poised m id v cell ∧ (s'.model.cell cell).value = (s.model.cell cell).value := by
  refine ⟨⟨?_, ?_, ?_, ?_⟩, htakes.unwritten.value h.inside not_false⟩
  · rw [hpath, hroot]
    exact h.ends
  · exact htakes.active h.active (henabled.trans h.active.enabled)
  · rw [htakes.listed]
    exact h.entry
  · exact (h.onward.trans htakes.unwritten).mono fun _ hp => hp.resolve_left not_false

/-- The same if the watcher is left alone. -/
theorem leavesAlone (h : s.Poised m id w cell) (halone : s.LeavesAlone id s') :
    s'.Poised m id w cell ∧ (s'.model.cell cell).value = (s.model.cell cell).value :=
  h.takes (halone w h.active) rfl rfl rfl

/-- The watcher is poised when the cycle of a write starts. -/
theorem cycleStart (h : s.Poised m id w cell) (value : Value) :
    (s.cycleStart cell value).Poised m id w cell ∧
      ((s.cycleStart cell value).model.cell cell).value = value := by
  have hstored : (s.storeCell cell value).Poised m id w cell := by
    have honward := h.onward.trans (Model.onward_setCellValue s.model cell value)
    refine ⟨h.ends, h.active, ?_, honward.mono fun _ hp => or_self_iff.1 hp⟩
    rw [entries_storeCell]
    exact h.entry
  have hvalue : ((s.storeCell cell value).model.cell cell).value = value := by
    change ((s.model.setCellValue cell value).cell cell).value = value
    rw [Model.cell_setCellValue, if_pos ⟨rfl, h.inside⟩]
  obtain ⟨hpruned, hsame⟩ := hstored.leavesAlone (leavesAlone_prune _ cell)
  exact ⟨hpruned, hsame.trans hvalue⟩

end Store.Poised

/-! ## The turn of the watcher -/

namespace Store

variable {id : SubscriberId} {w v : Watcher ρ} {s s' : Store ρ σ} {value : Value} {values : List Value}

/-- An update of a watcher leaves the number of its handles. -/
theorem subscriber?_updateWatcher {handles : Nat} (hentry : s.subscriber? id = some ⟨handles, .watching w⟩)
    (f : Watcher ρ → Watcher ρ) :
    (s.updateWatcher id f).subscriber? id = some ⟨handles, .watching (f w)⟩ := by
  rw [updateWatcher, subscriber?_updateSubscriber, if_pos rfl, hentry]
  rfl

/-- A delivery calls a watcher with the value and does nothing else that matters to it. -/
theorem takes_deliverTo (hw : s.watcher? id = some w) (value : Value) :
    s.Takes id w (w.receive value) [value] (s.deliverTo id value) := by
  obtain ⟨handles, hentry⟩ := exists_entry hw
  refine ⟨⟨handles, 0, hentry, ?_⟩, ?_, fun _ => rfl, .of_eq rfl⟩
  · exact subscriber?_updateWatcher (s := s.lookedAt id value) hentry _
  · have hupdating : s.Undelivered id (s.record (.updating id)) :=
      undelivered_of_cons rfl fun _ heq => by cases heq
    rw [← hupdating.deliveries]
    exact deliveries_of_delivered rfl

/-- What a watcher takes while it is held. -/
theorem Takes.release (h : (s.retain id).Takes id w v values s') (hw : s.Active id w) :
    s.Takes id w v values (s'.release id) where
  held := by
    obtain ⟨n, hentry, -⟩ := hw
    obtain ⟨handles, more, hretained, hentry'⟩ := h.held
    have hhandles := Option.some.inj ((subscriber?_retain hentry).symm.trans hretained)
    obtain ⟨rfl, -⟩ := Subscriber.mk.inj hhandles
    have hfewer : n + 2 + more - 1 = n + 1 + more := by omega
    refine ⟨n + 1, more, hentry, ?_⟩
    rw [Store.release, subscriber?_updateSubscriber, if_pos rfl, hentry', Option.map_some, hfewer]
  called := h.called
  listed := h.listed
  unwritten := h.unwritten

end Store

namespace Run

variable {respond : Respond ρ σ} {id : SubscriberId} {w : Watcher ρ} {s t t' : Store ρ σ} {value : Value}

/-- In its turn a watcher meets the value at its path. -/
theorem takes_own_turn (hrespond : Respond.Keeps (Store.LeavesAlone id) respond) (hw : t.Active id w)
    (hfound : t.model.peek w.path w.root = .ok value) {outcome : Except Error Unit}
    (h : update respond id (t.retain id) = some (outcome, t')) :
    t.Takes id w (w.meet value).1 (w.meet value).2 (t'.release id) := by
  have hretained := hw.retain id
  have hfound : (t.retain id).model.peek w.path w.root = .ok value := hfound
  refine Store.Takes.release ?_ hw
  unfold Watcher.meet
  cases hsame : value.strictEq w.baseline with
  | true =>
    rw [update_agreed hretained.watcher? hw.enabled hfound hsame] at h
    cases h
    exact Store.leavesAlone_lookedAt id value w hretained
  | false =>
    rw [update_delivered hretained.watcher? hw.enabled hfound hsame] at h
    have hdelivered := Store.takes_deliverTo hretained.watcher? value
    have hreacted := leavesAlone_react hrespond w.reaction value outcome t' h (w.receive value)
      (hdelivered.active hretained hw.enabled)
    exact hdelivered.trans hreacted

end Run

/-! ## Writes -/

open Run (othersSucceed setCell update)

/-- In a write that changes its cell a poised watcher meets the written value, if nobody else fails. -/
theorem Store.Poised.setCell {respond : Respond ρ σ} {m : Model} {id : SubscriberId} {w : Watcher ρ}
    {cell : CellId} {s s' : Store ρ σ} {value : Value} (h : s.Poised m id w cell)
    (hrespond : Respond.Keeps (LeavesAlone id) respond)
    (hchanged : (s.model.cell cell).value.strictEq value = false)
    (hothers : othersSucceed (update respond) id ((s.cycleStart cell value).entries cell)
      (s.cycleStart cell value) = true) {result : Except Error Bool}
    (hrun : Run.setCell (update respond) cell value s = some (result, s')) :
    s'.Poised m id (w.meet value).1 cell ∧ (s'.model.cell cell).value = value ∧
      s'.deliveries id = s.deliveries id ++ (w.meet value).2 := by
  obtain ⟨hsame, -, -⟩ | ⟨outcome, s₁, heach, hend⟩ := setCell_cases hrun
  · rw [hchanged] at hsame
    cases hsame
  obtain ⟨hstart, hvalue⟩ := h.cycleStart value
  obtain ⟨t, outcome', t', hbefore, hupdate, hafter⟩ :=
    Run.each_own_turn hrespond hstart.entry hstart.active hothers heach
  obtain ⟨hpath, hroot, -, henabled⟩ := w.meet_same value
  -- When the turn comes, the written value is at the path.
  obtain ⟨hturn, hvalue'⟩ := hstart.takes hbefore rfl rfl rfl
  have hfound := hturn.peek
  rw [hvalue', hvalue] at hfound
  have hmeets := Run.takes_own_turn hrespond hturn.active hfound hupdate
  have hrest : (t'.release id).LeavesAlone id s' := by
    obtain ⟨-, -, rfl⟩ | ⟨e, -, rfl⟩ := hend
    · exact hafter
    · exact hafter.trans (leavesAlone_record fun _ heq => by cases heq)
  have htaken := hrest _ (hmeets.active hturn.active (henabled.trans hturn.active.enabled))
  have hcycle := (hbefore.trans hmeets).trans htaken
  rw [List.nil_append, List.append_nil] at hcycle
  obtain ⟨hpoised, hvalue''⟩ := hstart.takes hcycle hpath hroot henabled
  refine ⟨hpoised, hvalue''.trans hvalue, ?_⟩
  have hquiet : s.Undelivered id (s.cycleStart cell value) :=
    undelivered_of_cons rfl fun _ heq => by cases heq
  rw [hcycle.called, hquiet.deliveries]

/-- A host writes values into a cell, one after the other. Between the writes it may do whatever leaves a
watcher alone, and nobody but the watcher fails when it is told of a write. -/
inductive Host.Writes (host : Host ρ σ) (depth : Nat) (id : SubscriberId) (cell : CellId) :
    List Value → Store ρ σ → Store ρ σ → Prop where
  | finished (s : Store ρ σ) : Writes host depth id cell [] s s
  | meanwhile {values : List Value} {s s₁ s' : Store ρ σ} (halone : s.LeavesAlone id s₁) :
      Writes host depth id cell values s₁ s' → Writes host depth id cell values s s'
  | written {value : Value} {values : List Value} {s s₁ s' : Store ρ σ} {op : Op ρ σ}
      {answer : Except Error op.Answer} (hidle : s.collector = none)
      (htarget : op.target? s.model = some (cell, value))
      (hrun : Run.perform (host.respond depth) depth op s = some (answer, s₁))
      (hothers : (s.model.cell cell).value.strictEq value = false →
        othersSucceed (update (host.respond depth)) id ((s.cycleStart cell value).entries cell)
          (s.cycleStart cell value) = true) :
      Writes host depth id cell values s₁ s' → Writes host depth id cell (value :: values) s s'

/-- What a watcher is called with during writes: by induction on them. -/
theorem Host.Writes.deliveries {host : Host ρ σ} {depth : Nat} {id : SubscriberId} {cell : CellId}
    {values : List Value} {s s' : Store ρ σ} (h : host.Writes depth id cell values s s')
    (hrespond : Respond.Keeps (Store.LeavesAlone id) (host.respond depth)) {m : Model} {w : Watcher ρ}
    {first : Value} (hpoised : s.Poised m id w cell)
    (hbaseline : w.baseline = w.policy.baseline first (s.model.cell cell).value) :
    s'.deliveries id = s.deliveries id ++ w.policy.calls first (s.model.cell cell).value values := by
  induction h generalizing w with
  | finished s =>
    cases w.policy with
    | refresh => exact (List.append_nil _).symm
    | frozen => exact (List.append_nil _).symm
  | meanwhile halone _ ih =>
    obtain ⟨hpoised', hvalue⟩ := hpoised.leavesAlone halone
    rw [← hvalue] at hbaseline
    rw [ih hpoised' hbaseline, hvalue, (halone w hpoised.active).called, List.append_nil]
  | @written value values s s₁ s' op answer hidle htarget hrun hothers _ ih =>
    obtain ⟨result, hwrite, -⟩ := Run.setCell_of_perform hidle htarget hrun
    -- A write of the same value reaches nobody; any other one is met by the watcher once.
    cases hsame : (s.model.cell cell).value.strictEq value with
    | true =>
      rw [Run.setCell_same hsame] at hwrite
      cases hwrite
      rw [ih hpoised hbaseline]
      unfold BaselinePolicy.calls
      rw [changes, if_pos hsame]
    | false =>
      obtain ⟨hpoised', hvalue, hcalled⟩ := hpoised.setCell hrespond hsame (hothers hsame) hwrite
      obtain ⟨-, -, hpolicy, -⟩ := w.meet_same value
      have hbaseline' : (w.meet value).1.baseline =
          (w.meet value).1.policy.baseline first (s₁.model.cell cell).value := by
        rw [hpolicy, hvalue]
        exact Watcher.baseline_meet hbaseline hsame
      rw [ih hpoised' hbaseline', hcalled, hpolicy, hvalue, Watcher.calls_meet hbaseline hsame,
        List.append_assoc]

end DataBinding
