import DataBinding.Proofs.Watching.Enlisting
import Mathlib.Data.List.Chain

/-!
# What has been delivered to a watcher

The journal tells which values a watcher was called with, from its first call on (`Store.deliveries`). The
record of a watcher does not repeat them, but it has to fit them: the counter says how many there were, and
the baseline is the last of them or the value from the making of the watcher, depending on the policy.
`Watcher.Tells` says so, and also that no delivery could have been spared: each differed from the baseline
of its moment.

`Store.Told` says it of all watchers that were made, and `Told.step` shows it of every step. As a delivery is one
step in which the baseline and the counter move before the reaction starts, it does not matter what reactions
do.
-/

set_option autoImplicit false

namespace DataBinding

variable {ρ σ : Type}

/-- The value that an event delivers to a watcher. -/
def Event.deliveredTo? (id : SubscriberId) : Event → Option Value
  | .delivered other value => if other = id then some value else none
  | _ => none

/-- The record of a watcher fits the value from its making and what was delivered since. -/
structure Watcher.Tells (w : Watcher ρ) (first : Value) (values : List Value) : Prop where
  fired : w.fireCount = values.length
  refresh : w.policy = .refresh → w.baseline = values.getLastD first ∧
    (first :: values).IsChain fun value later => later.strictEq value = false
  frozen : w.policy = .frozen → w.baseline = first ∧ ∀ value ∈ values, value.strictEq first = false

namespace Watcher.Tells

variable {w : Watcher ρ} {first value : Value} {values : List Value}

/-- A watcher that has just been made. -/
theorem of_new (hfired : w.fireCount = 0) (hbaseline : w.baseline = first) : w.Tells first [] where
  fired := hfired
  refresh _ := ⟨hbaseline, List.isChain_singleton first⟩
  frozen _ := ⟨hbaseline, fun _ hmem => absurd hmem List.not_mem_nil⟩

/-- A watcher receives a value that differs from its baseline. -/
theorem receive (h : w.Tells first values) (hother : value.strictEq w.baseline = false) :
    (w.receive value).Tells first (values ++ [value]) where
  fired := by
    rw [List.length_append, ← h.fired]
    rfl
  refresh hpolicy := by
    have hpolicy : w.policy = .refresh := hpolicy
    obtain ⟨hbaseline, hchain⟩ := h.refresh hpolicy
    refine ⟨?_, ?_⟩
    · rw [List.getLastD_concat]
      simp only [Watcher.receive, hpolicy]
    · rw [← List.cons_append, List.isChain_append]
      refine ⟨hchain, List.isChain_singleton value, fun last hlast next hnext => ?_⟩
      obtain rfl := Option.some.inj hnext
      rw [List.getLast?_cons] at hlast
      obtain rfl := Option.some.inj hlast
      rw [← List.getLastD_eq_getLast?, ← hbaseline]
      exact hother
  frozen hpolicy := by
    have hpolicy : w.policy = .frozen := hpolicy
    obtain ⟨hbaseline, hothers⟩ := h.frozen hpolicy
    refine ⟨?_, fun later hlater => ?_⟩
    · simp only [Watcher.receive, hpolicy, hbaseline]
    · rcases List.mem_append.1 hlater with hlater | hlater
      · exact hothers later hlater
      · rw [List.mem_singleton.1 hlater, ← hbaseline]
        exact hother

/-- A disposal leaves what the record tells. -/
theorem dispose (h : w.Tells first values) : ({ w with disposed := true } : Watcher ρ).Tells first values :=
  ⟨h.fired, h.refresh, h.frozen⟩

end Watcher.Tells

namespace Store

variable {s s' : Store ρ σ} {id : SubscriberId} {value : Value}

/-- The values that a watcher was called with, first to last. -/
def deliveries (s : Store ρ σ) (id : SubscriberId) : List Value :=
  s.journal.reverse.filterMap (Event.deliveredTo? id)

/-- Whoever is not delivered to has the deliveries it had. -/
theorem Undelivered.deliveries (h : s.Undelivered id s') : s'.deliveries id = s.deliveries id := by
  obtain ⟨events, hjournal, hnone⟩ := h
  have hnothing : events.reverse.filterMap (Event.deliveredTo? id) = [] := by
    refine List.filterMap_eq_nil_iff.2 fun event hevent => ?_
    have hevent := List.mem_reverse.1 hevent
    cases event with
    | delivered other value =>
      refine if_neg fun hid => hnone value ?_
      rwa [hid] at hevent
    | _ => rfl
  unfold Store.deliveries
  rw [hjournal, List.reverse_append, List.filterMap_append, hnothing, List.append_nil]

/-- A delivery in the journal comes after the earlier ones. -/
theorem deliveries_of_delivered (h : s'.journal = .delivered id value :: .resolved id value :: s.journal) :
    s'.deliveries id = s.deliveries id ++ [value] := by
  unfold deliveries
  rw [h, List.reverse_cons, List.reverse_cons, List.append_assoc, List.filterMap_append]
  simp [List.filterMap_cons, Event.deliveredTo?]

/-- To enroll a watcher delivers nothing. -/
theorem deliveries_enroll {handles : Nat} {watcher : Watcher ρ} {cells : List CellId} {event : Event}
    (hevent : ∀ value, event ≠ .delivered id value) :
    (s.enroll handles watcher cells event).deliveries id = s.deliveries id :=
  (undelivered_of_cons rfl hevent).deliveries

/-! ## What steps write into the journal -/

/-- A watcher is called only if it is there, and whoever is made is there from then on, with the value from
its making. -/
theorem news_of_step (hstep : Step s s') : ∃ events, s'.journal = events ++ s.journal ∧
    (∀ id value, .delivered id value ∈ events → ∃ w, s.watcher? id = some w) ∧
    ∀ id cells first, .made id cells first ∈ events → id = s.nextSubscriber ∧
      ∃ w, s'.watcher? id = some w ∧ w.fireCount = 0 ∧ w.baseline = first := by
  cases hstep with
  | noted event hnote =>
    refine ⟨[event], rfl, fun id value hmem => ?_, fun id cells first hmem => ?_⟩
    · obtain rfl := List.mem_singleton.1 hmem
      cases hnote
    · obtain rfl := List.mem_singleton.1 hmem
      cases hnote
  | agreed | storedPlain | textWritten | valueWritten | abandoned => exact ⟨[_], rfl, by simp, by simp⟩
  | delivered other watcher value hwatcher =>
    refine ⟨[_, _], rfl, fun id value hmem => ?_, by simp⟩
    rcases List.mem_cons.1 hmem with heq | hmem
    · cases heq
      exact ⟨watcher, hwatcher⟩
    · cases List.mem_singleton.1 hmem
  | made =>
    refine ⟨[_], rfl, by simp, fun id cells first hmem => ?_⟩
    cases List.mem_singleton.1 hmem
    exact ⟨rfl, _, watcher?_enroll_new, rfl, rfl⟩
  | tracked cells =>
    unfold subscribeCollector
    split
    · exact ⟨[], rfl, by simp, by simp⟩
    · exact ⟨[], rfl, by simp, by simp⟩
  | _ => exact ⟨[], rfl, by simp, by simp⟩

/-! ## All watchers -/

/-- The records of all watchers that were made fit what the journal tells of them. -/
structure Told (s : Store ρ σ) : Prop where
  unknown : ∀ {id}, s.subscribers.size ≤ id.index → s.deliveries id = []
  record : ∀ {id cells first}, .made id cells first ∈ s.journal →
    ∃ w, s.watcher? id = some w ∧ w.Tells first (s.deliveries id)

/-- What befalls a watcher leaves its record fitting. -/
theorem Befalls.tells (h : Befalls id s s') {w : Watcher ρ} {first : Value} (hw : s.watcher? id = some w)
    (htells : w.Tells first (s.deliveries id)) :
    ∃ w', s'.watcher? id = some w' ∧ w'.Tells first (s'.deliveries id) := by
  cases h with
  | none hsame hquiet =>
    refine ⟨w, hsame.trans hw, ?_⟩
    rw [hquiet.deliveries]
    exact htells
  | delivered v value hv hactive hfound hother hv' hjournal =>
    obtain rfl : v = w := Option.some.inj (hv.symm.trans hw)
    refine ⟨_, hv', ?_⟩
    rw [deliveries_of_delivered hjournal]
    exact htells.receive hother
  | disposed hw' hjournal =>
    rw [hw] at hw'
    refine ⟨_, hw', ?_⟩
    rw [(undelivered_of_same hjournal).deliveries]
    exact htells.dispose

/-- Every step leaves the records in line with the journal. -/
theorem Told.step (h : s.Told) (hstep : Step s s') : s'.Told := by
  obtain ⟨events, hjournal, hcalled, hmade⟩ := news_of_step hstep
  have hunknown : ∀ {id}, s.subscribers.size ≤ id.index → s'.deliveries id = [] := by
    intro id hle
    have hquiet : s.Undelivered id s' := by
      refine ⟨events, hjournal, fun value hmem => ?_⟩
      obtain ⟨w, hw⟩ := hcalled id value hmem
      exact absurd (lt_size_of_watcher? hw) (Nat.not_lt_of_le hle)
    rw [hquiet.deliveries, h.unknown hle]
  refine ⟨fun hle => hunknown (Nat.le_trans (size_le_of_step hstep) hle), fun {id cells first} hmem => ?_⟩
  rw [hjournal] at hmem
  rcases List.mem_append.1 hmem with hnew | hold
  · obtain ⟨rfl, w, hw, hfired, hbaseline⟩ := hmade id cells first hnew
    refine ⟨w, hw, ?_⟩
    have hnone : s'.deliveries s.nextSubscriber = [] := hunknown (Nat.le_refl _)
    rw [hnone]
    exact .of_new hfired hbaseline
  · obtain ⟨w, hw, htells⟩ := h.record hold
    exact (befalls_of_step hstep (lt_size_of_watcher? hw)).tells hw htells

/-- Nobody is made, called or changed. -/
theorem Told.of_quiet (h : s.Told) (hsize : s.subscribers.size ≤ s'.subscribers.size)
    (hmakes : s.MakesNobody s') (hquiet : ∀ id, s.Undelivered id s')
    (hwatcher : ∀ id, s'.watcher? id = s.watcher? id) : s'.Told where
  unknown {id} hle := by
    rw [(hquiet id).deliveries]
    exact h.unknown (Nat.le_trans hsize hle)
  record {id cells first} hmade := by
    rw [hwatcher, (hquiet id).deliveries]
    exact h.record (hmakes.made.1 hmade)

/-- A supervised run can watch over the records and the journal. -/
theorem told_supervisable :
    Supervisable (Told : Store ρ σ → Prop) (fun _ s' : Store ρ σ => s'.Told) where
  holds h := h
  refl h := h
  trans _ h := h
  step hstep h := h.step hstep
  storing _ _ h := h.of_quiet (Nat.le_refl _) (.of_cons rfl rfl)
    (fun _ => undelivered_of_cons rfl fun _ heq => by cases heq) fun _ => rfl

/-- Nothing that a host may do by hand calls anybody. -/
theorem told_byHand {op : Op ρ σ} (hhand : op.isByHand = true) (respond : Respond ρ σ) (depth : Nat)
    (s : Store ρ σ) : Run.Keeps (fun s s' => s.Told → s'.Told) s (Run.perform respond depth op) := by
  have hquiet : ∀ {s' : Store ρ σ}, s'.journal = s.journal → s.subscribers.size ≤ s'.subscribers.size →
      (∀ id, s'.watcher? id = s.watcher? id) → s.Told → s'.Told := fun hjournal hsize hwatcher h =>
    h.of_quiet hsize (.of_same hjournal) (fun _ => undelivered_of_same hjournal) hwatcher
  cases op with
  | setActive target active =>
    refine Run.keeps_change (hquiet rfl (Nat.le_of_eq ?_) fun id => watcher?_setActive s target id active)
    simp [setActive, updateSubscriber]
  | subscribe => exact Run.keeps_change (hquiet rfl (Nat.le_refl _) fun _ => rfl)
  | collect => exact Run.keeps_change (hquiet rfl (Nat.le_refl _) fun _ => rfl)
  | _ => cases hhand

/-- Nobody has been told of anything in a document that has just been observed. -/
theorem told_observing (json : Json) (view : View ρ) (host : σ) : (observing json view host).Told where
  unknown _ := rfl
  record hmade := by cases hmade

end Store

end DataBinding
