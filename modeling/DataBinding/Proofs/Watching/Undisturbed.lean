import DataBinding.Proofs.Runs.Writes
import DataBinding.Proofs.Watching.Deliveries

/-!
# Watchers that nobody disturbs

`Store.Takes id v w values` says that a watcher goes from one record to another, is called with these values
meanwhile, and that nothing else happens that could matter to it: it is held as before, it has as many
entries in each list, and no property is written. Whatever leaves a watcher alone is the case in which it is
called with nothing.

If reactions leave a watcher alone, then so do the turns of all others in a cycle. So a cycle in whose list the
watcher has one entry comes down to the turn of that entry (`Run.each_own_turn`), and what the watcher takes in
that turn is what it takes in the cycle.
-/

set_option autoImplicit false

namespace DataBinding

variable {ρ σ : Type}

namespace Store

variable {s s₁ s' : Store ρ σ} {id other : SubscriberId} {u v w : Watcher ρ} {values later : List Value}

/-- A watcher goes from one record to another and is called with some values, and nothing else happens that
matters to it. -/
structure Takes (id : SubscriberId) (v w : Watcher ρ) (values : List Value) (s s' : Store ρ σ) : Prop where
  held : ∃ handles more, s.subscriber? id = some ⟨handles, .watching v⟩ ∧
    s'.subscriber? id = some ⟨handles + more, .watching w⟩
  called : s'.deliveries id = s.deliveries id ++ values
  listed : ∀ cell, (s'.entries cell).count id = (s.entries cell).count id
  unwritten : s.model.Onward (fun _ => False) s'.model

/-- A watcher that is active is left alone. -/
def LeavesAlone (id : SubscriberId) (s s' : Store ρ σ) : Prop := ∀ w, s.Active id w → s.Takes id w w [] s'

namespace Takes

/-- A change of nothing but other subscribers takes a watcher from its record to the same, without a call. -/
theorem of_same (hw : s.watcher? id = some w) (hsubscriber : s'.subscriber? id = s.subscriber? id)
    (hquiet : s.Undelivered id s') (hmodel : s'.model = s.model) : s.Takes id w w [] s' where
  held := by
    obtain ⟨handles, hentry⟩ := exists_entry hw
    exact ⟨handles, 0, hentry, hsubscriber.trans hentry⟩
  called := by rw [hquiet.deliveries, List.append_nil]
  listed cell := by
    unfold entries
    rw [hmodel]
  unwritten := .of_eq hmodel

/-- A watcher is called, in two changes, with the values of each. -/
theorem trans (h₁ : s.Takes id u v values s₁) (h₂ : s₁.Takes id v w later s') :
    s.Takes id u w (values ++ later) s' where
  held := by
    obtain ⟨handles, more, hentry, hentry₁⟩ := h₁.held
    obtain ⟨handles₁, more₁, hentry₁', hentry'⟩ := h₂.held
    obtain ⟨rfl, -⟩ := Subscriber.mk.inj (Option.some.inj (hentry₁.symm.trans hentry₁'))
    exact ⟨handles, more + more₁, hentry, Nat.add_assoc handles more more₁ ▸ hentry'⟩
  called := by rw [h₂.called, h₁.called, List.append_assoc]
  listed cell := (h₂.listed cell).trans (h₁.listed cell)
  unwritten := (h₁.unwritten.trans h₂.unwritten).mono fun _ hp => or_self_iff.1 hp

/-- A watcher that ends up enabled stays active. -/
theorem active (h : s.Takes id v w values s') (hv : s.Active id v) (hw : w.disposed = false) :
    s'.Active id w := by
  obtain ⟨handles, more, hentry, hentry'⟩ := h.held
  obtain ⟨n, hactive, -⟩ := hv
  obtain ⟨rfl, -⟩ := Subscriber.mk.inj (Option.some.inj (hentry.symm.trans hactive))
  exact ⟨n + more, Nat.add_right_comm n more 1 ▸ hentry', hw⟩

end Takes

/-- An active watcher is the watcher of its identity. -/
theorem Active.watcher? (h : s.Active id w) : s.watcher? id = some w := (active_iff.1 h).1

/-- An active watcher is not disposed. -/
theorem Active.enabled (h : s.Active id w) : w.disposed = false := h.choose_spec.2

namespace LeavesAlone

/-- No change at all leaves a watcher alone. -/
theorem refl (s : Store ρ σ) : s.LeavesAlone id s :=
  fun _ hw => .of_same hw.watcher? rfl (undelivered_of_same rfl) rfl

/-- Two changes that leave a watcher alone leave it alone together. -/
theorem trans (h₁ : s.LeavesAlone id s₁) (h₂ : s₁.LeavesAlone id s') : s.LeavesAlone id s' :=
  fun w hw => (h₁ w hw).trans (h₂ w ((h₁ w hw).active hw hw.enabled))

/-- A change of nothing but other subscribers leaves a watcher alone. -/
theorem of_same (hsubscriber : s'.subscriber? id = s.subscriber? id) (hquiet : s.Undelivered id s')
    (hmodel : s'.model = s.model) : s.LeavesAlone id s' :=
  fun _ hw => .of_same hw.watcher? hsubscriber hquiet hmodel

end LeavesAlone

/-! ## What happens to others -/

/-- An update of somebody else leaves a watcher alone. -/
theorem leavesAlone_updateSubscriber (hne : other ≠ id) (f : Subscriber ρ → Subscriber ρ) :
    s.LeavesAlone id (s.updateSubscriber other f) :=
  .of_same ((subscriber?_updateSubscriber s other id f).trans (if_neg hne)) (undelivered_of_same rfl) rfl

/-- An event that delivers nothing to a watcher leaves it alone. -/
theorem leavesAlone_record {event : Event} (hevent : ∀ value, event ≠ .delivered id value) :
    s.LeavesAlone id (s.record event) :=
  .of_same rfl (undelivered_of_cons rfl hevent) rfl

/-- A look, also its own, leaves a watcher alone. -/
theorem leavesAlone_lookedAt (other : SubscriberId) (value : Value) :
    s.LeavesAlone id (s.lookedAt other value) :=
  (leavesAlone_record fun _ heq => by cases heq).trans (leavesAlone_record fun _ heq => by cases heq)

/-- A delivery to somebody else leaves a watcher alone. -/
theorem leavesAlone_deliverTo (hne : other ≠ id) (value : Value) :
    s.LeavesAlone id (s.deliverTo other value) := by
  have hreceived : (s.lookedAt other value).LeavesAlone id
      ((s.lookedAt other value).updateWatcher other (·.receive value)) := leavesAlone_updateSubscriber hne _
  refine ((leavesAlone_lookedAt other value).trans hreceived).trans (leavesAlone_record fun _ heq => ?_)
  cases heq
  exact hne rfl

/-- Somebody else is added and subscribed. -/
theorem leavesAlone_enroll {handles : Nat} {watcher : Watcher ρ} {cells : List CellId} {event : Event}
    (hevent : ∀ value, event ≠ .delivered id value) :
    s.LeavesAlone id (s.enroll handles watcher cells event) := by
  intro w hw
  have hold : id ≠ s.nextSubscriber := fun heq => Nat.lt_irrefl _ (heq ▸ hw.lt_size)
  obtain ⟨n, hentry⟩ := exists_entry hw.watcher?
  refine ⟨⟨n, 0, hentry, ?_⟩, ?_, fun cell => ?_, Model.onward_foldl_subscribe cells s.nextSubscriber s.model⟩
  · rw [subscriber?_push rfl, if_neg hold]
    exact hentry
  · rw [deliveries_enroll hevent, List.append_nil]
  · exact count_entries_enroll (Nat.ne_of_lt hw.lt_size) cell

/-- Pruning a list leaves a watcher alone that is active. -/
theorem leavesAlone_prune (s : Store ρ σ) (cell : CellId) : s.LeavesAlone id (s.prune cell) := by
  intro w hw
  obtain ⟨n, hentry⟩ := exists_entry hw.watcher?
  have hquiet : s.Undelivered id (s.prune cell) := undelivered_of_same rfl
  refine ⟨⟨n, 0, hentry, hentry⟩, ?_, fun other => ?_, Model.onward_updateSubscribers s.model cell _⟩
  · rw [hquiet.deliveries, List.append_nil]
  · rw [entries_prune]
    split
    · exact List.count_filter (active_iff.1 hw).2
    · rfl

end Store

open Store (LeavesAlone)

/-! ## The turns of others -/

namespace Run

variable {respond : Respond ρ σ} {s s' t t' : Store ρ σ} {id other : SubscriberId} {w : Watcher ρ}
  {value : Value}

/-- The making of another watcher leaves a watcher alone. -/
theorem leavesAlone_watch (root : Value) (path : Path) (policy : BaselinePolicy) (reaction : Reaction ρ) :
    Keeps (LeavesAlone id) s (watch root path policy reaction) := by
  intro result s' h
  cases hfollow : s.model.follow path root with
  | mk cells outcome =>
    cases outcome with
    | ok found =>
      rw [watch_ok policy reaction hfollow] at h
      cases h
      exact Store.leavesAlone_enroll fun _ heq => by cases heq
    | error e =>
      rw [watch_error policy reaction hfollow] at h
      cases h
      exact Store.leavesAlone_enroll fun _ heq => by cases heq

/-- Reactions leave a watcher alone if the answers to them do. -/
theorem leavesAlone_react (hrespond : Respond.Keeps (LeavesAlone id) respond) (reaction : Reaction ρ)
    (value : Value) : Keeps (LeavesAlone id) s (react respond reaction value) := by
  intro result s' h
  cases reaction with
  | hosted reaction => exact hrespond reaction (.delivered value) s result s' h
  | showValue node =>
    rw [react_showValue] at h
    obtain ⟨text, -, heq⟩ := Option.map_eq_some_iff.1 h
    cases heq
    exact .of_same rfl (Store.undelivered_of_cons rfl fun _ heq => by cases heq) rfl
  | showText node template root =>
    rw [react_showText] at h
    obtain ⟨outcome, -, heq⟩ := Option.map_eq_some_iff.1 h
    cases outcome with
    | ok text =>
      cases heq
      exact .of_same rfl (Store.undelivered_of_cons rfl fun _ heq => by cases heq) rfl
    | error e =>
      cases heq
      exact Store.leavesAlone_record fun _ heq => by cases heq

/-- The update of one subscriber leaves a watcher alone that is another. -/
theorem leavesAlone_update (hrespond : Respond.Keeps (LeavesAlone id) respond) (hne : other ≠ id) :
    Keeps (LeavesAlone id) s (update respond other) := by
  intro result s' h
  have hupdating : s.LeavesAlone id (s.record (.updating other)) :=
    Store.leavesAlone_record fun _ heq => by cases heq
  cases hsubscriber : s.subscriber? other with
  | none =>
    unfold update at h
    rw [change_bind, look_bind, show (s.record (.updating other)).subscriber? other = none from hsubscriber] at h
    cases h
    exact hupdating
  | some subscriber =>
    obtain ⟨handles, ⟨v⟩ | ⟨active, reaction⟩⟩ := subscriber
    · have hv := Store.watcher?_of_entry hsubscriber
      cases hdisposed : v.disposed with
      | true =>
        rw [update_disposed hv hdisposed] at h
        cases h
        exact hupdating
      | false =>
        cases hfound : s.model.peek v.path v.root with
        | error e =>
          rw [update_failed hv hdisposed hfound] at h
          cases h
          exact hupdating.trans (Store.leavesAlone_record fun _ heq => by cases heq)
        | ok value =>
          cases hsame : value.strictEq v.baseline with
          | true =>
            rw [update_agreed hv hdisposed hfound hsame] at h
            cases h
            exact Store.leavesAlone_lookedAt other value
          | false =>
            rw [update_delivered hv hdisposed hfound hsame] at h
            exact (Store.leavesAlone_deliverTo hne value).trans
              (leavesAlone_react hrespond v.reaction value result s' h)
    · unfold update at h
      rw [change_bind, look_bind, show (s.record (.updating other)).subscriber? other = _ from hsubscriber] at h
      exact hupdating.trans (hrespond reaction .notified _ result s' h)

/-- The turn of somebody else leaves a watcher alone if the answers do. -/
theorem leavesAlone_visit (hrespond : Respond.Keeps (LeavesAlone id) respond) (hne : other ≠ id) :
    Keeps (LeavesAlone id) s (visit (update respond) other) := by
  intro result s' h
  cases hlive : s.isLive other with
  | false =>
    rw [visit_dead hlive] at h
    cases h
    exact .refl s
  | true =>
    obtain ⟨s₁, hupdate, rfl⟩ := told_of_visit hlive h
    exact ((Store.leavesAlone_updateSubscriber hne _).trans
      (leavesAlone_update hrespond hne result s₁ hupdate)).trans (Store.leavesAlone_updateSubscriber hne _)

/-- The turns of others leave a watcher alone, one after the other. -/
theorem leavesAlone_each (hrespond : Respond.Keeps (LeavesAlone id) respond) {entries : List SubscriberId}
    (hothers : id ∉ entries) : Keeps (LeavesAlone id) s (each entries (visit (update respond))) := by
  induction entries generalizing s with
  | nil =>
    intro result s' h
    cases h
    exact .refl s
  | cons other rest ih =>
    intro result s' h
    have hne : other ≠ id := fun heq => hothers (heq ▸ List.mem_cons_self)
    obtain ⟨e, hvisit, -⟩ | ⟨⟨⟩, s₁, hvisit, hrest⟩ := bind_cases h
    · exact leavesAlone_visit hrespond hne _ _ hvisit
    · exact (leavesAlone_visit hrespond hne _ _ hvisit).trans
        (ih (fun hmem => hothers (List.mem_cons_of_mem other hmem)) result s' hrest)

/-! ## The turn of the watcher itself -/

/-- Whether, as far as a cycle gets, all turns but those of one subscriber come back without an error. -/
def othersSucceed (tell : SubscriberId → Run ρ σ Unit) (id : SubscriberId) :
    List SubscriberId → Store ρ σ → Bool
  | [], _ => true
  | other :: rest, s =>
    match visit tell other s with
    | some (.ok _, s') => othersSucceed tell id rest s'
    | some (.error _, _) => other = id
    | none => true

/-- A cycle in whose list an active watcher has one entry comes to the turn of that entry, and nobody
disturbs the watcher before or after. -/
theorem each_own_turn (hrespond : Respond.Keeps (LeavesAlone id) respond) {entries : List SubscriberId}
    (hcount : entries.count id = 1) (hw : s.Active id w)
    (hothers : othersSucceed (update respond) id entries s = true) {result : Except Error Unit}
    (h : each entries (visit (update respond)) s = some (result, s')) :
    ∃ t outcome t', s.Takes id w w [] t ∧ update respond id (t.retain id) = some (outcome, t') ∧
      (t'.release id).LeavesAlone id s' := by
  induction entries generalizing s with
  | nil => cases hcount
  | cons other rest ih =>
    by_cases hid : other = id
    · -- The turn of the watcher: it has no other entry, so nobody disturbs it from here on.
      subst hid
      have hothers : other ∉ rest := by
        rw [List.count_cons_self] at hcount
        exact List.count_eq_zero.1 (Nat.succ.inj hcount)
      have hlive := (Store.active_iff.1 hw).2
      obtain ⟨e, hvisit, -⟩ | ⟨⟨⟩, s₁, hvisit, hrest⟩ := bind_cases h
      · obtain ⟨t', hupdate, rfl⟩ := told_of_visit hlive hvisit
        exact ⟨s, _, t', LeavesAlone.refl s w hw, hupdate, .refl _⟩
      · obtain ⟨t', hupdate, rfl⟩ := told_of_visit hlive hvisit
        exact ⟨s, _, t', LeavesAlone.refl s w hw, hupdate,
          leavesAlone_each hrespond hothers result s' hrest⟩
    · have hcount : rest.count id = 1 := by
        rwa [List.count_cons_of_ne hid] at hcount
      obtain ⟨e, hvisit, -⟩ | ⟨⟨⟩, s₁, hvisit, hrest⟩ := bind_cases h
      · simp [othersSucceed, hvisit, hid] at hothers
      · simp only [othersSucceed, hvisit] at hothers
        have hfirst := leavesAlone_visit hrespond hid _ _ hvisit w hw
        obtain ⟨t, outcome, t', hbefore, hupdate, hafter⟩ := ih hcount (hfirst.active hw hw.enabled) hothers hrest
        exact ⟨t, outcome, t', hfirst.trans hbefore, hupdate, hafter⟩

end Run

end DataBinding
