import DataBinding.Proofs.Model.Subscribers
import DataBinding.Proofs.Runs.Writes
import DataBinding.Proofs.Watching.Evolution
import DataBinding.Proofs.Watching.Showing

/-!
# What a write does to a bound text

A text is written anew by each of its watchers that fires, and a watcher fires when it is told of a
change and the value at its path differs from the value that it delivered last. In one cycle of
notifications the text is therefore rendered from the model that the cycle is about if one of the watchers
told fires, and left alone otherwise. No watcher of another node writes it, and while every watcher only
shows something the model stays as it is during the cycle.
-/

set_option autoImplicit false

namespace DataBinding

variable {ρ σ : Type}

namespace Store

/-- A watcher of a node's text has not delivered the value that a model has at its path. -/
def Fires (s : Store ρ σ) (m : Model) (node : NodeId) (id : SubscriberId) : Prop :=
  ∃ w template root value, s.watcher? id = some w ∧ w.reaction = .showText node template root ∧
    m.peek w.path w.root = .ok value ∧ value.strictEq w.baseline = false

/-- `Fires`, computed. -/
def fires (s : Store ρ σ) (m : Model) (node : NodeId) (id : SubscriberId) : Bool :=
  match s.watcher? id with
  | none => false
  | some w =>
    match w.reaction, m.peek w.path w.root with
    | .showText target _ _, .ok value => target = node && !value.strictEq w.baseline
    | _, _ => false

/-- The computation of who fires is right. -/
theorem fires_iff (s : Store ρ σ) (m : Model) (node : NodeId) (id : SubscriberId) :
    s.fires m node id = true ↔ s.Fires m node id := by
  unfold fires
  constructor
  · intro h
    split at h
    · cases h
    · next w hwatcher =>
      split at h
      · next target template root value hreaction hfound =>
        simp only [Bool.and_eq_true, decide_eq_true_eq, Bool.not_eq_true'] at h
        obtain ⟨rfl, hother⟩ := h
        exact ⟨w, template, root, value, hwatcher, hreaction, hfound, hother⟩
      · cases h
  · rintro ⟨w, template, root, value, hwatcher, hreaction, hfound, hother⟩
    simp [hwatcher, hreaction, hfound, hother]

instance (s : Store ρ σ) (m : Model) (node : NodeId) : DecidablePred (s.Fires m node) := fun id =>
  decidable_of_iff _ (fires_iff s m node id)

/-- The text of a node is the template rendered from the model. -/
def InStep (root : Value) (node : NodeId) (template : Template) (s : Store ρ σ) : Prop :=
  s.model.render? template root = some (.ok (s.view.node node).text)

variable {s s' : Store ρ σ} {root : Value} {node : NodeId} {template : Template}
  {id other : SubscriberId} {w : Watcher ρ}

/-- A change outside the collector slot, the subscribers and the view shows what was shown. -/
theorem Shows.of_same (h : s.Shows root node template) (hcollector : s'.collector = s.collector)
    (hsubscribers : s'.subscribers = s.subscribers) (hview : s'.view = s.view) :
    s'.Shows root node template where
  idle := hcollector.trans h.idle
  watching {id subscriber} hentry := by
    unfold subscriber? at hentry
    rw [hsubscribers] at hentry
    exact h.watching hentry
  inView := by
    rw [hview]
    exact h.inView
  isText := by
    rw [hview]
    exact h.isText

/-- A delivery that leaves the node a text leaves every watcher one that shows something. -/
theorem Shows.of_receive (h : s.Shows root node template) {value : Value}
    (hcollector : s'.collector = s.collector)
    (hsubscribers : s'.subscribers = (s.updateWatcher id (·.receive value)).subscribers)
    (hinView : node.index < s'.view.nodes.size) (hisText : (s'.view.node node).kind = .text) :
    s'.Shows root node template where
  idle := hcollector.trans h.idle
  watching {target subscriber} hentry := by
    unfold subscriber? at hentry
    rw [hsubscribers] at hentry
    simp only [updateWatcher, updateSubscriber, Array.getElem?_modify] at hentry
    split at hentry
    · obtain ⟨before, hbefore, rfl⟩ := Option.map_eq_some_iff.1 hentry
      obtain ⟨handles, w, rfl, hw⟩ := h.watching hbefore
      exact ⟨handles, w.receive value, rfl, hw.receive value⟩
    · exact h.watching hentry
  inView := hinView
  isText := hisText

/-! ## One turn -/

/-- A turn leaves a text alone, or it belongs to a watcher of the text and renders it. -/
theorem text_of_shown (h : s.Shows root node template) (hw : w.Shows root node template)
    {v' : View ρ} (hshown : Shown s.model s.view w.reaction v') :
    node.index < v'.nodes.size ∧ (v'.node node).kind = .text ∧
      ((v'.shownText node = s.view.shownText node ∧
          ∀ other base, w.reaction ≠ .showText node other base) ∨
        ((∃ other base, w.reaction = .showText node other base) ∧
          s.model.render? template root = some (.ok (v'.node node).text))) := by
  generalize hreaction : w.reaction = reaction at hshown
  cases hshown with
  | value target text =>
    refine ⟨?_, ?_, .inl ⟨View.shownText_setValue s.view node target text, by simp⟩⟩
    · unfold View.setValue
      rw [View.size_update]
      exact h.inView
    · rw [View.kind_setValue]
      exact h.isText
  | text target other base text hrender =>
    refine ⟨Nat.lt_of_lt_of_le h.inView (View.size_le_setText s.view target text), ?_, ?_⟩
    · rw [View.kind_setText h.inView]
      exact h.isText
    · by_cases htarget : node = target
      · subst htarget
        obtain ⟨rfl, rfl⟩ := hw.agrees other base hreaction
        refine .inr ⟨⟨other, base, rfl⟩, ?_⟩
        rw [View.text_setText h.inView h.isText]
        exact hrender
      · refine .inl ⟨?_, fun other' base' heq => ?_⟩
        · unfold View.shownText
          rw [View.node_setText_of_ne h.inView htarget]
        · cases heq
          exact htarget rfl

/-- Whatever a turn comes to, the watchers go on showing what they show. -/
theorem Shows.turn (h : s.Shows root node template) {result : Except Error Unit}
    (hw : w.Shows root node template) (hcollector : s'.collector = s.collector)
    (hturn : Turn id w s s' result) : s'.Shows root node template := by
  cases hturn with
  | agreed value _ _ _ hsubscribers hview => exact h.of_same hcollector hsubscribers hview
  | delivered value _ _ _ hsubscribers hshown =>
    obtain ⟨hinView, hisText, -⟩ := text_of_shown h hw hshown
    exact h.of_receive hcollector hsubscribers hinView hisText
  | failed e _ hsubscribers hview =>
    rcases hsubscribers with hsubscribers | ⟨value, hsubscribers⟩
    · exact h.of_same hcollector hsubscribers hview
    · refine h.of_receive hcollector hsubscribers ?_ ?_
      · rw [hview]
        exact h.inView
      · rw [hview]
        exact h.isText

/-- A turn of another watcher neither lets a watcher fire nor keeps it from it. -/
theorem fires_turn_of_ne (hne : other ≠ id) {m : Model} {result : Except Error Unit}
    (hturn : Turn id w s s' result) : s'.Fires m node other ↔ s.Fires m node other := by
  have hwatcher : s'.watcher? other = s.watcher? other := by
    cases hturn with
    | agreed value _ _ _ hsubscribers _ => exact watcher?_of_subscribers hsubscribers
    | delivered value _ _ _ hsubscribers _ =>
      rw [watcher?_of_subscribers hsubscribers, watcher?_updateWatcher_of_ne hne]
    | failed e _ hsubscribers _ =>
      rcases hsubscribers with hsubscribers | ⟨value, hsubscribers⟩
      · exact watcher?_of_subscribers hsubscribers
      · rw [watcher?_of_subscribers hsubscribers, watcher?_updateWatcher_of_ne hne]
  unfold Fires
  rw [hwatcher]

/-- What a turn that comes back does to a text. -/
theorem text_of_turn (h : s.Shows root node template) (hwatcher : s.watcher? id = some w)
    (hw : w.Shows root node template) (hturn : Turn id w s s' (.ok ())) :
    s'.model = s.model ∧ (s.Fires s.model node id → s'.InStep root node template) ∧
      (s.InStep root node template → s'.InStep root node template) ∧
      (¬ s.Fires s.model node id →
        s'.view.shownText node = s.view.shownText node ∧ ¬ s'.Fires s.model node id) := by
  cases hturn with
  | agreed value hfound hsame hmodel hsubscribers hview =>
    have hquiet : ¬ s.Fires s.model node id := by
      rintro ⟨w', other, base, value', hwatcher', -, hfound', hother⟩
      obtain rfl := Option.some.inj (hwatcher.symm.trans hwatcher')
      rw [hfound] at hfound'
      cases hfound'
      rw [hsame] at hother
      cases hother
    refine ⟨hmodel, fun hfires => absurd hfires hquiet, fun hstep => ?_, fun _ => ⟨by rw [hview], ?_⟩⟩
    · unfold InStep at hstep ⊢
      rw [hmodel, hview]
      exact hstep
    · unfold Fires
      rw [watcher?_of_subscribers hsubscribers]
      exact hquiet
  | delivered value hfound hother hmodel hsubscribers hshown =>
    obtain ⟨-, -, ⟨htext, hreaction⟩ | ⟨⟨other, base, hreaction⟩, hrendered⟩⟩ := text_of_shown h hw hshown
    · have hquiet : ¬ s.Fires s.model node id := by
        rintro ⟨w', other, base, value', hwatcher', hreaction', -⟩
        obtain rfl := Option.some.inj (hwatcher.symm.trans hwatcher')
        exact hreaction other base hreaction'
      refine ⟨hmodel, fun hfires => absurd hfires hquiet, fun hstep => ?_, fun _ => ⟨htext, ?_⟩⟩
      · unfold InStep at hstep ⊢
        rw [hmodel, hstep]
        exact congrArg (fun shown => some (Except.ok (Prod.fst shown))) htext.symm
      · rintro ⟨w', other, base, value', hwatcher', hreaction', -⟩
        rw [watcher?_of_subscribers hsubscribers, watcher?_updateWatcher_self hwatcher] at hwatcher'
        obtain rfl := Option.some.inj hwatcher'
        exact hreaction other base hreaction'
    · have hstep : s'.InStep root node template := by
        unfold InStep
        rw [hmodel]
        exact hrendered
      have hfires : s.Fires s.model node id := ⟨w, other, base, value, hwatcher, hreaction, hfound, hother⟩
      exact ⟨hmodel, fun _ => hstep, fun _ => hstep, fun hquiet => absurd hfires hquiet⟩

/-! ## A cycle -/

open Run (visit update each notify setCell)

variable {respond : Respond ρ σ}

/-- An entry of a list is that of a watcher, which takes its turn, or of nobody. -/
theorem visit_cases (h : s.Shows root node template) {result : Except Error Unit}
    (hrun : visit (update respond) id s = some (result, s')) :
    (s' = s ∧ result = .ok () ∧ s.watcher? id = none) ∨
      ∃ w, s.watcher? id = some w ∧ w.Shows root node template ∧ s'.collector = s.collector ∧
        Turn id w s s' result := by
  cases hentry : s.subscriber? id with
  | none =>
    have hdead : s.isLive id = false := by simp [isLive, hentry]
    unfold visit at hrun
    rw [Run.look_bind, hdead] at hrun
    cases hrun
    exact .inl ⟨rfl, rfl, by simp [watcher?, hentry]⟩
  | some subscriber =>
    obtain ⟨handles, w, rfl, hw⟩ := h.watching hentry
    obtain ⟨hcollector, hturn⟩ := Run.visit_turn hentry hw hrun
    exact .inr ⟨w, by simp [watcher?, hentry], hw, hcollector, hturn⟩

/-- Whatever a cycle comes to, the watchers go on showing what they show. -/
theorem Shows.each (h : s.Shows root node template) (entries : List SubscriberId)
    {result : Except Error Unit} (hrun : each entries (visit (update respond)) s = some (result, s')) :
    s'.Shows root node template := by
  induction entries generalizing s with
  | nil =>
    cases hrun
    exact h
  | cons first rest ih =>
    have hshows : ∀ outcome s₁, visit (update respond) first s = some (outcome, s₁) →
        s₁.Shows root node template := by
      intro outcome s₁ hfirst
      obtain ⟨rfl, -, -⟩ | ⟨w, -, hw, hcollector, hturn⟩ := visit_cases h hfirst
      · exact h
      · exact h.turn hw hcollector hturn
    obtain ⟨e, hfirst, -⟩ | ⟨⟨⟩, s₁, hfirst, hrest⟩ := Run.bind_cases hrun
    · exact hshows _ _ hfirst
    · exact ih (hshows _ _ hfirst) hrest

/-- What a cycle that comes back does to a text: if a watcher of the text in the list fires, the text is
in step afterwards, and otherwise it is not written. -/
theorem text_of_each (h : s.Shows root node template) (entries : List SubscriberId)
    (hrun : each entries (visit (update respond)) s = some (.ok (), s')) :
    s'.model = s.model ∧
      ((∃ id ∈ entries, s.Fires s.model node id) → s'.InStep root node template) ∧
      (s.InStep root node template → s'.InStep root node template) ∧
      ((∀ id ∈ entries, ¬ s.Fires s.model node id) →
        s'.view.shownText node = s.view.shownText node) := by
  induction entries generalizing s with
  | nil =>
    cases hrun
    exact ⟨rfl, fun ⟨id, hmem, _⟩ => absurd hmem List.not_mem_nil, fun hstep => hstep, fun _ => rfl⟩
  | cons first rest ih =>
    obtain ⟨s₁, hfirst, hrest⟩ := Run.each_cons_ok hrun
    obtain ⟨rfl, -, hnobody⟩ | ⟨w, hwatcher, hw, hcollector, hturn⟩ := visit_cases h hfirst
    · obtain ⟨hmodel, hfired, hstays, hquiet⟩ := ih h hrest
      refine ⟨hmodel, ?_, hstays, fun hnone => hquiet fun id hid => hnone id (List.mem_cons_of_mem _ hid)⟩
      rintro ⟨id, hid, hfires⟩
      rcases List.mem_cons.1 hid with rfl | hid
      · obtain ⟨w, -, -, -, hwatcher, -⟩ := hfires
        rw [hnobody] at hwatcher
        cases hwatcher
      · exact hfired ⟨id, hid, hfires⟩
    · have h₁ := h.turn hw hcollector hturn
      obtain ⟨hmodel₁, hfired₁, hstays₁, hquiet₁⟩ := text_of_turn h hwatcher hw hturn
      obtain ⟨hmodel, hfired, hstays, hquiet⟩ := ih h₁ hrest
      rw [hmodel₁] at hfired hquiet
      refine ⟨hmodel.trans hmodel₁, ?_, fun hstep => hstays (hstays₁ hstep), fun hnone => ?_⟩
      · rintro ⟨id, hid, hfires⟩
        by_cases hsame : id = first
        · subst hsame
          exact hstays (hfired₁ hfires)
        · have hrest' : id ∈ rest := (List.mem_cons.1 hid).resolve_left hsame
          exact hfired ⟨id, hrest', (fires_turn_of_ne hsame hturn).2 hfires⟩
      · obtain ⟨htext, hquiet'⟩ := hquiet₁ (hnone first List.mem_cons_self)
        refine (hquiet fun id hid => ?_).trans htext
        by_cases hsame : id = first
        · rw [hsame]
          exact hquiet'
        · rw [fires_turn_of_ne hsame hturn]
          exact hnone id (List.mem_cons_of_mem _ hid)

/-! ## A write -/

/-- The start of a cycle changes nothing that is shown. -/
theorem Shows.cycleStart (h : s.Shows root node template) (cell : CellId) (value : Value) :
    (s.cycleStart cell value).Shows root node template :=
  h.of_same rfl rfl rfl

/-- Since everybody is live, a watcher that is in the list is still in it when the cycle starts. -/
theorem mem_cycleStart (h : s.Shows root node template) (cell : CellId) (value : Value)
    (hw : s.watcher? id = some w) (hmem : id ∈ (s.model.cell cell).subscribers) :
    id ∈ ((s.cycleStart cell value).model.cell cell).subscribers := by
  refine Model.mem_subscribers_updateSubscribers (fun hmem => ?_)
    (Model.mem_subscribers_setCellValue cell value hmem)
  refine List.mem_filter.2 ⟨hmem, ?_⟩
  cases hentry : s.subscriber? id with
  | none => simp [watcher?, hentry] at hw
  | some subscriber =>
    obtain ⟨handles, w', rfl, hw'⟩ := h.watching hentry
    simp [isLive, hentry, Subscriber.isLive, Subscriber.isAlive, Role.isActive, hw'.enabled]

/-- The start of a cycle puts nobody into the list. -/
theorem mem_of_mem_cycleStart {cell : CellId} {value : Value}
    (hmem : id ∈ ((s.cycleStart cell value).model.cell cell).subscribers) :
    id ∈ (s.model.cell cell).subscribers := by
  have hstored : ((s.model.setCellValue cell value).cell cell).subscribers =
      (s.model.cell cell).subscribers := by
    rw [Model.cell_setCellValue]
    split <;> rfl
  have hmem : id ∈ (((s.model.setCellValue cell value).updateSubscribers cell
      (·.filter s.isLive)).cell cell).subscribers := hmem
  rw [Model.cell_updateSubscribers] at hmem
  split at hmem
  · exact hstored ▸ (List.mem_filter.1 hmem).1
  · exact hstored ▸ hmem

/-- The write of a cell leaves every watcher one that shows something. -/
theorem Shows.setCell (h : s.Shows root node template) {cell : CellId} {value : Value}
    {result : Except Error Bool}
    (hrun : setCell (update respond) cell value s = some (result, s')) :
    s'.Shows root node template := by
  obtain ⟨-, -, rfl⟩ | ⟨outcome, s₁, heach, hend⟩ := setCell_cases hrun
  · exact h
  · have h₁ := (h.cycleStart cell value).each _ heach
    obtain ⟨-, -, rfl⟩ | ⟨e, -, rfl⟩ := hend
    · exact h₁
    · exact h₁.of_same rfl rfl rfl

/-- What the successful write of a cell does to a text. -/
theorem text_of_setCell (h : s.Shows root node template) {cell : CellId} {value : Value}
    (hrun : setCell (update respond) cell value s = some (.ok true, s')) :
    ((∃ id ∈ (s.model.cell cell).subscribers, s.Fires s'.model node id) →
        s'.InStep root node template) ∧
      ((∀ id ∈ (s.model.cell cell).subscribers, ¬ s.Fires s'.model node id) →
        s'.view.shownText node = s.view.shownText node) := by
  obtain ⟨-, hfalse, -⟩ | ⟨outcome, s₁, heach, hend⟩ := setCell_cases hrun
  · cases hfalse
  · obtain ⟨rfl, -, rfl⟩ | ⟨e, herror, -⟩ := hend
    · obtain ⟨hmodel, hfired, -, hquiet⟩ := text_of_each (h.cycleStart cell value) _ heach
      rw [hmodel]
      constructor
      · rintro ⟨id, hid, hfires⟩
        refine hfired ⟨id, ?_, hfires⟩
        obtain ⟨w, -, -, -, hwatcher, -⟩ := hfires
        exact mem_cycleStart h cell value hwatcher hid
      · intro hnone
        exact hquiet fun id hid => hnone id (mem_of_mem_cycleStart hid)
    · cases herror

end Store

namespace Store

open Run (visit update each notify setCell assign setKey container)

variable {s s' : Store ρ σ} {root base : Value} {node : NodeId} {template : Template}
  {respond : Respond ρ σ}

/-- The container of a path is found without a trace, or it is not found, which is all that the journal
shows. -/
theorem container_cases (h : s.collector = none) {path : Path} {result : Except Error ObjectId}
    (hrun : container path base s = some (result, s')) :
    (∃ object, result = .ok object ∧ s' = s ∧
        (s.model.followKeys path.text path.parents base).outcome = .ok (.object object)) ∨
      ((∃ e, result = .error e ∧ s' = s.record (.raised e)) ∧ s.model.target? path base = none) := by
  have hidle : ∀ cells, s.subscribeCollector cells = s := by
    intro cells
    unfold subscribeCollector
    rw [h]
  unfold container at hrun
  rw [Run.look_bind, Run.change_bind, hidle] at hrun
  unfold Model.target?
  cases hfound : (s.model.followKeys path.text path.parents base).outcome with
  | error e =>
    rw [hfound] at hrun
    cases hrun
    exact .inr ⟨⟨e, rfl, rfl⟩, rfl⟩
  | ok value =>
    rw [hfound] at hrun
    cases value with
    | object object =>
      cases hrun
      exact .inl ⟨object, rfl, rfl, rfl⟩
    | _ =>
      cases hrun
      exact .inr ⟨⟨_, rfl, rfl⟩, rfl⟩

/-- The write of a key leaves every watcher one that shows something. -/
theorem Shows.setKey (h : s.Shows root node template) {object : ObjectId} {key : String}
    {value : Value} {result : Except Error Bool}
    (hrun : setKey (update respond) object key value s = some (result, s')) :
    s'.Shows root node template := by
  unfold Run.setKey at hrun
  rw [Run.look_bind] at hrun
  cases hslot : s.model.slot? object key with
  | none =>
    rw [hslot] at hrun
    cases hrun
    exact h.of_same rfl rfl rfl
  | some slot =>
    rw [hslot] at hrun
    cases slot with
    | reactive cell => exact h.setCell hrun
    | plain current =>
      simp only at hrun
      split at hrun
      · cases hrun
        exact h
      · cases hrun
        exact h.of_same rfl rfl rfl

/-- The write of a path leaves every watcher one that shows something. -/
theorem Shows.assign (h : s.Shows root node template) {path : Path} {value : Value}
    {result : Except Error Bool}
    (hrun : assign (update respond) path base value s = some (result, s')) :
    s'.Shows root node template := by
  unfold Run.assign at hrun
  rw [Run.bind_apply] at hrun
  unfold Run.writing at hrun
  cases hcontainer : container path base s with
  | none =>
    rw [hcontainer] at hrun
    cases hrun
  | some outcome =>
    obtain ⟨found, s₁⟩ := outcome
    rw [hcontainer] at hrun
    obtain ⟨object, rfl, rfl, -⟩ | ⟨⟨e, rfl, rfl⟩, -⟩ := container_cases h.idle hcontainer
    · exact h.setKey hrun
    · cases hrun
      exact h.of_same rfl rfl rfl

end Store

end DataBinding
