import DataBinding.Proofs.Mirroring.Plan
import DataBinding.Proofs.Model.Equality
import DataBinding.Proofs.Runs.Outcomes

/-!
# Notify cycles over a wired document

When a leaf is written, the watchers of its cell do not know the new value, and the nodes that they show it in
are behind. `Plan.Owing` says that this is all: a watcher that does not know the value at its path is among the
entries still to be told, and of a node that is behind there is such a watcher. The turn of an entry settles
what that entry owes, whichever other watchers the node has, and so the cycle comes back with nothing owed. A
write and an input of a text come to such a cycle, or find nothing to do.
-/

set_option autoImplicit false

namespace DataBinding

variable {ρ σ : Type} {s s' : Store ρ σ} {id : SubscriberId} {w : Watcher ρ}

/-- A watcher with a certain reaction does not know the value at its path. -/
def Store.Stale (s : Store ρ σ) (id : SubscriberId) (reaction : Reaction ρ) : Prop :=
  ∃ w value, s.watcher? id = some w ∧ w.reaction = reaction ∧ s.model.peek w.path w.root = .ok value ∧
    value.strictEq w.baseline = false

/-! ## The turn of a watcher -/

namespace Run

variable {respond : Respond ρ σ} {handles : Nat} {value : Value}

/-- A watcher that knows the value at its path does nothing. -/
theorem visit_agreed (hentry : s.subscriber? id = some ⟨handles + 1, .watching w⟩)
    (henabled : w.disposed = false) (hfound : s.model.peek w.path w.root = .ok value)
    (hsame : value.strictEq w.baseline = true) :
    ∃ s', visit (update respond) id s = some (.ok (), s') ∧ s'.collector = s.collector ∧
      s'.model = s.model ∧ s'.subscribers = s.subscribers ∧ s'.view = s.view := by
  have hw : (s.retain id).watcher? id = some w :=
    (Store.watcher?_retain s id id).trans (Store.watcher?_of_entry hentry)
  refine ⟨((s.retain id).lookedAt id value).release id, ?_, rfl, rfl, Store.release_retained hentry rfl, rfl⟩
  rw [visit_live (Store.isLive_of_entry hentry henabled), update_agreed hw henabled hfound hsame]
  rfl

/-- A watcher that does not know the value at its path receives it, and what its reaction does to the view is
done. -/
theorem visit_delivered (hentry : s.subscriber? id = some ⟨handles + 1, .watching w⟩)
    (henabled : w.disposed = false) (hfound : s.model.peek w.path w.root = .ok value)
    (hother : value.strictEq w.baseline = false) {f : View ρ → View ρ}
    (hreact : ∀ s₁ : Store ρ σ, s₁.model = s.model → s₁.view = s.view → ∃ event,
      react respond w.reaction value s₁ = some (.ok (), (s₁.withView f).record event)) :
    ∃ s', visit (update respond) id s = some (.ok (), s') ∧ s'.collector = s.collector ∧
      s'.model = s.model ∧ s'.subscribers = (s.updateWatcher id (·.receive value)).subscribers ∧
      s'.view = f s.view := by
  have hw : (s.retain id).watcher? id = some w :=
    (Store.watcher?_retain s id id).trans (Store.watcher?_of_entry hentry)
  have hupdate : update respond id (s.retain id) =
      react respond w.reaction value ((s.retain id).deliverTo id value) :=
    update_delivered hw henabled hfound hother
  have hcollector : ((s.retain id).deliverTo id value).collector = s.collector := rfl
  have hmodel : ((s.retain id).deliverTo id value).model = s.model := rfl
  have hview : ((s.retain id).deliverTo id value).view = s.view := rfl
  have hreceived : ((s.retain id).deliverTo id value).subscribers =
      ((s.retain id).updateWatcher id (·.receive value)).subscribers := rfl
  -- From here on only these four facts matter about the store in which the reaction starts.
  generalize (s.retain id).deliverTo id value = s₁ at hupdate hcollector hmodel hview hreceived
  obtain ⟨event, hreacted⟩ := hreact s₁ hmodel hview
  rw [hreacted] at hupdate
  refine ⟨((s₁.withView f).record event).release id, ?_, hcollector, hmodel,
    Store.release_received hentry hreceived, congrArg f hview⟩
  rw [visit_live (Store.isLive_of_entry hentry henabled), hupdate]
  rfl

/-- Nobody is told in the place of a subscriber that is not there. -/
theorem visit_nobody (hnone : s.subscriber? id = none) (tell : SubscriberId → Run ρ σ Unit) :
    visit tell id s = some (.ok (), s) := by
  have hdead : s.isLive id = false := by simp [Store.isLive, hnone]
  exact visit_dead hdead tell

end Run

namespace Plan

variable {plan : Plan ρ} {done : List NodeId} {pending : List SubscriberId} {node : NodeId}
  {content : Content}

/-- A node shows what a content comes to. -/
def Current (plan : Plan ρ) (s : Store ρ σ) (node : NodeId) (content : Content) : Prop :=
  content.shown? s.model plan.root = some (content.read (s.view.node node))

/-- Only entries that are still to be told are behind, and nodes only if such an entry shows them anew. -/
structure Owing (plan : Plan ρ) (done : List NodeId) (pending : List SubscriberId) (s : Store ρ σ) :
    Prop where
  wired : plan.Wired done s
  known : ∀ {id w}, s.watcher? id = some w → ∃ value, s.model.peek w.path w.root = .ok value ∧
    (w.baseline = value ∨ id ∈ pending ∧ value.strictEq w.baseline = false)
  current : ∀ {node content}, node ∈ done → plan.content? node = some content →
    plan.Current s node content ∨ ∃ id ∈ pending, s.Stale id (content.reaction node plan.root)

/-- A node stays current while the model and the node are the same. -/
theorem current_of_same (h : plan.Current s node content) (hmodel : s'.model = s.model)
    (hnode : s'.view.node node = s.view.node node) : plan.Current s' node content := by
  unfold Current
  rw [hmodel, hnode]
  exact h

/-- A node is current once what its content comes to has been put there. -/
theorem Wired.current_put (h : plan.Wired done s) (hcontent : plan.content? node = some content)
    {text : String} (hshown : content.shown? s.model plan.root = some text) (hmodel : s'.model = s.model)
    (hview : s'.view = s.view.update node (content.put text)) : plan.Current s' node content := by
  unfold Current
  rw [hmodel, hview, View.node_update, if_pos ⟨rfl, h.inside hcontent⟩, content.read_put]
  exact hshown

/-- A watcher stays stale while the model and the watcher are the same. -/
theorem stale_of_same {reaction : Reaction ρ} (h : s.Stale id reaction) (hmodel : s'.model = s.model)
    (hwatcher : s'.watcher? id = s.watcher? id) : s'.Stale id reaction := by
  obtain ⟨w, value, hw, hreaction, hfound, hother⟩ := h
  exact ⟨w, value, hwatcher.trans hw, hreaction, hmodel ▸ hfound, hother⟩

namespace Owing

variable {rest : List SubscriberId}

/-- A change outside the collector slot, the model, the subscribers and the view owes what was owed. -/
theorem of_same (h : plan.Owing done pending s) (hcollector : s'.collector = s.collector)
    (hmodel : s'.model = s.model) (hsubscribers : s'.subscribers = s.subscribers)
    (hview : s'.view = s.view) : plan.Owing done pending s' := by
  have hwatcher : ∀ id, s'.watcher? id = s.watcher? id := fun id =>
    Store.watcher?_of_subscribers hsubscribers
  constructor
  case wired =>
    refine h.wired.frame hcollector (hmodel ▸ .refl s.model) (fun _ hmem => hmodel ▸ hmem)
      (.inl hsubscribers) ?_
    rw [hview]
    exact .refl done s.view
  case known =>
    intro id w hw
    rw [hmodel]
    exact h.known ((hwatcher id).symm.trans hw)
  case current =>
    intro node content hnode hcontent
    rcases h.current hnode hcontent with hcurrent | ⟨id, hmem, hstale⟩
    · exact .inl (current_of_same hcurrent hmodel (by rw [hview]))
    · exact .inr ⟨id, hmem, stale_of_same hstale hmodel (hwatcher id)⟩

/-- An entry that is not behind owes nothing. -/
theorem settled (h : plan.Owing done (id :: rest) s) (hquiet : ∀ reaction, ¬ s.Stale id reaction) :
    plan.Owing done rest s := by
  have hrest : ∀ {other reaction}, other ∈ id :: rest → s.Stale other reaction → other ∈ rest := by
    intro other reaction hmem hstale
    refine (List.mem_cons.1 hmem).resolve_left ?_
    rintro rfl
    exact hquiet reaction hstale
  refine ⟨h.wired, fun {other w} hw => ?_, fun hnode hcontent => ?_⟩
  · obtain ⟨value, hfound, hknown⟩ := h.known hw
    refine ⟨value, hfound, hknown.imp_right fun ⟨hmem, hother⟩ => ⟨?_, hother⟩⟩
    exact hrest hmem ⟨w, value, hw, rfl, hfound, hother⟩
  · refine (h.current hnode hcontent).imp_right fun ⟨other, hmem, hstale⟩ => ?_
    exact ⟨other, hrest hmem hstale, hstale⟩

/-- A watcher that receives the value at its path owes nothing any more, and its node is current. -/
theorem delivered (h : plan.Owing done (id :: rest) s) (hw : s.watcher? id = some w) {value : Value}
    (hfound : s.model.peek w.path w.root = .ok value) (hcontent : plan.content? node = some content)
    (hreaction : w.reaction = content.reaction node plan.root) {text : String}
    (hshown : content.shown? s.model plan.root = some text)
    (hcollector : s'.collector = s.collector) (hmodel : s'.model = s.model)
    (hsubscribers : s'.subscribers = (s.updateWatcher id (·.receive value)).subscribers)
    (hview : s'.view = s.view.update node (content.put text)) :
    plan.Owing done rest s' := by
  have hwatcher : ∀ other, s'.watcher? other =
      if id = other then (s.watcher? other).map (·.receive value) else s.watcher? other := by
    intro other
    rw [Store.watcher?_of_subscribers hsubscribers, Store.watcher?_updateWatcher]
  constructor
  case wired =>
    refine h.wired.frame hcollector (hmodel ▸ .refl s.model) (fun _ hmem => hmodel ▸ hmem)
      (.inr ⟨id, value, hsubscribers⟩) ?_
    rw [hview]
    exact .update s.view (content.kind_put text) fun _ => content.listeners_put text
  case known =>
    intro other w' hw'
    rw [hwatcher] at hw'
    split at hw'
    · next hsame =>
      subst hsame
      rw [hw] at hw'
      obtain rfl := Option.some.inj hw'
      exact ⟨value, hmodel ▸ hfound, .inl ((h.wired.watches hw).baseline_receive value)⟩
    · next hother =>
      obtain ⟨value', hfound', hknown⟩ := h.known hw'
      refine ⟨value', hmodel ▸ hfound', hknown.imp_right fun ⟨hmem, hbehind⟩ => ⟨?_, hbehind⟩⟩
      exact (List.mem_cons.1 hmem).resolve_left (Ne.symm hother)
  case current =>
    intro target shown hdone htarget
    by_cases hnode : node = target
    · -- The node of the watcher: all of it has been put there anew.
      subst hnode
      obtain rfl := Option.some.inj (hcontent.symm.trans htarget)
      exact .inl (h.wired.current_put hcontent hshown hmodel hview)
    · rcases h.current hdone htarget with hcurrent | ⟨other, hmem, hstale⟩
      · refine .inl (current_of_same hcurrent hmodel ?_)
        rw [hview, View.node_update_of_ne (Ne.symm hnode)]
      · have hother : id ≠ other := by
          rintro rfl
          obtain ⟨w', -, hw', hreaction', -⟩ := hstale
          obtain rfl := Option.some.inj (hw.symm.trans hw')
          exact hnode (Content.node_of_reaction (hreaction.symm.trans hreaction'))
        refine .inr ⟨other, (List.mem_cons.1 hmem).resolve_left (Ne.symm hother), ?_⟩
        exact stale_of_same hstale hmodel (by rw [hwatcher, if_neg hother])

/-! ## A cycle -/

open Run (visit update each notify setCell assign)

variable {respond : Respond ρ σ}

/-- The turn of an entry settles what it owes. -/
theorem visit (h : plan.Owing done (id :: rest) s) :
    ∃ s', Run.visit (update respond) id s = some (.ok (), s') ∧ plan.Owing done rest s' ∧
      s'.model = s.model := by
  cases hentry : s.subscriber? id with
  | none =>
    have hnone : s.watcher? id = none := by simp [Store.watcher?, hentry]
    refine ⟨s, Run.visit_nobody hentry _, h.settled ?_, rfl⟩
    rintro reaction ⟨w, value, hw, -⟩
    rw [hnone] at hw
    cases hw
  | some subscriber =>
    obtain ⟨handles, w, rfl, hwatches⟩ := h.wired.watching hentry
    have hw : s.watcher? id = some w := by simp [Store.watcher?, hentry]
    obtain ⟨value, hfound, -⟩ := h.known hw
    cases hsame : value.strictEq w.baseline with
    | true =>
      obtain ⟨s', hvisit, hcollector, hmodel, hsubscribers, hview⟩ :=
        Run.visit_agreed hentry hwatches.enabled hfound hsame
      -- A watcher that agrees with the value at its path was not behind.
      refine ⟨s', hvisit, (h.settled ?_).of_same hcollector hmodel hsubscribers hview, hmodel⟩
      rintro reaction ⟨w', value', hw', -, hfound', hother⟩
      obtain rfl := Option.some.inj (hw.symm.trans hw')
      rw [hfound] at hfound'
      cases hfound'
      rw [hsame] at hother
      cases hother
    | false =>
      obtain ⟨node, content, hcontent, hpath, hreaction⟩ := hwatches.shows
      obtain ⟨text, hshown⟩ := Content.shown?_leaves (h.wired.leaves hcontent)
      have hreact : ∀ s₁ : Store ρ σ, s₁.model = s.model → s₁.view = s.view → ∃ event,
          Run.react respond w.reaction value s₁ =
            some (.ok (), (s₁.withView (·.update node (content.put text))).record event) := by
        intro s₁ hmodel hview
        rw [hreaction]
        refine Content.react respond ?_ hpath ?_ ?_
        · rintro template rfl
          rw [hview]
          exact h.wired.isText hcontent
        · rw [hmodel, ← hwatches.root]
          exact hfound
        · rw [hmodel]
          exact hshown
      obtain ⟨s', hvisit, hcollector, hmodel, hsubscribers, hview⟩ :=
        Run.visit_delivered hentry hwatches.enabled hfound hsame hreact
      exact ⟨s', hvisit, h.delivered hw hfound hcontent hreaction hshown hcollector hmodel hsubscribers
        hview, hmodel⟩

/-- A cycle comes back, and nothing is owed. -/
theorem each {entries : List SubscriberId} (h : plan.Owing done entries s) :
    ∃ s', Run.each entries (Run.visit (update respond)) s = some (.ok (), s') ∧
      plan.Owing done [] s' ∧ s'.model = s.model := by
  induction entries generalizing s with
  | nil => exact ⟨s, rfl, h, rfl⟩
  | cons first rest ih =>
    obtain ⟨s₁, hfirst, h₁, hmodel₁⟩ := h.visit
    obtain ⟨s', hrest, h', hmodel⟩ := ih h₁
    exact ⟨s', Run.bind_eq_ok.2 ⟨(), s₁, hfirst, hrest⟩, h', hmodel.trans hmodel₁⟩

end Owing

/-! ## When a leaf is to be written -/

open Run (visit update)

variable {respond : Respond ρ σ} {cell : CellId} {path : Path} {value : Value}

/-- A document is wired, its watchers know the values at their paths, and every node is current, except that
nodes which show a certain cell may be behind if the cell is to take another value. -/
structure Ready (plan : Plan ρ) (done : List NodeId) (cell : CellId) (value : Value) (s : Store ρ σ) :
    Prop where
  wired : plan.Wired done s
  known : ∀ {id w}, s.watcher? id = some w → s.model.peek w.path w.root = .ok w.baseline
  current : ∀ {node content}, node ∈ done → plan.content? node = some content →
    plan.Current s node content ∨ ((s.model.cell cell).value.strictEq value = false ∧
      ∃ path ∈ content.paths, s.model.target? path plan.root = some cell)

/-- If nobody is still to be told, every watcher knows the value at its path. -/
theorem Owing.known_nothing (h : plan.Owing done [] s) (hw : s.watcher? id = some w) :
    s.model.peek w.path w.root = .ok w.baseline := by
  obtain ⟨value, hfound, rfl | ⟨hmem, -⟩⟩ := h.known hw
  · exact hfound
  · cases hmem

/-- If nobody is still to be told, every node that is done is current. -/
theorem Owing.current_nothing (h : plan.Owing done [] s) (hnode : node ∈ done)
    (hcontent : plan.content? node = some content) : plan.Current s node content := by
  obtain hcurrent | ⟨id, hmem, -⟩ := h.current hnode hcontent
  · exact hcurrent
  · cases hmem

/-- If nobody is still to be told, a leaf can be written. -/
theorem Owing.ready (h : plan.Owing done [] s) (cell : CellId) (value : Value) :
    plan.Ready done cell value s :=
  ⟨h.wired, h.known_nothing, fun hnode hcontent => .inl (h.current_nothing hnode hcontent)⟩

/-- A cycle starts with the value at the paths to its cell, and with the old ones at all others. -/
theorem peek_cycleStart {cell' : CellId} (hleaf : s.model.LeafAt plan.root path cell')
    (hcell : (s.model.cell cell).value.object? = none) (hvalue : value.object? = none) :
    (s.cycleStart cell value).model.peek path plan.root =
      .ok (if cell = cell' then value else (s.model.cell cell').value) := by
  have hpruned : (s.model.setCellValue cell value).Alike (s.cycleStart cell value).model :=
    .updateSubscribers _ cell _
  rw [hpruned.peek, hleaf.peek_setCellValue hcell hvalue]

/-- The start of a cycle drops no watcher from the lists. -/
theorem Ready.listed_cycleStart (h : plan.Ready done cell value s) (hw : s.watcher? id = some w)
    {cell' : CellId} (hmem : id ∈ (s.model.cell cell').subscribers) :
    id ∈ ((s.cycleStart cell value).model.cell cell').subscribers := by
  refine Model.mem_subscribers_updateSubscribers (fun hmem => ?_)
    (Model.mem_subscribers_setCellValue cell value hmem)
  exact List.mem_filter.2 ⟨hmem, h.wired.isLive hw⟩

/-- A watcher of the cell that is written has yet to be told of the value. -/
theorem Ready.behind_cycleStart (h : plan.Ready done cell value s) (hvalue : value.object? = none)
    (hother : (s.model.cell cell).value.strictEq value = false) (hw : s.watcher? id = some w)
    (htarget : s.model.target? w.path plan.root = some cell) :
    id ∈ ((s.cycleStart cell value).model.cell cell).subscribers ∧
      (s.cycleStart cell value).model.peek w.path w.root = .ok value ∧
      value.strictEq w.baseline = false := by
  obtain ⟨cell', hleaf⟩ := h.wired.leaf_of_watcher? hw
  obtain rfl : cell' = cell := Option.some.inj (hleaf.target.symm.trans htarget)
  have hroot := (h.wired.watches hw).root
  have hbaseline := h.known hw
  rw [hroot, hleaf.peek] at hbaseline
  refine ⟨h.listed_cycleStart hw (h.wired.enlisted hw htarget), ?_, ?_⟩
  · rw [hroot, peek_cycleStart hleaf hleaf.leaf hvalue, if_pos rfl]
  · rw [Value.strictEq_comm, ← Except.ok.inj hbaseline]
    exact hother

/-- The cycle of a leaf starts with its entries owing what has changed. -/
theorem Ready.cycleStart (h : plan.Ready done cell value s) (hleaf : s.model.LeafAt plan.root path cell)
    (hvalue : value.object? = none) (hother : (s.model.cell cell).value.strictEq value = false) :
    plan.Owing done ((s.cycleStart cell value).model.cell cell).subscribers (s.cycleStart cell value) := by
  have hpeek : ∀ {path cell'}, s.model.LeafAt plan.root path cell' →
      (s.cycleStart cell value).model.peek path plan.root =
        .ok (if cell = cell' then value else (s.model.cell cell').value) :=
    fun hleaf' => peek_cycleStart hleaf' hleaf.leaf hvalue
  constructor
  case wired =>
    have hshape : s.model.SameShape (s.cycleStart cell value).model :=
      (Model.SameShape.setCellValue hleaf.leaf hvalue).trans (.updateSubscribers _ cell _)
    exact h.wired.frame rfl hshape (fun hw hmem => h.listed_cycleStart hw hmem) (.inl rfl)
      (.refl done s.view)
  case known =>
    intro id w hw
    have hsubscribers : (s.cycleStart cell value).subscribers = s.subscribers := rfl
    rw [Store.watcher?_of_subscribers hsubscribers] at hw
    obtain ⟨cell', hleaf'⟩ := h.wired.leaf_of_watcher? hw
    by_cases hcell : cell = cell'
    · subst hcell
      obtain ⟨hmem, hfound, hbaseline⟩ := h.behind_cycleStart hvalue hother hw hleaf'.target
      exact ⟨value, hfound, .inr ⟨hmem, hbaseline⟩⟩
    · have hroot := (h.wired.watches hw).root
      have hbaseline := h.known hw
      rw [hroot, hleaf'.peek] at hbaseline
      refine ⟨_, ?_, .inl (Except.ok.inj hbaseline).symm⟩
      rw [hroot, hpeek hleaf', if_neg hcell]
  case current =>
    intro node content hnode hcontent
    -- A node that shows the leaf has a watcher in the list; any other node shows what it showed.
    by_cases hdepends : ∃ path ∈ content.paths, s.model.target? path plan.root = some cell
    · obtain ⟨path, hpath, htarget⟩ := hdepends
      obtain ⟨id, w, hw, rfl, hreaction⟩ := h.wired.covered hnode hcontent hpath
      obtain ⟨hmem, hfound, hbaseline⟩ := h.behind_cycleStart hvalue hother hw htarget
      exact .inr ⟨id, hmem, w, value, hw, hreaction, hfound, hbaseline⟩
    · have hcurrent := (h.current hnode hcontent).resolve_right fun hbehind => hdepends hbehind.2
      have hleaves := h.wired.leaves hcontent
      have hshown : content.shown? (s.cycleStart cell value).model plan.root =
          content.shown? s.model plan.root := by
        refine Content.shown?_congr hleaves fun path hpath => ?_
        obtain ⟨cell', hleaf'⟩ := hleaves path hpath
        have hcell : cell ≠ cell' := by
          rintro rfl
          exact hdepends ⟨path, hpath, hleaf'.target⟩
        rw [hpeek hleaf', if_neg hcell, hleaf'.peek]
      exact .inl (hshown.trans hcurrent)

/-! ## Writing a leaf -/

/-- A write of a leaf comes back, nothing is owed, and the leaf is what was written or equal to it. -/
theorem Ready.assign (h : plan.Ready done cell value s) (hleaf : s.model.LeafAt plan.root path cell)
    (hvalue : value.object? = none) :
    ∃ changed s', Run.assign (Run.update respond) path plan.root value s = some (.ok changed, s') ∧
      plan.Owing done [] s' ∧ ∃ stored, s'.model.peek path plan.root = .ok stored ∧
        (stored = value ∨ stored.strictEq value = true) := by
  rw [Run.assign_eq_setCell h.wired.idle hleaf.target]
  cases hsame : (s.model.cell cell).value.strictEq value with
  | true =>
    refine ⟨false, s, Run.setCell_same hsame, ⟨h.wired, ?_, ?_⟩, _, hleaf.peek, .inr hsame⟩
    · intro id w hw
      exact ⟨_, h.known hw, .inl rfl⟩
    · intro node content hnode hcontent
      refine .inl ((h.current hnode hcontent).resolve_right fun hbehind => ?_)
      rw [hsame] at hbehind
      cases hbehind.1
  | false =>
    have hstart := h.cycleStart hleaf hvalue hsame
    obtain ⟨s', heach, howing, hmodel⟩ := hstart.each
    have hfound : s'.model.peek path plan.root = .ok value := by
      rw [hmodel, peek_cycleStart hleaf hleaf.leaf hvalue, if_pos rfl]
    exact ⟨true, s', Run.setCell_changed hsame heach, howing, value, hfound, .inl rfl⟩

/-! ## Typing over a value -/

/-- After a text was typed over the value of a node, at most that value is not current. -/
theorem Owing.typeOver (h : plan.Owing done [] s) (node : NodeId) (text : String) :
    plan.Wired done (s.withView (·.typeOver node text)) ∧
      ∀ {target content}, target ∈ done → plan.content? target = some content →
        plan.Current (s.withView (·.typeOver node text)) target content ∨
          target = node ∧ ∃ path, content = .value path := by
  constructor
  · exact h.wired.frame rfl (.refl s.model) (fun _ hmem => hmem) (.inl rfl)
      (.update s.view (fun _ => rfl) fun _ _ => rfl)
  · intro target content htarget hcontent
    have hcurrent := h.current_nothing htarget hcontent
    by_cases hnode : target = node
    · cases content with
      | value path => exact .inr ⟨hnode, path, rfl⟩
      | text template =>
        refine .inl (hcurrent.trans (congrArg some ?_))
        change (s.view.node target).text = ((s.view.typeOver node text).node target).text
        unfold View.typeOver
        rw [View.node_update]
        split <;> rfl
    · exact .inl (current_of_same hcurrent rfl (View.node_update_of_ne hnode _))

/-- A value that is strictly equal to a text is that text. -/
theorem eq_of_strictEq_string {value : Value} {text : String}
    (h : value.strictEq (.string text) = true) : value = .string text := by
  cases value with
  | string other => exact congrArg Value.string (eq_of_beq h)
  | _ => cases h

/-- The value that was typed is current if the model holds the text already; otherwise it waits for the text to
be written. -/
theorem Owing.ready_typed (h : plan.Owing done [] s) (hcontent : plan.content? node = some (.value path))
    (hleaf : s.model.LeafAt plan.root path cell) (text : String) :
    plan.Ready done cell (.string text) (s.withView (·.typeOver node text)) := by
  obtain ⟨hwired, hcurrent⟩ := h.typeOver node text
  refine ⟨hwired, h.known_nothing, fun {target content} htarget htarget' => ?_⟩
  obtain hcurrent | ⟨rfl, other, rfl⟩ := hcurrent htarget htarget'
  · exact .inl hcurrent
  · obtain rfl : other = path := by
      rw [hcontent] at htarget'
      cases htarget'
      rfl
    cases hsame : (s.model.cell cell).value.strictEq (.string text) with
    | false => exact .inr ⟨hsame, other, List.mem_cons_self, hleaf.target⟩
    | true =>
      have hfound : s.model.peek other plan.root = .ok (.string text) := by
        rw [hleaf.peek, eq_of_strictEq_string hsame]
      have hvalue : ((s.view.typeOver target text).node target).value = text := by
        unfold View.typeOver
        rw [View.node_update, if_pos ⟨rfl, h.wired.inside hcontent⟩]
      refine .inl ?_
      change Content.shown? s.model plan.root (.value other) =
        some ((s.view.typeOver target text).node target).value
      simp only [Content.shown?, hfound, hvalue, Model.display?, Option.map_some, String.ofList_toList]

/-- An input of a text comes back and nothing is owed; where the value of the node is bound, the model holds the
text. -/
theorem Owing.input (h : plan.Owing plan.nodes [] s) (hnode : node ∈ plan.nodes) (text : String) :
    ∃ s', Run.input respond node text s = some (.ok (), s') ∧ plan.Owing plan.nodes [] s' ∧
      ∀ path, plan.content? node = some (.value path) →
        s'.model.peek path plan.root = .ok (.string text) := by
  obtain ⟨hwired, hcurrent⟩ := h.typeOver node text
  unfold Run.input
  rw [Run.change_bind, Run.look_bind, hwired.listeners hnode]
  by_cases hvalue : ∃ path, plan.content? node = some (.value path)
  · obtain ⟨path, hcontent⟩ := hvalue
    obtain ⟨cell, hleaf⟩ := h.wired.leaves hcontent path List.mem_cons_self
    obtain ⟨changed, s', hassign, howing, stored, hfound, hstored⟩ :=
      (h.ready_typed hcontent hleaf text).assign hleaf rfl
    obtain rfl : stored = .string text := hstored.elim id eq_of_strictEq_string
    have hhear : Run.hear respond text (.assign plan.root path) (s.withView (·.typeOver node text)) =
        some (.ok (), s') := Run.bind_eq_ok.2 ⟨changed, s', hassign, rfl⟩
    rw [listeners_of_value hcontent]
    refine ⟨s', Run.bind_eq_ok.2 ⟨(), s', hhear, rfl⟩, howing, fun other hother => ?_⟩
    obtain rfl : path = other := Content.value.inj (Option.some.inj (hcontent.symm.trans hother))
    exact hfound
  · have hvalue : ∀ path, plan.content? node ≠ some (.value path) := fun path hcontent =>
      hvalue ⟨path, hcontent⟩
    rw [listeners_of_not_value hvalue]
    refine ⟨_, rfl, ⟨hwired, fun hw => ⟨_, h.known_nothing hw, .inl rfl⟩, ?_⟩, ?_⟩
    · intro target content htarget hcontent
      refine .inl ((hcurrent htarget hcontent).resolve_right ?_)
      rintro ⟨rfl, path, rfl⟩
      exact hvalue path hcontent
    · exact fun path hcontent => absurd hcontent (hvalue path)

end Plan

end DataBinding
