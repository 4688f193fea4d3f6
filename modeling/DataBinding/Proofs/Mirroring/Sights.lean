import DataBinding.Proofs.Mirroring.Cycle
import DataBinding.Proofs.Model.OwnCells
import DataBinding.Proofs.Watching.Changes
import DataBinding.Proofs.Watching.Entries

/-!
# Who shows a leaf, and how often

A mounted document has one watcher for each path of each thing that a node shows, repeated ones included. A `Sight`
is what such a watcher is for, and `Roster` says of a store that its subscribers are the watchers of a list of
sights, in this order. As different paths lead to different cells, whoever is in the list of a leaf is there once,
and for the path that leads to the leaf. So a write of the leaf has the sights of its path put anew, each of them
once, and nothing else: `Roster.assign`. What this does to a view is said by `View.Rewritten`.
-/

set_option autoImplicit false

namespace DataBinding

variable {ρ σ : Type}

/-! ## Sights -/

/-- The kind of directive that makes a node show a content. -/
def Content.kind : Content → DirectiveKind
  | .value _ => .model
  | .text _ => .text

/-- What a watcher is for: a node, something that the node shows, and a path of that. -/
structure Sight where
  node : NodeId
  content : Content
  path : Path

namespace Sight

/-- Whether one of the writes that a directive of some kind makes is made on a node for a sight. -/
def writes (kind : DirectiveKind) (node : NodeId) (sight : Sight) : Bool :=
  decide (sight.node = node) && decide (sight.content.kind = kind)

/-- A watcher is for a sight. -/
structure WatchedBy (start : Value) (sight : Sight) (w : Watcher ρ) : Prop where
  enabled : w.disposed = false
  refreshes : w.policy = .refresh
  root : w.root = start
  path : w.path = sight.path
  reaction : w.reaction = sight.content.reaction sight.node start

/-- The watcher of a sight is still that when it has received a value. -/
theorem WatchedBy.receive {root : Value} {sight : Sight} {w : Watcher ρ} (h : sight.WatchedBy root w)
    (value : Value) : sight.WatchedBy root (w.receive value) :=
  ⟨h.enabled, h.refreshes, h.root, h.path, h.reaction⟩

end Sight

/-! ## Views in which something is put anew -/

/-- In a view, what some sights show has been put anew, once for each of them, and nothing else has changed. -/
structure View.Rewritten (sights : List Sight) (v v' : View ρ) : Prop where
  size : v'.nodes.size = v.nodes.size
  kind : ∀ node, (v'.node node).kind = (v.node node).kind
  textWrites : ∀ node,
    (v'.node node).textWrites = (v.node node).textWrites + sights.countP (·.writes .text node)
  valueWrites : ∀ node,
    (v'.node node).valueWrites = (v.node node).valueWrites + sights.countP (·.writes .model node)
  same : ∀ node, (∀ sight ∈ sights, sight.node ≠ node) → v'.node node = v.node node

namespace View.Rewritten

variable {v v' v'' : View ρ} {sights others : List Sight}

/-- With no sight, nothing is put anew. -/
theorem refl (v : View ρ) : Rewritten [] v v := ⟨rfl, fun _ => rfl, fun _ => rfl, fun _ => rfl, fun _ _ => rfl⟩

/-- What is put anew in two steps is put anew for the sights of both. -/
theorem trans (h : Rewritten sights v v') (h' : Rewritten others v' v'') : Rewritten (sights ++ others) v v'' where
  size := h'.size.trans h.size
  kind node := (h'.kind node).trans (h.kind node)
  textWrites node := by rw [h'.textWrites, h.textWrites, List.countP_append, Nat.add_assoc]
  valueWrites node := by rw [h'.valueWrites, h.valueWrites, List.countP_append, Nat.add_assoc]
  same node hnode := by
    obtain ⟨hsights, hothers⟩ := List.forall_mem_append.1 hnode
    rw [h'.same node hothers, h.same node hsights]

/-- What a sight shows is put on its node. -/
theorem put {sight : Sight} (hinside : sight.node.index < v.nodes.size) (text : String) :
    Rewritten [sight] v (v.update sight.node (sight.content.put text)) where
  size := size_update v _ _
  kind node := kind_update (sight.content.kind_put text)
  textWrites node := by
    rw [node_update, List.countP_singleton]
    unfold Sight.writes
    by_cases hnode : sight.node = node
    · rw [if_pos ⟨hnode, hinside⟩, decide_eq_true hnode]
      cases sight.content <;> rfl
    · rw [if_neg fun h => hnode h.1, decide_eq_false hnode]
      rfl
  valueWrites node := by
    rw [node_update, List.countP_singleton]
    unfold Sight.writes
    by_cases hnode : sight.node = node
    · rw [if_pos ⟨hnode, hinside⟩, decide_eq_true hnode]
      cases sight.content <;> rfl
    · rw [if_neg fun h => hnode h.1, decide_eq_false hnode]
      rfl
  same node hnode := node_update_of_ne (hnode sight List.mem_cons_self).symm _

end View.Rewritten

/-! ## Rosters -/

/-- Observed data: where it was put, and that different paths lead to different cells of it. -/
structure Ground where
  model : Model
  root : Value
  own : ∀ {path path' cell}, model.target? path root = some cell → model.target? path' root = some cell →
    path = path'

/-- A document that is observed on its own. -/
def Ground.observed (data : Json) : Ground :=
  ⟨(Model.observe data {}).2, (Model.observe data {}).1, Model.observe_target?_unique⟩

/-- A node can show a content: it is there, and all paths lead to leaves. -/
structure Content.Fits (ground : Ground) (v : View ρ) (node : NodeId) (content : Content) : Prop where
  leaves : ∀ path ∈ content.paths, ∃ cell, ground.model.LeafAt ground.root path cell
  inside : node.index < v.nodes.size
  isText : ∀ template, content = .text template → (v.node node).kind = .text

/-- A content still fits its node while the node is there and of the same kind. -/
theorem Content.Fits.of_view {ground : Ground} {v v' : View ρ} {node : NodeId} {content : Content}
    (h : content.Fits ground v node) (hsize : v'.nodes.size = v.nodes.size)
    (hkind : (v'.node node).kind = (v.node node).kind) : content.Fits ground v' node :=
  ⟨h.leaves, hsize ▸ h.inside, fun template heq => hkind.trans (h.isText template heq)⟩

/-- The path of a sight is one of those that are shown, and its node can show them. -/
structure Sight.Fits (ground : Ground) (v : View ρ) (sight : Sight) : Prop where
  listed : sight.path ∈ sight.content.paths
  content : sight.content.Fits ground v sight.node

/-- The subscribers for the sights of a path, in the order of the sights. -/
def Sight.subscribers (sights : List Sight) (path : Path) : List SubscriberId :=
  (sights.zipIdx.filter fun entry => entry.1.path = path).map fun entry => ⟨entry.2⟩

/-- The subscribers are the watchers of some sights, each in the list of the leaf that its path leads to, once,
and in no other list of a leaf. All of them know the value at their path, except those that are still to be told
that it is another one. -/
structure Roster (ground : Ground) (sights : List Sight) (pending : List SubscriberId) (s : Store ρ σ) : Prop where
  idle : s.collector = none
  shape : ground.model.SameShape s.model
  size : s.subscribers.size = sights.length
  watching : ∀ {i : Nat} {sight : Sight}, sights[i]? = some sight → ∃ handles w value,
    s.subscriber? ⟨i⟩ = some ⟨handles + 1, .watching w⟩ ∧ sight.WatchedBy ground.root w ∧
    s.model.peek sight.path ground.root = .ok value ∧
    if ⟨i⟩ ∈ pending then value.strictEq w.baseline = false else w.baseline = value
  enlisted : ∀ {path cell}, s.model.LeafAt ground.root path cell →
    s.entries cell = Sight.subscribers sights path
  fits : ∀ sight ∈ sights, sight.Fits ground s.view

/-- To be of the same shape is symmetric. -/
theorem Model.SameShape.symm {m m' : Model} (h : m.SameShape m') : m'.SameShape m :=
  ⟨h.objects.symm, h.size.symm, fun cell => (h.object? cell).symm⟩

namespace Roster

variable {ground : Ground} {sights : List Sight} {pending rest : List SubscriberId} {s s' : Store ρ σ}
  {respond : Respond ρ σ} {path : Path} {cell : CellId} {value : Value}

/-- All paths of a sight lead to leaves. -/
theorem leafAt (h : Roster ground sights pending s) {sight : Sight} (hsight : sight ∈ sights) :
    ∀ path ∈ sight.content.paths, ∃ cell, s.model.LeafAt ground.root path cell := by
  intro path hpath
  obtain ⟨cell, hleaf⟩ := (h.fits sight hsight).content.leaves path hpath
  exact ⟨cell, h.shape.leafAt hleaf⟩

/-- Sights of one leaf have one path. -/
theorem path_unique (h : Roster ground sights pending s) {path' : Path}
    (hleaf : s.model.LeafAt ground.root path cell) (hleaf' : s.model.LeafAt ground.root path' cell) :
    path = path' :=
  ground.own (h.shape.symm.leafAt hleaf).target (h.shape.symm.leafAt hleaf').target

/-- The roster stays as it is while only the view changes, and nodes keep their kinds. -/
theorem of_view (h : Roster ground sights pending s) (hcollector : s'.collector = s.collector)
    (hmodel : s'.model = s.model) (hsubscribers : s'.subscribers = s.subscribers)
    (hsize : s'.view.nodes.size = s.view.nodes.size)
    (hkind : ∀ node, (s'.view.node node).kind = (s.view.node node).kind) : Roster ground sights pending s' where
  idle := hcollector.trans h.idle
  shape := hmodel ▸ h.shape
  size := hsubscribers ▸ h.size
  watching := by
    unfold Store.subscriber?
    rw [hmodel, hsubscribers]
    exact h.watching
  enlisted := by
    unfold Store.entries
    rw [hmodel]
    exact h.enlisted
  fits sight hsight := ⟨(h.fits sight hsight).listed, (h.fits sight hsight).content.of_view hsize (hkind _)⟩

/-! ## The turn of a watcher -/

/-- A watcher that receives the value at its path knows it, and what its sight shows is put anew. -/
theorem visit {i : Nat} {sight : Sight} (h : Roster ground sights (⟨i⟩ :: rest) s) (hrest : ⟨i⟩ ∉ rest)
    (hsight : sights[i]? = some sight) :
    ∃ s', Run.visit (Run.update respond) ⟨i⟩ s = some (.ok (), s') ∧ Roster ground sights rest s' ∧
      s.view.Rewritten [sight] s'.view := by
  obtain ⟨handles, w, value, hentry, hwatched, hfound, hother⟩ := h.watching hsight
  rw [if_pos List.mem_cons_self] at hother
  have hmem := List.mem_of_getElem? hsight
  have hfits := h.fits sight hmem
  obtain ⟨text, hshown⟩ := Content.shown?_leaves (h.leafAt hmem)
  have hreact : ∀ s₁ : Store ρ σ, s₁.model = s.model → s₁.view = s.view → ∃ event,
      Run.react respond w.reaction value s₁ =
        some (.ok (), (s₁.withView (·.update sight.node (sight.content.put text))).record event) := by
    intro s₁ hmodel hview
    rw [hwatched.reaction]
    exact Content.react respond (fun template heq => hview ▸ hfits.content.isText template heq) hfits.listed
      (hmodel ▸ hfound) (hmodel ▸ hshown)
  have hpeek : s.model.peek w.path w.root = .ok value := by rw [hwatched.path, hwatched.root, hfound]
  obtain ⟨s', hvisit, hcollector, hmodel, hsubscribers, hview⟩ :=
    Run.visit_delivered hentry hwatched.enabled hpeek hother hreact
  have hrewritten : s.view.Rewritten [sight] s'.view := hview ▸ .put hfits.content.inside text
  refine ⟨s', hvisit, ?_, hrewritten⟩
  constructor
  case idle => exact hcollector.trans h.idle
  case shape => exact hmodel ▸ h.shape
  case size =>
    rw [hsubscribers]
    exact (Array.size_modify ..).trans h.size
  case watching =>
    intro j other hj
    have hsubscriber : s'.subscriber? ⟨j⟩ = (s.updateWatcher ⟨i⟩ (·.receive value)).subscriber? ⟨j⟩ := by
      unfold Store.subscriber?
      rw [hsubscribers]
    rw [hsubscriber, hmodel]
    -- The watcher that is told knows the value from now on; what the others know is not touched.
    by_cases hsame : i = j
    · subst hsame
      obtain rfl := Option.some.inj (hsight.symm.trans hj)
      refine ⟨handles, w.receive value, value, Store.subscriber?_updateWatcher hentry _, hwatched.receive value,
        hfound, ?_⟩
      rw [if_neg hrest]
      simp only [Watcher.receive, hwatched.refreshes]
    · obtain ⟨handles', w', value', hentry', hwatched', hfound', hknown⟩ := h.watching hj
      have hne : (⟨j⟩ : SubscriberId) ≠ ⟨i⟩ := fun heq => hsame (SubscriberId.mk.inj heq).symm
      refine ⟨handles', w', value', ?_, hwatched', hfound', ?_⟩
      · rw [Store.updateWatcher, Store.subscriber?_updateSubscriber, if_neg hne.symm, hentry']
      · simpa only [List.mem_cons, hne, false_or] using hknown
  case enlisted =>
    unfold Store.entries
    rw [hmodel]
    exact h.enlisted
  case fits =>
    intro other hother
    obtain ⟨hlisted, hcontent⟩ := h.fits other hother
    exact ⟨hlisted, hcontent.of_view hrewritten.size (hrewritten.kind _)⟩

/-- A cycle through some sights puts what they show anew, each once. -/
theorem each {told : List (Sight × Nat)} (hsights : ∀ entry ∈ told, sights[entry.2]? = some entry.1)
    (hnodup : (told.map Prod.snd).Nodup) (h : Roster ground sights (told.map fun entry => ⟨entry.2⟩) s) :
    ∃ s', Run.each (told.map fun entry => ⟨entry.2⟩) (Run.visit (Run.update respond)) s = some (.ok (), s') ∧
      Roster ground sights [] s' ∧ s.view.Rewritten (told.map Prod.fst) s'.view := by
  induction told generalizing s with
  | nil => exact ⟨s, rfl, h, .refl s.view⟩
  | cons first others ih =>
    obtain ⟨hfirst, hothers⟩ := List.forall_mem_cons.1 hsights
    obtain ⟨hnew, hnodup'⟩ := List.nodup_cons.1 hnodup
    have hrest : (⟨first.2⟩ : SubscriberId) ∉ others.map fun entry => ⟨entry.2⟩ := by
      intro hmem
      obtain ⟨entry, hentry, heq⟩ := List.mem_map.1 hmem
      exact hnew (List.mem_map.2 ⟨entry, hentry, SubscriberId.mk.inj heq⟩)
    obtain ⟨s₁, hvisit, h₁, hrewritten₁⟩ := h.visit hrest hfirst
    obtain ⟨s', heach, h', hrewritten⟩ := ih hothers hnodup' h₁
    exact ⟨s', Run.bind_eq_ok.2 ⟨(), s₁, hvisit, heach⟩, h', hrewritten₁.trans hrewritten⟩

/-! ## Writing a leaf -/

/-- The watcher of a sight is among the subscribers for a path if the sight is of that path. -/
theorem mem_subscribers_iff {i : Nat} {sight : Sight} (hsight : sights[i]? = some sight) (path : Path) :
    ⟨i⟩ ∈ Sight.subscribers sights path ↔ sight.path = path := by
  unfold Sight.subscribers
  simp only [List.mem_map, List.mem_filter, decide_eq_true_eq, Prod.exists, List.mem_zipIdx_iff_getElem?]
  constructor
  · rintro ⟨other, j, ⟨hother, hpath⟩, heq⟩
    obtain rfl := SubscriberId.mk.inj heq
    obtain rfl := Option.some.inj (hsight.symm.trans hother)
    exact hpath
  · exact fun hpath => ⟨sight, i, ⟨hsight, hpath⟩, rfl⟩

/-- The subscribers for a path are live. -/
theorem isLive (h : Roster ground sights pending s) {id : SubscriberId}
    (hid : id ∈ Sight.subscribers sights path) : s.isLive id = true := by
  obtain ⟨⟨sight, i⟩, hentry, rfl⟩ := List.mem_map.1 hid
  obtain ⟨handles, w, value, hsubscriber, hwatched, -⟩ :=
    h.watching (List.mem_zipIdx_iff_getElem?.1 (List.mem_of_mem_filter hentry))
  exact Store.isLive_of_entry hsubscriber hwatched.enabled

/-- The cycle of a leaf that takes another value starts with all sights of its path to be told. -/
theorem cycleStart (h : Roster ground sights [] s) (hleaf : s.model.LeafAt ground.root path cell)
    (hvalue : value.object? = none) (hother : (s.model.cell cell).value.strictEq value = false) :
    Roster ground sights (Sight.subscribers sights path) (s.cycleStart cell value) := by
  have hpruned : (s.model.setCellValue cell value).Alike (s.cycleStart cell value).model :=
    .updateSubscribers _ cell _
  have hshape : s.model.SameShape (s.cycleStart cell value).model :=
    (Model.SameShape.setCellValue hleaf.leaf hvalue).trans (.updateSubscribers _ cell _)
  constructor
  case idle => exact h.idle
  case shape => exact h.shape.trans hshape
  case size => exact h.size
  case watching =>
    intro i sight hsight
    obtain ⟨handles, w, known, hentry, hwatched, hfound, hbaseline⟩ := h.watching hsight
    rw [if_neg List.not_mem_nil] at hbaseline
    have hmem := List.mem_of_getElem? hsight
    obtain ⟨cell', hleaf'⟩ := h.leafAt hmem sight.path (h.fits sight hmem).listed
    obtain rfl := Except.ok.inj (hfound.symm.trans hleaf'.peek)
    have hpeek : (s.cycleStart cell value).model.peek sight.path ground.root =
        .ok (if cell = cell' then value else (s.model.cell cell').value) :=
      (hpruned.peek sight.path ground.root).trans (hleaf'.peek_setCellValue hleaf.leaf hvalue)
    refine ⟨handles, w, _, hentry, hwatched, hpeek, ?_⟩
    simp only [mem_subscribers_iff hsight]
    -- The sights of the path are those whose cell is written, as different paths lead to different cells.
    by_cases hcell : cell = cell'
    · subst hcell
      rw [if_pos (h.path_unique hleaf' hleaf), if_pos rfl, hbaseline, Value.strictEq_comm]
      exact hother
    · have hpath : sight.path ≠ path := by
        rintro rfl
        exact hcell (Option.some.inj (hleaf.target.symm.trans hleaf'.target))
      rw [if_neg hpath, if_neg hcell, hbaseline]
  case enlisted =>
    intro path' cell' hleaf'
    have hentries := h.enlisted (hshape.symm.leafAt hleaf')
    have hcycle := Store.entries_prune (s.storeCell cell value) cell cell'
    rw [Store.entries_storeCell, hentries] at hcycle
    refine hcycle.trans ?_
    split
    · exact List.filter_eq_self.2 fun id hid => h.isLive hid
    · rfl
  case fits => exact h.fits

/-- A write of a leaf comes back. If it changes the leaf, what is shown of it is put anew, once for each sight of
its path; otherwise nothing happens. -/
theorem assign (h : Roster ground sights [] s) (hleaf : s.model.LeafAt ground.root path cell)
    (hvalue : value.object? = none) :
    ∃ changed s', Run.assign (Run.update respond) path ground.root value s = some (.ok changed, s') ∧
      Roster ground sights [] s' ∧ changed = !(s.model.cell cell).value.strictEq value ∧
      (changed = false → s'.view = s.view) ∧
      (changed = true → s.view.Rewritten (sights.filter fun sight => sight.path = path) s'.view) := by
  rw [Run.assign_eq_setCell h.idle hleaf.target]
  cases hsame : (s.model.cell cell).value.strictEq value with
  | true => exact ⟨false, s, Run.setCell_same hsame, h, rfl, fun _ => rfl, nofun⟩
  | false =>
    have hstart := h.cycleStart hleaf hvalue hsame
    have hlisted : ((s.cycleStart cell value).model.cell cell).subscribers = Sight.subscribers sights path :=
      hstart.enlisted (((Model.SameShape.setCellValue hleaf.leaf hvalue).trans
        (.updateSubscribers _ cell _)).leafAt hleaf)
    have hsights : ∀ entry ∈ sights.zipIdx.filter fun entry => entry.1.path = path,
        sights[entry.2]? = some entry.1 := fun entry hentry =>
      List.mem_zipIdx_iff_getElem?.1 (List.mem_of_mem_filter hentry)
    have hnodup : ((sights.zipIdx.filter fun entry => entry.1.path = path).map Prod.snd).Nodup := by
      refine List.Nodup.sublist (List.filter_sublist.map Prod.snd) ?_
      rw [List.zipIdx_map_snd]
      exact List.nodup_range'
    obtain ⟨s', heach, h', hrewritten⟩ := each hsights hnodup hstart
    have hfst : (sights.zipIdx.filter fun entry => entry.1.path = path).map Prod.fst =
        sights.filter fun sight => sight.path = path := by
      conv_rhs => rw [← List.zipIdx_map_fst 0 sights, List.filter_map]
      rfl
    refine ⟨true, s', Run.setCell_changed hsame ?_, h', rfl, nofun, fun _ => hfst ▸ hrewritten⟩
    rw [hlisted]
    exact heach

end Roster

end DataBinding
