import DataBinding.Proofs.Mirroring.Contents

/-!
# How a mounted document is wired

A `Plan` says what each node of a document is to show, before anything is mounted: the data is observed, the
tree stands in a view, and every path that is bound leads to a leaf.

`Plan.Wired` says of a store how the nodes in a list are bound. Every subscriber is a watcher of the plan that
refreshes its baseline, and it is in the list of the cell that its path leads to. Every path of a node is
watched for the node. Whether the watchers know the values at their paths, and whether the nodes show what they
are to show, is left open: it is what changes in the course of a notify cycle.
-/

set_option autoImplicit false

namespace DataBinding

variable {ρ σ : Type}

namespace View

/-- The nodes of two views are of the same kinds, and the nodes in a list have the same listeners. -/
structure SameFrame (nodes : List NodeId) (v v' : View ρ) : Prop where
  size : v'.nodes.size = v.nodes.size
  kind : ∀ node, (v'.node node).kind = (v.node node).kind
  listeners : ∀ node ∈ nodes, (v'.node node).listeners = (v.node node).listeners

/-- Every view has its own frame. -/
theorem SameFrame.refl (nodes : List NodeId) (v : View ρ) : SameFrame nodes v v :=
  ⟨rfl, fun _ => rfl, fun _ _ => rfl⟩

/-- One node changes, but is still of its kind. -/
theorem SameFrame.update {nodes : List NodeId} (v : View ρ) {target : NodeId} {f : Node ρ → Node ρ}
    (hkind : ∀ n, (f n).kind = n.kind) (hlisteners : target ∈ nodes → ∀ n, (f n).listeners = n.listeners) :
    SameFrame nodes v (v.update target f) where
  size := size_update v target f
  kind node := kind_update hkind
  listeners node hnode := by
    rw [node_update]
    split
    · next hsame => exact hlisteners (hsame.1 ▸ hnode) _
    · rfl

end View

namespace Store

variable {s s' : Store ρ σ}

/-- At most one watcher has received a value. -/
def Receives (s s' : Store ρ σ) : Prop :=
  s'.subscribers = s.subscribers ∨
    ∃ id value, s'.subscribers = (s.updateWatcher id (·.receive value)).subscribers

/-- A watcher is the one that it was, but for what it has received. -/
theorem Receives.watcher? (h : s.Receives s') (id : SubscriberId) :
    s'.watcher? id = s.watcher? id ∨ ∃ value, s'.watcher? id = (s.watcher? id).map (·.receive value) := by
  rcases h with hsame | ⟨target, value, hreceived⟩
  · exact .inl (watcher?_of_subscribers hsame)
  · rw [watcher?_of_subscribers hreceived, watcher?_updateWatcher]
    split
    · exact .inr ⟨value, rfl⟩
    · exact .inl rfl

end Store

/-- What a document is to show: the data as it is observed, the view as it is before anything is mounted, and
the content of each node that has one. -/
structure Plan (ρ : Type) where
  root : Value
  model : Model
  view : View ρ
  nodes : List NodeId
  content? : NodeId → Option Content
  inside : ∀ {node}, node ∈ nodes → node.index < view.nodes.size
  listed : ∀ {node content}, content? node = some content → node ∈ nodes
  isText : ∀ {node template}, content? node = some (.text template) → (view.node node).kind = .text
  leaves : ∀ {node content}, content? node = some content →
    ∀ path ∈ content.paths, ∃ cell, model.LeafAt root path cell

namespace Plan

variable {plan : Plan ρ} {done : List NodeId} {s s' : Store ρ σ}

/-- The listeners of a node once it is bound. -/
def listeners (plan : Plan ρ) (node : NodeId) : List (Listener ρ) :=
  match plan.content? node with
  | some content => content.listeners plan.root
  | none => []

/-- A node that is bound to a value listens for what is typed over it. -/
theorem listeners_of_value {node : NodeId} {path : Path}
    (hcontent : plan.content? node = some (.value path)) :
    plan.listeners node = [.assign plan.root path] := by
  unfold listeners
  rw [hcontent]
  rfl

/-- A node that is bound to no value has no listeners. -/
theorem listeners_of_not_value {node : NodeId} (h : ∀ path, plan.content? node ≠ some (.value path)) :
    plan.listeners node = [] := by
  unfold listeners
  cases hcontent : plan.content? node with
  | none => rfl
  | some content =>
    cases content with
    | value path => exact absurd hcontent (h path)
    | text template => rfl

/-- A watcher that shows a content of the plan. -/
structure Watches (plan : Plan ρ) (w : Watcher ρ) : Prop where
  enabled : w.disposed = false
  refreshes : w.policy = .refresh
  root : w.root = plan.root
  shows : ∃ node content, plan.content? node = some content ∧ w.path ∈ content.paths ∧
    w.reaction = content.reaction node plan.root

/-- A watcher of the plan is still one when it has received a value. -/
theorem Watches.receive {w : Watcher ρ} (h : plan.Watches w) (value : Value) :
    plan.Watches (w.receive value) :=
  ⟨h.enabled, h.refreshes, h.root, h.shows⟩

/-- A watcher of the plan refreshes its baseline to what it receives. -/
theorem Watches.baseline_receive {w : Watcher ρ} (h : plan.Watches w) (value : Value) :
    (w.receive value).baseline = value := by
  simp only [Watcher.receive, h.refreshes]

/-- The nodes in a list are bound as planned. -/
structure Wired (plan : Plan ρ) (done : List NodeId) (s : Store ρ σ) : Prop where
  idle : s.collector = none
  shape : plan.model.SameShape s.model
  watching : ∀ {id subscriber}, s.subscriber? id = some subscriber →
    ∃ handles w, subscriber = ⟨handles + 1, .watching w⟩ ∧ plan.Watches w
  enlisted : ∀ {id w cell}, s.watcher? id = some w → s.model.target? w.path plan.root = some cell →
    id ∈ (s.model.cell cell).subscribers
  covered : ∀ {node content path}, node ∈ done → plan.content? node = some content →
    path ∈ content.paths → ∃ id w, s.watcher? id = some w ∧ w.path = path ∧
      w.reaction = content.reaction node plan.root
  size : s.view.nodes.size = plan.view.nodes.size
  kind : ∀ node, (s.view.node node).kind = (plan.view.node node).kind
  listeners : ∀ {node}, node ∈ done → (s.view.node node).listeners = plan.listeners node

namespace Wired

variable (h : plan.Wired done s)

include h

/-- What a watcher is, in the list of subscribers. -/
theorem entry_of_watcher? {id : SubscriberId} {w : Watcher ρ} (hw : s.watcher? id = some w) :
    ∃ handles, s.subscriber? id = some ⟨handles + 1, .watching w⟩ ∧ plan.Watches w := by
  unfold Store.watcher? at hw
  split at hw
  · next handles watcher hentry =>
    obtain ⟨handles', w', heq, hwatches⟩ := h.watching hentry
    cases heq
    cases hw
    exact ⟨handles', hentry, hwatches⟩
  · cases hw

/-- Every watcher is one of the plan. -/
theorem watches {id : SubscriberId} {w : Watcher ρ} (hw : s.watcher? id = some w) : plan.Watches w := by
  obtain ⟨handles, -, hwatches⟩ := h.entry_of_watcher? hw
  exact hwatches

/-- Every watcher is live. -/
theorem isLive {id : SubscriberId} {w : Watcher ρ} (hw : s.watcher? id = some w) :
    s.isLive id = true := by
  obtain ⟨handles, hentry, hwatches⟩ := h.entry_of_watcher? hw
  exact Store.isLive_of_entry hentry hwatches.enabled

/-- The paths of a content lead to leaves. -/
theorem leaves {node : NodeId} {content : Content} (hcontent : plan.content? node = some content) :
    ∀ path ∈ content.paths, ∃ cell, s.model.LeafAt plan.root path cell := by
  intro path hpath
  obtain ⟨cell, hleaf⟩ := plan.leaves hcontent path hpath
  exact ⟨cell, h.shape.leafAt hleaf⟩

/-- The path of every watcher leads to a leaf. -/
theorem leaf_of_watcher? {id : SubscriberId} {w : Watcher ρ} (hw : s.watcher? id = some w) :
    ∃ cell, s.model.LeafAt plan.root w.path cell := by
  obtain ⟨node, content, hcontent, hpath, -⟩ := (h.watches hw).shows
  exact h.leaves hcontent w.path hpath

/-- A node that shows a template is still a text. -/
theorem isText {node : NodeId} {template : Template} (hcontent : plan.content? node = some (.text template)) :
    (s.view.node node).kind = .text :=
  (h.kind node).trans (plan.isText hcontent)

/-- A node that shows something is still in the view. -/
theorem inside {node : NodeId} {content : Content} (hcontent : plan.content? node = some content) :
    node.index < s.view.nodes.size :=
  h.size ▸ plan.inside (plan.listed hcontent)

/-- Every subscriber is still a watcher of the plan after one of them has received a value. -/
theorem watching_of_receives (hsubscribers : s.Receives s') {id : SubscriberId}
    {subscriber : Subscriber ρ} (hentry : s'.subscriber? id = some subscriber) :
    ∃ handles w, subscriber = ⟨handles + 1, .watching w⟩ ∧ plan.Watches w := by
  unfold Store.subscriber? at hentry
  rcases hsubscribers with hsame | ⟨target, value, hreceived⟩
  · rw [hsame] at hentry
    exact h.watching hentry
  · rw [hreceived] at hentry
    simp only [Store.updateWatcher, Store.updateSubscriber, Array.getElem?_modify] at hentry
    split at hentry
    · obtain ⟨before, hbefore, rfl⟩ := Option.map_eq_some_iff.1 hentry
      obtain ⟨handles, w, rfl, hwatches⟩ := h.watching hbefore
      exact ⟨handles, w.receive value, rfl, hwatches.receive value⟩
    · exact h.watching hentry

/-- The wiring stays as it is while leaves are written, lists lose no watchers, watchers receive values, and
nodes keep their kinds and their listeners. -/
theorem frame (hcollector : s'.collector = s.collector) (hshape : s.model.SameShape s'.model)
    (hlists : ∀ {id w cell}, s.watcher? id = some w → id ∈ (s.model.cell cell).subscribers →
      id ∈ (s'.model.cell cell).subscribers)
    (hsubscribers : s.Receives s') (hview : s.view.SameFrame done s'.view) : plan.Wired done s' where
  idle := hcollector.trans h.idle
  shape := h.shape.trans hshape
  watching := h.watching_of_receives hsubscribers
  enlisted {id w cell} hw htarget := by
    -- The cell that the watcher's path leads to is still the same.
    have henlisted : ∀ {before : Watcher ρ}, s.watcher? id = some before → before.path = w.path →
        id ∈ (s'.model.cell cell).subscribers := by
      intro before hbefore hpath
      obtain ⟨cell', hleaf⟩ := h.leaf_of_watcher? hbefore
      have htarget' := hshape.target? hleaf.target
      rw [hpath, htarget] at htarget'
      cases htarget'
      exact hlists hbefore (h.enlisted hbefore hleaf.target)
    rcases hsubscribers.watcher? id with hsame | ⟨value, hreceived⟩
    · exact henlisted (hsame.symm.trans hw) rfl
    · obtain ⟨before, hbefore, rfl⟩ := Option.map_eq_some_iff.1 (hreceived.symm.trans hw)
      exact henlisted hbefore rfl
  covered hnode hcontent hpath := by
    obtain ⟨id, w, hw, hwpath, hreaction⟩ := h.covered hnode hcontent hpath
    rcases hsubscribers.watcher? id with hsame | ⟨value, hreceived⟩
    · exact ⟨id, w, hsame.trans hw, hwpath, hreaction⟩
    · exact ⟨id, w.receive value, by rw [hreceived, hw]; rfl, hwpath, hreaction⟩
  size := hview.size.trans h.size
  kind node := (hview.kind node).trans (h.kind node)
  listeners hnode := (hview.listeners _ hnode).trans (h.listeners hnode)

end Wired

end Plan

end DataBinding
