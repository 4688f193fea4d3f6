import DataBinding.Proofs.Mirroring.Cycle
import DataBinding.Proofs.Mirroring.Directives
import DataBinding.Proofs.Watching.Active

/-!
# Mounting a document

Compiling goes through a tree node by node. `Plan.Mounting` says how far it has come: the nodes that are done
are wired and show what they are to show, and all other nodes are as they were planted. Handling the directive
of a node adds the node to those that are done. It cannot fail, for every path that it binds leads to a leaf.
So a pass over a tree that binds only leaves comes back, and all nodes of the tree are done.
-/

set_option autoImplicit false

namespace DataBinding

open Markup (Tree)

variable {ρ σ : Type}

/-! ## Trees that bind leaves only -/

namespace Config

variable {config : Config} {attributes : List (String × String)}

/-- Attributes without the marker are no directives. -/
theorem directives_eq_nil (h : ∀ entry ∈ attributes, directiveName? config.marker entry.1 = none) :
    config.directives attributes = [] := by
  refine List.filterMap_eq_nil_iff.2 fun entry hentry => ?_
  simp only [directive?, h entry hentry, Option.bind_none, Option.map_none]

/-- The only directive among some attributes, and where it stands. -/
theorem directives_eq_singleton (h : config.directiveNames attributes = [DirectiveKind.model.name]) :
    ∃ before entry after, attributes = before ++ entry :: after ∧
      (∀ other ∈ before, directiveName? config.marker other.1 = none) ∧
      directiveName? config.marker entry.1 = some DirectiveKind.model.name ∧
      (∀ other ∈ after, directiveName? config.marker other.1 = none) ∧
      config.directives attributes = [(.model, entry.2)] := by
  obtain ⟨before, entry, after, rfl, hbefore, hname, hafter⟩ := List.filterMap_eq_cons_iff.1 h
  have hafter := List.filterMap_eq_nil_iff.1 hafter
  have hdirective : config.directive? entry = some (.model, entry.2) := by
    simp only [directive?, hname, Option.bind_some, ofName?_model, Option.map_some]
  have hfirst : config.directives before = [] := directives_eq_nil hbefore
  have hlast : config.directives after = [] := directives_eq_nil hafter
  refine ⟨before, entry, after, rfl, hbefore, hname, hafter, ?_⟩
  unfold directives at hfirst hlast ⊢
  rw [List.filterMap_append, hfirst, List.filterMap_cons_some hdirective, hlast, List.nil_append]

end Config

namespace Markup.Tree

mutual

/-- Whether a tree has no directives but those of values, at most one on an element, and markers in its texts,
and whether all of them bind only leaves of a document. -/
def bindsLeaves (config : Config) (data : Json) : Tree → Bool
  | .text content => (config.textDirectives content).all (config.bindsLeaves data)
  | .comment _ => true
  | .element _ attributes children =>
    (config.directiveNames attributes == [] ||
        config.directiveNames attributes == [DirectiveKind.model.name]) &&
      (config.directives attributes).all (config.bindsLeaves data) && allBindLeaves config data children

/-- The same for trees that follow each other. -/
def allBindLeaves (config : Config) (data : Json) : List Tree → Bool
  | [] => true
  | tree :: rest => tree.bindsLeaves config data && allBindLeaves config data rest

end

/-- Trees that follow each other bind only leaves if each of them does. -/
theorem allBindLeaves_iff {config : Config} {data : Json} {trees : List Tree} :
    allBindLeaves config data trees = true ↔ ∀ tree ∈ trees, tree.bindsLeaves config data = true := by
  induction trees with
  | nil => simp [allBindLeaves]
  | cons tree rest ih => simp [allBindLeaves, ih]

end Markup.Tree

namespace View

/-- What a node with at most one directive is to show. -/
def content? (v : View ρ) (config : Config) (node : NodeId) : Option Content :=
  (v.directives config node).head?.bind config.content?

end View

/-- What a content comes to does not depend on the lists of subscribers. -/
theorem Content.shown?_alike {m m' : Model} (h : m.Alike m') (root : Value) (content : Content) :
    content.shown? m' root = content.shown? m root := by
  cases content with
  | value path => simp only [Content.shown?, h.peek, h.display?]
  | text template => simp only [Content.shown?, h.render?]

namespace Plan

variable {plan : Plan ρ} {config : Config} {binder : BinderId} {done : List NodeId} {node : NodeId}
  {content : Content} {path : Path} {s s' : Store ρ σ}

/-- Some paths of a node are watched now, and nothing else has changed. -/
structure Watching (plan : Plan ρ) (config : Config) (binder : BinderId) (done : List NodeId)
    (node : NodeId) (content : Content) (paths : List Path) (s s' : Store ρ σ) : Prop where
  owing : plan.Owing done [] s'
  binds : s'.Binds binder plan.root config
  view : s'.view = s.view
  kept : ∀ {id w}, s.watcher? id = some w → s'.watcher? id = some w
  covered : ∀ path ∈ paths, ∃ id w, s'.watcher? id = some w ∧ w.path = path ∧
    w.reaction = content.reaction node plan.root

/-- The wiring once a watcher of the plan has been made. -/
theorem Wired.enroll (h : plan.Wired done s) {w : Watcher ρ} (hw : plan.Watches w) (hgains : s.Gains w s') :
    plan.Wired done s' := by
  -- A path of the plan leads to the cell that it led to before.
  have hcell : ∀ {path cell cell'}, s.model.LeafAt plan.root path cell' →
      s'.model.target? path plan.root = some cell → cell' = cell := fun hleaf htarget =>
    Option.some.inj ((hgains.sameShape.target? hleaf.target).symm.trans htarget)
  constructor
  case idle => exact hgains.collector.trans h.idle
  case shape => exact h.shape.trans hgains.sameShape
  case watching =>
    intro id subscriber hentry
    rw [Store.subscriber?_push hgains.subscribers] at hentry
    split at hentry
    · obtain rfl := Option.some.inj hentry
      exact ⟨0, w, rfl, hw⟩
    · exact h.watching hentry
  case enlisted =>
    intro id other cell hother htarget
    rw [Store.watcher?_push hgains.subscribers] at hother
    split at hother
    · next hnew =>
      obtain rfl := Option.some.inj hother
      obtain ⟨node, content, hcontent, hpath, -⟩ := hw.shows
      obtain ⟨cell', hleaf⟩ := h.leaves hcontent w.path hpath
      obtain rfl := hcell hleaf htarget
      have hmem : cell' ∈ (s.model.follow w.path w.root).cells := by
        rw [hw.root, Model.follow_of_target? hleaf.target]
        exact List.mem_append_right _ (List.mem_singleton_self cell')
      rw [hgains.entries hleaf.inside, hnew]
      exact List.mem_append_right _ (List.mem_replicate.2 ⟨Nat.ne_of_gt (List.count_pos_iff.2 hmem), rfl⟩)
    · obtain ⟨cell', hleaf⟩ := h.leaf_of_watcher? hother
      obtain rfl := hcell hleaf htarget
      rw [hgains.entries hleaf.inside]
      exact List.mem_append_left _ (h.enlisted hother hleaf.target)
  case covered =>
    intro node content path hnode hcontent hpath
    obtain ⟨id, other, hother, hrest⟩ := h.covered hnode hcontent hpath
    exact ⟨id, other, Store.watcher?_of_push hother hgains.subscribers, hrest⟩
  case size => exact hgains.view ▸ h.size
  case kind => exact hgains.view ▸ h.kind
  case listeners => exact hgains.view ▸ h.listeners

/-- A path of a node is bound. -/
theorem Owing.bind (h : plan.Owing done [] s) (hbinder : s.Binds binder plan.root config)
    (hpolicy : config.baseline = .refresh) (hcontent : plan.content? node = some content)
    (hpath : path ∈ content.paths) :
    ∃ id s', Run.bind binder path (content.reaction node plan.root) s = some (.ok id, s') ∧
      plan.Watching config binder done node content [path] s s' := by
  obtain ⟨cell, hleaf⟩ := h.wired.leaves hcontent path hpath
  obtain ⟨s', hbind, hbinder', hgains⟩ := Run.bind_leaf hbinder hleaf (content.reaction node plan.root)
  have hpush := hgains.subscribers
  refine ⟨s.nextSubscriber, s', hbind, ⟨?_, ?_, ?_⟩, hbinder', hgains.view,
    fun hw => Store.watcher?_of_push hw hpush, ?_⟩
  · exact h.wired.enroll ⟨rfl, hpolicy, rfl, node, content, hcontent, hpath, rfl⟩ hgains
  · intro id other hother
    rw [Store.watcher?_push hpush] at hother
    split at hother
    · obtain rfl := Option.some.inj hother
      exact ⟨_, (hgains.alike.peek path plan.root).trans hleaf.peek, .inl rfl⟩
    · exact ⟨_, (hgains.alike.peek other.path other.root).trans (h.known_nothing hother), .inl rfl⟩
  · intro target shown htarget hshown
    have hcurrent : plan.Current s target shown := h.current_nothing htarget hshown
    unfold Current at hcurrent ⊢
    rw [shown.shown?_alike hgains.alike, hgains.view]
    exact .inl hcurrent
  · intro other hother
    obtain rfl := List.mem_singleton.1 hother
    exact ⟨s.nextSubscriber, _, by rw [Store.watcher?_push hpush, if_pos rfl], rfl, rfl⟩

/-- All paths of a node are bound, one after the other. -/
theorem Owing.bindAll (h : plan.Owing done [] s) (hbinder : s.Binds binder plan.root config)
    (hpolicy : config.baseline = .refresh) (hcontent : plan.content? node = some content)
    {paths : List Path} (hpaths : ∀ path ∈ paths, path ∈ content.paths) :
    ∃ s', Run.each paths (fun path => do
        let _ ← Run.bind binder path (content.reaction node plan.root)
        Run.done ()) s = some (.ok (), s') ∧
      plan.Watching config binder done node content paths s s' := by
  induction paths generalizing s with
  | nil => exact ⟨s, rfl, h, hbinder, rfl, id, fun path hpath => absurd hpath List.not_mem_nil⟩
  | cons path rest ih =>
    obtain ⟨hpath, hrest⟩ := List.forall_mem_cons.1 hpaths
    obtain ⟨id, s₁, hbind, h₁⟩ := h.bind hbinder hpolicy hcontent hpath
    obtain ⟨s', heach, h'⟩ := ih h₁.owing h₁.binds hrest
    refine ⟨s', Run.bind_eq_ok.2 ⟨(), s₁, Run.bind_eq_ok.2 ⟨id, s₁, hbind, rfl⟩, heach⟩, h'.owing,
      h'.binds, h'.view.trans h₁.view, fun hw => h'.kept (h₁.kept hw), ?_⟩
    refine List.forall_mem_cons.2 ⟨?_, h'.covered⟩
    obtain ⟨id, w, hw, hsame⟩ := h₁.covered path List.mem_cons_self
    exact ⟨id, w, h'.kept hw, hsame⟩

/-! ## Showing a node for the first time -/

/-- A node that is not done gets a listener. -/
theorem Owing.listen (h : plan.Owing done [] s) (hnode : node ∉ done) (listener : Listener ρ) :
    plan.Owing done [] (s.withView (·.listen node listener)) := by
  refine ⟨?_, fun hw => ⟨_, h.known_nothing hw, .inl rfl⟩, fun {target content} htarget hcontent => ?_⟩
  · exact h.wired.frame rfl (.refl s.model) (fun _ hmem => hmem) (.inl rfl)
      (.update s.view (fun _ => rfl) fun hmem => absurd hmem hnode)
  · have hne : target ≠ node := fun heq => hnode (heq ▸ htarget)
    exact .inl (current_of_same (h.current_nothing htarget hcontent) rfl (View.node_update_of_ne hne _))

/-- A node whose paths are watched and which has its listeners is done once its content is put there. -/
theorem Owing.put (h : plan.Owing done [] s) (hcontent : plan.content? node = some content)
    (hcovered : ∀ path ∈ content.paths, ∃ id w, s.watcher? id = some w ∧ w.path = path ∧
      w.reaction = content.reaction node plan.root)
    (hlisteners : (s.view.node node).listeners = plan.listeners node) {text : String}
    (hshown : content.shown? s.model plan.root = some text) :
    plan.Owing (done ++ [node]) [] (s.withView (·.update node (content.put text))) := by
  have hframe : plan.Wired done (s.withView (·.update node (content.put text))) :=
    h.wired.frame rfl (.refl s.model) (fun _ hmem => hmem) (.inl rfl)
      (.update s.view (content.kind_put text) fun _ => content.listeners_put text)
  have hcurrent : plan.Current (s.withView (·.update node (content.put text))) node content :=
    h.wired.current_put hcontent hshown rfl rfl
  refine ⟨{ hframe with covered := ?_, listeners := ?_ }, fun hw => ⟨_, h.known_nothing hw, .inl rfl⟩, ?_⟩
  · intro target shown path htarget hshown hpath
    rcases List.mem_append.1 htarget with htarget | htarget
    · exact hframe.covered htarget hshown hpath
    · obtain rfl := List.mem_singleton.1 htarget
      obtain rfl := Option.some.inj (hcontent.symm.trans hshown)
      exact hcovered path hpath
  · intro target htarget
    rcases List.mem_append.1 htarget with htarget | htarget
    · exact hframe.listeners htarget
    · obtain rfl := List.mem_singleton.1 htarget
      change ((s.view.update target (content.put text)).node target).listeners = plan.listeners target
      rw [View.node_update]
      split
      · rw [content.listeners_put, hlisteners]
      · exact hlisteners
  · intro target shown htarget hshown
    by_cases hnode : target = node
    · subst hnode
      obtain rfl := Option.some.inj (hcontent.symm.trans hshown)
      exact .inl hcurrent
    · have hdone : target ∈ done := (List.mem_append.1 htarget).resolve_right fun hmem =>
        hnode (List.mem_singleton.1 hmem)
      exact .inl (current_of_same (h.current_nothing hdone hshown) rfl (View.node_update_of_ne hnode _))

/-- A node that shows nothing is done as it is. -/
theorem Owing.leave (h : plan.Owing done [] s) (hcontent : plan.content? node = none)
    (hlisteners : (s.view.node node).listeners = []) : plan.Owing (done ++ [node]) [] s := by
  refine ⟨{ h.wired with covered := ?_, listeners := ?_ }, h.known, ?_⟩
  · intro target shown path htarget hshown hpath
    rcases List.mem_append.1 htarget with htarget | htarget
    · exact h.wired.covered htarget hshown hpath
    · rw [List.mem_singleton.1 htarget, hcontent] at hshown
      cases hshown
  · intro target htarget
    rcases List.mem_append.1 htarget with htarget | htarget
    · exact h.wired.listeners htarget
    · rw [List.mem_singleton.1 htarget, hlisteners, listeners_of_not_value]
      intro path hvalue
      rw [hcontent] at hvalue
      cases hvalue
  · intro target shown htarget hshown
    rcases List.mem_append.1 htarget with htarget | htarget
    · exact h.current htarget hshown
    · rw [List.mem_singleton.1 htarget, hcontent] at hshown
      cases hshown

/-! ## The nodes that are done -/

/-- How far a pass has come: the nodes in a list are done, and all others are as they were planted. -/
structure Mounting (plan : Plan ρ) (config : Config) (binder : BinderId) (done : List NodeId)
    (s : Store ρ σ) : Prop where
  owing : plan.Owing done [] s
  binds : s.Binds binder plan.root config
  changed : plan.view.ChangedOn done s.view

namespace Mounting

variable (h : plan.Mounting config binder done s)

include h

/-- An event of the journal takes nothing back. -/
theorem record (event : Event) : plan.Mounting config binder done (s.record event) :=
  ⟨h.owing.of_same rfl rfl rfl rfl, h.binds, h.changed⟩

/-- One more node may have changed. -/
theorem reach (node : NodeId) : plan.view.ChangedOn (done ++ [node]) s.view :=
  h.changed.mono (List.subset_append_left done [node])

/-- A node that the pass has not come to has no listeners if none were planted. -/
theorem listeners_untouched (hnode : node ∉ done) (hsilent : (plan.view.node node).listeners = []) :
    (s.view.node node).listeners = [] := by
  rw [h.changed.same node hnode]
  exact hsilent

/-- A node without a directive is passed over. -/
theorem pass (hnode : node ∉ done) (hsilent : (plan.view.node node).listeners = [])
    (hcontent : plan.content? node = none) : plan.Mounting config binder (done ++ [node]) s :=
  ⟨h.owing.leave hcontent (h.listeners_untouched hnode hsilent), h.binds, h.reach node⟩

/-- The live value of a node is bound. -/
theorem bindValue (hpolicy : config.baseline = .refresh) (hnode : node ∉ done)
    (hsilent : (plan.view.node node).listeners = []) {expression : String}
    (hparse : Path.parse expression = .ok path) (hcontent : plan.content? node = some (.value path)) :
    ∃ s', Run.bindValue binder node expression s = some (.ok (), s') ∧
      plan.Mounting config binder (done ++ [node]) s' := by
  obtain ⟨id, s₁, hbind, hwatching⟩ := h.owing.bind h.binds hpolicy hcontent List.mem_cons_self
  let s₂ := s₁.withView (·.listen node (.assign plan.root path))
  have howing : plan.Owing done [] s₂ := hwatching.owing.listen hnode _
  obtain ⟨cell, hleaf⟩ := howing.wired.leaves hcontent path List.mem_cons_self
  obtain ⟨text, htext⟩ := Model.display?_leaf hleaf.leaf
  have hshown : Content.shown? s₂.model plan.root (.value path) = some (String.ofList text) := by
    simp only [Content.shown?, hleaf.peek, htext, Option.map_some]
  have hlisteners : (s₂.view.node node).listeners = plan.listeners node := by
    have hbefore : (s₁.view.node node).listeners = [] := by
      rw [hwatching.view]
      exact h.listeners_untouched hnode hsilent
    change ((s₁.view.listen node (.assign plan.root path)).node node).listeners = plan.listeners node
    unfold View.listen
    rw [View.node_update, if_pos ⟨rfl, hwatching.owing.wired.inside hcontent⟩, listeners_of_value hcontent,
      hbefore, List.nil_append]
  have hput := howing.put hcontent hwatching.covered hlisteners hshown
  have hmem : node ∈ done ++ [node] := List.mem_append_right done (List.mem_singleton_self node)
  have hlistening : plan.view.ChangedOn (done ++ [node]) s₂.view :=
    (hwatching.view ▸ h.reach node).update hmem (fun _ => rfl) fun _ => rfl
  have hchanged : plan.view.ChangedOn (done ++ [node]) (s₂.view.setValue node (String.ofList text)) :=
    hlistening.update hmem (fun _ => rfl) fun _ => rfl
  exact ⟨_, Run.bindValue_of_bind h.binds hparse hbind hleaf.peek (htext _), hput.of_same rfl rfl rfl rfl,
    hwatching.binds, hchanged⟩

/-- The text of a node is bound. -/
theorem bindText (hpolicy : config.baseline = .refresh) (hnode : node ∉ done)
    (hsilent : (plan.view.node node).listeners = []) {expression : String} {template : Template}
    (hparse : Template.parse config.delimiters config.trimPaths expression = .ok template)
    (hcontent : plan.content? node = some (.text template)) :
    ∃ s', Run.bindText binder node expression s = some (.ok (), s') ∧
      plan.Mounting config binder (done ++ [node]) s' := by
  obtain ⟨s₁, hbind, hwatching⟩ := h.owing.bindAll h.binds hpolicy hcontent fun _ hpath => hpath
  have howing := hwatching.owing
  obtain ⟨text, hshown⟩ := Content.shown?_leaves (howing.wired.leaves hcontent)
  have hrender : s₁.model.render? template plan.root = some (.ok text) := Content.render?_of_shown? hshown
  have hlisteners : (s₁.view.node node).listeners = plan.listeners node := by
    rw [hwatching.view, h.listeners_untouched hnode hsilent, listeners_of_not_value]
    intro path hvalue
    rw [hcontent] at hvalue
    cases hvalue
  have hput := howing.put hcontent hwatching.covered hlisteners hshown
  have hwritten : s₁.view.setText node text = s₁.view.update node ((Content.text template).put text) :=
    Content.setText_of_text (howing.wired.isText hcontent) text template
  have hmem : node ∈ done ++ [node] := List.mem_append_right done (List.mem_singleton_self node)
  have hchanged : plan.view.ChangedOn (done ++ [node]) (s₁.view.setText node text) :=
    hwritten ▸ (hwatching.view ▸ h.reach node).update hmem (Content.kind_put _ text) (Content.children_put _ text)
  exact ⟨_, Run.bindText_of_each h.binds hparse hbind hrender, hput.of_same rfl rfl rfl hwritten,
    hwatching.binds, hchanged⟩

end Mounting

/-! ## A whole tree -/

/-- Items that do nothing are passed over. -/
theorem each_skip {α : Type} {items rest : List α} {f : α → Run ρ σ Unit}
    (hidle : ∀ item ∈ items, f item s = some (.ok (), s)) :
    Run.each (items ++ rest) f s = Run.each rest f s := by
  induction items with
  | nil => rfl
  | cons item others ih =>
    obtain ⟨hitem, hothers⟩ := List.forall_mem_cons.1 hidle
    change (f item >>= fun _ => Run.each (others ++ rest) f) s = Run.each rest f s
    rw [Run.bind_apply, hitem]
    exact ih hothers

namespace Mounting

variable {respond : Respond ρ σ} {data : Json}

/-- The attributes of an element with at most one directive are handled. -/
theorem attributes (h : plan.Mounting config binder done s) (hpolicy : config.baseline = .refresh)
    (hnode : node ∉ done) (hsilent : (plan.view.node node).listeners = [])
    {attributes : List (String × String)}
    (hcontent : plan.content? node = (config.directives attributes).head?.bind config.content?)
    (hnames : config.directiveNames attributes = [] ∨
      config.directiveNames attributes = [DirectiveKind.model.name])
    (hbinds : ∀ directive ∈ config.directives attributes, config.bindsLeaves data directive = true) :
    ∃ s', Run.each attributes (Run.compileAttribute respond {} binder config.marker node) s =
        some (.ok (), s') ∧ plan.Mounting config binder (done ++ [node]) s' := by
  rcases hnames with hnone | hone
  · have hnone := List.filterMap_eq_nil_iff.1 hnone
    rw [Config.directives_eq_nil hnone] at hcontent
    exact ⟨s, Run.each_idle fun entry hentry => Run.compileAttribute_plain (hnone entry hentry),
      h.pass hnode hsilent hcontent⟩
  · obtain ⟨before, entry, after, rfl, hbefore, hname, hafter, hdirectives⟩ :=
      Config.directives_eq_singleton hone
    rw [hdirectives] at hcontent hbinds
    obtain ⟨path, hparse, hread⟩ := Config.value_of_bindsLeaves (hbinds _ List.mem_cons_self)
    obtain ⟨s', hrun, h'⟩ := (h.record (.dispatched .model node entry.2)).bindValue hpolicy hnode hsilent
      hparse (hcontent.trans hread)
    rw [← Run.compileAttribute_model hname] at hrun
    refine ⟨s', ?_, h'⟩
    rw [each_skip fun other hother => Run.compileAttribute_plain (hbefore other hother)]
    exact Run.bind_eq_ok.2 ⟨(), s', hrun,
      Run.each_idle fun other hother => Run.compileAttribute_plain (hafter other hother)⟩

/-- A text is handled if it has a marker. -/
theorem text (h : plan.Mounting config binder done s) (hpolicy : config.baseline = .refresh)
    (hnode : node ∉ done) (hsilent : (plan.view.node node).listeners = []) {text : String}
    (hcontent : plan.content? node = (config.textDirectives text).head?.bind config.content?)
    (hbinds : ∀ directive ∈ config.textDirectives text, config.bindsLeaves data directive = true) :
    ∃ s', Run.compileText respond {} binder config node text s = some (.ok (), s') ∧
      plan.Mounting config binder (done ++ [node]) s' := by
  unfold Config.textDirectives at hcontent hbinds
  unfold Run.compileText
  split at hcontent
  · next hmarker =>
    rw [if_pos hmarker] at hbinds ⊢
    obtain ⟨template, hparse, hread⟩ := Config.text_of_bindsLeaves (hbinds _ List.mem_cons_self)
    exact (h.record (.dispatched .text node (String.ofList (trim text.toList)))).bindText hpolicy hnode
      hsilent hparse (hcontent.trans hread)
  · next hplain =>
    rw [if_neg hplain]
    exact ⟨s, rfl, h.pass hnode hsilent hcontent⟩

end Mounting

/-- A node shows what its directives say, and has no listeners. -/
structure Awaits (plan : Plan ρ) (config : Config) (node : NodeId) : Prop where
  planned : plan.content? node = plan.view.content? config node
  silent : (plan.view.node node).listeners = []

section Tree

variable {respond : Respond ρ σ} {data : Json} {tree : Tree} {id : NodeId} {ids : List NodeId}

/-- What is done with a node of a tree that binds only leaves comes back, and the node is done. -/
theorem Mounting.own (h : plan.Mounting config binder done s) (hpolicy : config.baseline = .refresh)
    (hstands : plan.view.Stands tree id ids) (hbinds : tree.bindsLeaves config data = true)
    (hawaits : plan.Awaits config id) (hnew : id ∉ done) :
    ∃ s', Run.compileOwn respond {} binder config id (plan.view.node id) s = some (.ok (), s') ∧
      plan.Mounting config binder (done ++ [id]) s' := by
  obtain ⟨hplanned, hsilent⟩ := hawaits
  unfold View.content? View.directives at hplanned
  unfold Run.compileOwn
  cases tree with
  | text content =>
    obtain ⟨-, -, hkind, rfl⟩ := hstands
    rw [hkind] at hplanned ⊢
    exact h.text hpolicy hnew hsilent hplanned (List.all_eq_true.1 hbinds)
  | comment body =>
    obtain ⟨-, -, hkind, -⟩ := hstands
    rw [hkind] at hplanned ⊢
    exact ⟨s, rfl, h.pass hnew hsilent hplanned⟩
  | element tag attributes children =>
    obtain ⟨below, -, -, -, hkind, rfl, -⟩ := hstands
    unfold Tree.bindsLeaves at hbinds
    simp only [Bool.and_eq_true, Bool.or_eq_true, beq_iff_eq, List.all_eq_true] at hbinds
    obtain ⟨⟨hnames, hown⟩, -⟩ := hbinds
    rw [hkind] at hplanned ⊢
    exact h.attributes hpolicy hnew hsilent hplanned hnames hown

/-- A pass over a tree that binds only leaves comes back, and all nodes of the tree are done. -/
theorem compileNode_mounts {depth : Nat} (hstands : plan.view.Stands tree id ids)
    (hbinds : tree.bindsLeaves config data = true) (hlevels : tree.levels ≤ depth)
    (hpolicy : config.baseline = .refresh) (hids : ∀ node ∈ ids, plan.Awaits config node)
    (h : plan.Mounting config binder [] s) :
    ∃ s', Run.compileNode respond {} binder config depth id s = some (.ok (), s') ∧
      plan.Mounting config binder ids s' := by
  have hown : Run.GoesOn respond {} binder config plan.view (fun tree => tree.bindsLeaves config data = true)
      (plan.Awaits config) (plan.Mounting config binder) := by
    constructor
    case below =>
      intro tag attributes children hbinds
      unfold Tree.bindsLeaves at hbinds
      exact Tree.allBindLeaves_iff.1 ((Bool.and_eq_true _ _).mp hbinds).2
    case changed => exact fun h => h.changed
    case own => exact fun hstands hbinds hawaits done s hnew h => h.own hpolicy hstands hbinds hawaits hnew
  exact Run.compileNode_comes_back hown hstands hbinds hlevels
    (fun node hnode => ⟨hids node hnode, List.not_mem_nil⟩) h

end Tree

end Plan

end DataBinding
