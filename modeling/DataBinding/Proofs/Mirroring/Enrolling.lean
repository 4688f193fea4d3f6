import DataBinding.Proofs.Mirroring.Directives
import DataBinding.Proofs.Mirroring.Sights

/-!
# Mounting a document that shows leaves

Compiling a tree whose directives are those of values, besides markers in its texts, makes one watcher for each
sight of its nodes, in document order. `Enrolling` says how far a pass has come: the roster of the store is that of
the sights so far, and the nodes to come are as they were planted. An element may have any number of directives; each
of them adds its own sights.
-/

set_option autoImplicit false

namespace DataBinding

open Markup (Tree)

variable {ρ σ : Type}

/-! ## The sights of a tree -/

/-- The sights of a content on a node, one for each of its paths, repeated ones included. -/
def Content.sights (node : NodeId) (content : Content) : List Sight := content.paths.map fun path =>
  ⟨node, content, path⟩

/-- The sights of a directive on a node, if the directive can be read. -/
def Config.sights (config : Config) (node : NodeId) (directive : DirectiveKind × String) : List Sight :=
  match config.content? directive with
  | some content => content.sights node
  | none => []

/-- The sights of a node. -/
def View.sights (v : View ρ) (config : Config) (node : NodeId) : List Sight :=
  (v.directives config node).flatMap (config.sights node)

namespace Markup.Tree

mutual

/-- Whether a tree has no directives but those of values, and markers in its texts, and whether all of them bind
only leaves of a document. -/
def showsLeaves (config : Config) (data : Json) : Tree → Bool
  | .text content => (config.textDirectives content).all (config.bindsLeaves data)
  | .comment _ => true
  | .element _ attributes children =>
    (config.directiveNames attributes).all (· == DirectiveKind.model.name) &&
      (config.directives attributes).all (config.bindsLeaves data) && allShowLeaves config data children

/-- The same for trees that follow each other. -/
def allShowLeaves (config : Config) (data : Json) : List Tree → Bool
  | [] => true
  | tree :: rest => tree.showsLeaves config data && allShowLeaves config data rest

end

/-- Trees that follow each other show only leaves if each of them does. -/
theorem allShowLeaves_iff {config : Config} {data : Json} {trees : List Tree} :
    allShowLeaves config data trees = true ↔ ∀ tree ∈ trees, tree.showsLeaves config data = true := by
  induction trees with
  | nil => simp [allShowLeaves]
  | cons tree rest ih => simp [allShowLeaves, ih]

end Markup.Tree

/-! ## One more sight -/

/-- A path to a leaf leads through no leaf, so whoever reads it reads of all leaves only the one at its end. -/
theorem Model.LeafAt.count_follow {m : Model} {root : Value} {path path' : Path} {cell cell' : CellId}
    (hleaf : m.LeafAt root path cell) (hleaf' : m.LeafAt root path' cell') :
    (m.follow path root).cells.count cell' = if cell = cell' then 1 else 0 := by
  have hbefore : cell' ∉ (m.followKeys path.text path.parents root).cells := by
    intro hmem
    obtain ⟨id, hfound, -⟩ := target?_eq_some_iff.1 hleaf.target
    obtain ⟨rest, hrest⟩ := exists_rest_of_mem_trail hfound (mem_trail_of_mem_cells hmem)
    have hobject := hleaf'.leaf
    cases hvalue : (m.cell cell').value with
    | object child =>
      rw [hvalue] at hobject
      cases hobject
    | _ =>
      rw [hvalue] at hrest
      cases rest with
      | nil => cases hrest
      | cons key rest => cases hrest
  rw [follow_of_target? hleaf.target, List.count_append, List.count_eq_zero.2 hbefore, List.count_singleton,
    Nat.zero_add]
  simp only [beq_iff_eq]

/-- The last sight has the last number. -/
theorem Sight.subscribers_append (sights : List Sight) (sight : Sight) (path : Path) :
    Sight.subscribers (sights ++ [sight]) path =
      Sight.subscribers sights path ++ List.replicate (if sight.path = path then 1 else 0) ⟨sights.length⟩ := by
  unfold Sight.subscribers
  rw [List.zipIdx_append, List.filter_append, List.map_append, Nat.zero_add]
  by_cases hpath : sight.path = path
  · simp [hpath]
  · simp [hpath]

namespace Roster

variable {ground : Ground} {sights : List Sight} {s s' : Store ρ σ} {config : Config} {binder : BinderId}
  {content : Content} {node : NodeId}

/-- A path is bound for a sight. -/
theorem bind (h : Roster ground sights [] s) (hbinder : s.Binds binder ground.root config)
    (hpolicy : config.baseline = .refresh) {sight : Sight} (hfits : sight.Fits ground s.view) :
    ∃ id s', Run.bind binder sight.path (sight.content.reaction sight.node ground.root) s = some (.ok id, s') ∧
      Roster ground (sights ++ [sight]) [] s' ∧ s'.Binds binder ground.root config ∧ s'.view = s.view := by
  obtain ⟨cell, hleaf⟩ := hfits.content.leaves sight.path hfits.listed
  have hleaf := h.shape.leafAt hleaf
  obtain ⟨s', hbind, hbinder', hgains⟩ := Run.bind_leaf hbinder hleaf (sight.content.reaction sight.node ground.root)
  have hnext : s.nextSubscriber = ⟨sights.length⟩ := congrArg SubscriberId.mk h.size
  refine ⟨s.nextSubscriber, s', hbind, ?_, hbinder', hgains.view⟩
  constructor
  case idle => exact hgains.collector.trans h.idle
  case shape => exact h.shape.trans hgains.sameShape
  case size => rw [hgains.subscribers, Array.size_push, h.size, List.length_append, List.length_singleton]
  case watching =>
    intro i other hother
    rw [Store.subscriber?_push hgains.subscribers, hnext]
    by_cases hlast : i = sights.length
    · subst hlast
      obtain rfl : sight = other := by simpa using hother
      refine ⟨0, _, _, if_pos rfl, ⟨rfl, hpolicy, rfl, rfl, rfl⟩, ?_, rfl⟩
      exact (hgains.alike.peek sight.path ground.root).trans hleaf.peek
    · rw [if_neg fun heq => hlast (SubscriberId.mk.inj heq)]
      have hearlier : sights[i]? = some other := by
        have hlt := (List.getElem?_eq_some_iff.1 hother).1
        rw [List.length_append, List.length_singleton] at hlt
        rwa [List.getElem?_append_left (by omega)] at hother
      obtain ⟨handles, w, value, hentry, hwatched, hfound, hknown⟩ := h.watching hearlier
      exact ⟨handles, w, value, hentry, hwatched, (hgains.alike.peek other.path ground.root).trans hfound, hknown⟩
  case enlisted =>
    intro path cell' hleaf'
    have hleaf' : s.model.LeafAt ground.root path cell' := hgains.sameShape.symm.leafAt hleaf'
    have hcount : (s.model.follow sight.path ground.root).cells.count cell' =
        if sight.path = path then 1 else 0 := by
      rw [hleaf.count_follow hleaf']
      refine if_congr ⟨?_, ?_⟩ rfl rfl
      · rintro rfl
        exact h.path_unique hleaf hleaf'
      · rintro rfl
        exact Option.some.inj (hleaf.target.symm.trans hleaf'.target)
    rw [Sight.subscribers_append, ← hcount, ← hnext, ← h.enlisted hleaf']
    exact hgains.entries hleaf'.inside
  case fits => exact hgains.view ▸ List.forall_mem_append.2 ⟨h.fits, List.forall_mem_singleton.2 hfits⟩

/-- Paths of a content are bound, one after the other. -/
theorem bindAll (h : Roster ground sights [] s) (hbinder : s.Binds binder ground.root config)
    (hpolicy : config.baseline = .refresh) {paths : List Path}
    (hfits : ∀ path ∈ paths, Sight.Fits ground s.view ⟨node, content, path⟩) :
    ∃ s', Run.each paths (fun path => do
        let _ ← Run.bind binder path (content.reaction node ground.root)
        Run.done ()) s = some (.ok (), s') ∧
      Roster ground (sights ++ paths.map fun path => ⟨node, content, path⟩) [] s' ∧
      s'.Binds binder ground.root config ∧ s'.view = s.view := by
  induction paths generalizing s sights with
  | nil => exact ⟨s, rfl, by rwa [List.map_nil, List.append_nil], hbinder, rfl⟩
  | cons path rest ih =>
    obtain ⟨hpath, hrest⟩ := List.forall_mem_cons.1 hfits
    obtain ⟨id, s₁, hbind, h₁, hbinder₁, hview₁⟩ := h.bind hbinder hpolicy hpath
    obtain ⟨s', heach, h', hbinder', hview⟩ := ih h₁ hbinder₁ (hview₁.symm ▸ hrest)
    refine ⟨s', Run.bind_eq_ok.2 ⟨(), s₁, Run.bind_eq_ok.2 ⟨id, s₁, hbind, rfl⟩, heach⟩, ?_, hbinder',
      hview.trans hview₁⟩
    rwa [List.append_assoc] at h'

end Roster

/-! ## How far a pass has come -/

/-- A pass has made the watchers of some sights, and the nodes that it has not come to are as they were planted. -/
structure Enrolling (ground : Ground) (view : View ρ) (config : Config) (binder : BinderId)
    (done : List NodeId) (sights : List Sight) (s : Store ρ σ) : Prop where
  roster : Roster ground sights [] s
  binds : s.Binds binder ground.root config
  changed : view.ChangedOn done s.view

namespace Enrolling

variable {ground : Ground} {view : View ρ} {config : Config} {binder : BinderId} {done : List NodeId}
  {sights : List Sight} {s s' : Store ρ σ} {node : NodeId} {content : Content}

/-- A pass may change more nodes. -/
theorem reach (h : Enrolling ground view config binder done sights s) (node : NodeId) :
    Enrolling ground view config binder (done ++ [node]) sights s :=
  ⟨h.roster, h.binds, h.changed.mono (List.subset_append_left done [node])⟩

/-- An event of the journal takes nothing back. -/
theorem record (h : Enrolling ground view config binder done sights s) (event : Event) :
    Enrolling ground view config binder done sights (s.record event) :=
  ⟨h.roster.of_view rfl rfl rfl rfl fun _ => rfl, h.binds, h.changed⟩

/-- A node that the pass has come to changes in the view. -/
theorem update (h : Enrolling ground view config binder done sights s) (hnode : node ∈ done)
    {f : Node ρ → Node ρ} {g : View ρ → View ρ} (hview : g s.view = s.view.update node f)
    (hkind : ∀ n, (f n).kind = n.kind) (hchildren : ∀ n, (f n).children = n.children) :
    Enrolling ground view config binder done sights (s.withView g) := by
  have hchanged : view.ChangedOn done (s.withView g).view := by
    change view.ChangedOn done (g s.view)
    exact hview ▸ h.changed.update hnode hkind hchildren
  refine ⟨h.roster.of_view rfl rfl rfl (hchanged.size.trans h.changed.size.symm) fun other => ?_, h.binds, hchanged⟩
  exact (hchanged.kind other).trans (h.changed.kind other).symm

/-! ## The handlers -/

/-- The live value of a node is bound. -/
theorem bindValue (h : Enrolling ground view config binder done sights s) (hpolicy : config.baseline = .refresh)
    (hnode : node ∈ done) {path : Path} (hfits : Content.Fits ground s.view node (.value path))
    {expression : String} (hparse : Path.parse expression = .ok path) :
    ∃ s', Run.bindValue binder node expression s = some (.ok (), s') ∧
      Enrolling ground view config binder done (sights ++ (Content.value path).sights node) s' := by
  have hsight : Sight.Fits ground s.view ⟨node, .value path, path⟩ := ⟨List.mem_cons_self, hfits⟩
  obtain ⟨id, s₁, hbind, hroster, hbinder, hview⟩ := h.roster.bind h.binds hpolicy hsight
  let s₂ := s₁.withView (·.listen node (.assign ground.root path))
  have h₂ : Enrolling ground view config binder done (sights ++ (Content.value path).sights node) s₂ :=
    update ⟨hroster, hbinder, hview ▸ h.changed⟩ hnode rfl (fun _ => rfl) fun _ => rfl
  obtain ⟨cell, hleaf⟩ := hfits.leaves path List.mem_cons_self
  have hleaf : s₂.model.LeafAt ground.root path cell := h₂.roster.shape.leafAt hleaf
  obtain ⟨text, htext⟩ := Model.display?_leaf hleaf.leaf
  have h₃ : Enrolling ground view config binder done (sights ++ (Content.value path).sights node)
      (s₂.withView (·.setValue node (String.ofList text))) := h₂.update hnode rfl (fun _ => rfl) fun _ => rfl
  exact ⟨_, Run.bindValue_of_bind h.binds hparse hbind hleaf.peek (htext _), h₃.record _⟩

/-- The text of a node is bound. -/
theorem bindText (h : Enrolling ground view config binder done sights s) (hpolicy : config.baseline = .refresh)
    (hnode : node ∈ done) {template : Template} (hfits : Content.Fits ground s.view node (.text template))
    {expression : String} (hparse : Template.parse config.delimiters config.trimPaths expression = .ok template) :
    ∃ s', Run.bindText binder node expression s = some (.ok (), s') ∧
      Enrolling ground view config binder done (sights ++ (Content.text template).sights node) s' := by
  have hsights : ∀ path ∈ template.paths, Sight.Fits ground s.view ⟨node, .text template, path⟩ :=
    fun path hpath => ⟨hpath, hfits⟩
  obtain ⟨s₁, hbind, hroster, hbinder, hview⟩ := h.roster.bindAll h.binds hpolicy hsights
  obtain ⟨text, hshown⟩ := Content.shown?_leaves fun path hpath =>
    (hfits.leaves path hpath).imp fun _ hleaf => hroster.shape.leafAt hleaf
  have hrender : s₁.model.render? template ground.root = some (.ok text) := Content.render?_of_shown? hshown
  have hwritten : s₁.view.setText node text = s₁.view.update node ((Content.text template).put text) :=
    Content.setText_of_text (hview ▸ hfits.isText template rfl) text template
  have h₂ : Enrolling ground view config binder done (sights ++ (Content.text template).sights node)
      (s₁.withView (·.setText node text)) :=
    update ⟨hroster, hbinder, hview ▸ h.changed⟩ hnode hwritten (Content.kind_put _ text)
      (Content.children_put _ text)
  exact ⟨_, Run.bindText_of_each h.binds hparse hbind hrender, h₂.record _⟩

end Enrolling

/-! ## A whole tree -/

namespace Enrolling

variable {data : Json} {view : View ρ} {config : Config} {binder : BinderId} {done : List NodeId}
  {sights : List Sight} {s s' : Store ρ σ} {node : NodeId} {respond : Respond ρ σ}

/-- A directive that binds only leaves has something to show that fits its node. -/
theorem fits_of_bindsLeaves {v : View ρ} {directive : DirectiveKind × String} {content : Content}
    (hbinds : config.bindsLeaves data directive = true) (hcontent : config.content? directive = some content)
    (hinside : node.index < v.nodes.size) (hkind : content.kind = .text → (v.node node).kind = .text) :
    content.Fits (.observed data) v node where
  leaves path hpath := by
    obtain ⟨content', hcontent', hleaves⟩ := Config.content?_of_bindsLeaves hbinds
    obtain rfl := Option.some.inj (hcontent.symm.trans hcontent')
    exact Model.observe_leafAt (hleaves path hpath)
  inside := hinside
  isText template heq := hkind (heq ▸ rfl)

/-- The attributes of an element are handled, one after the other. -/
theorem attributes (h : Enrolling (.observed data) view config binder done sights s)
    (hpolicy : config.baseline = .refresh) (hnode : node ∈ done) (hinside : node.index < view.nodes.size)
    {attributes : List (String × String)}
    (hnames : ∀ name ∈ config.directiveNames attributes, name = DirectiveKind.model.name)
    (hbinds : ∀ directive ∈ config.directives attributes, config.bindsLeaves data directive = true) :
    ∃ s', Run.each attributes (Run.compileAttribute respond {} binder config.marker node) s =
        some (.ok (), s') ∧ Enrolling (.observed data) view config binder done
          (sights ++ (config.directives attributes).flatMap (config.sights node)) s' := by
  induction attributes generalizing s sights with
  | nil => exact ⟨s, rfl, by rwa [Config.directives, List.filterMap_nil, List.flatMap_nil, List.append_nil]⟩
  | cons entry rest ih =>
    cases hname : directiveName? config.marker entry.1 with
    | none =>
      have hdirective : config.directive? entry = none := by
        simp only [Config.directive?, hname, Option.bind_none, Option.map_none]
      have hrestNames : config.directiveNames (entry :: rest) = config.directiveNames rest :=
        List.filterMap_cons_none hname
      have hrest : config.directives (entry :: rest) = config.directives rest :=
        List.filterMap_cons_none hdirective
      rw [hrestNames] at hnames
      rw [hrest] at hbinds ⊢
      obtain ⟨s', heach, h'⟩ := ih h hnames hbinds
      exact ⟨s', Run.bind_eq_ok.2 ⟨(), s, Run.compileAttribute_plain hname, heach⟩, h'⟩
    | some name =>
      have hrestNames : config.directiveNames (entry :: rest) = name :: config.directiveNames rest :=
        List.filterMap_cons_some hname
      rw [hrestNames] at hnames
      obtain ⟨rfl, hothers⟩ := List.forall_mem_cons.1 hnames
      have hdirective : config.directive? entry = some (.model, entry.2) := by
        simp only [Config.directive?, hname, Option.bind_some, Config.ofName?_model, Option.map_some]
      have hrest : config.directives (entry :: rest) = (.model, entry.2) :: config.directives rest :=
        List.filterMap_cons_some hdirective
      rw [hrest] at hbinds ⊢
      obtain ⟨hbind, hbinds⟩ := List.forall_mem_cons.1 hbinds
      obtain ⟨path, hparse, hcontent⟩ := Config.value_of_bindsLeaves hbind
      have hfits : Content.Fits (.observed data) s.view node (.value path) :=
        fits_of_bindsLeaves hbind hcontent (h.changed.size ▸ hinside) fun htext => by cases htext
      obtain ⟨s₁, hrun, h₁⟩ := (h.record (.dispatched .model node entry.2)).bindValue hpolicy hnode hfits hparse
      obtain ⟨s', heach, h'⟩ := ih h₁ hothers hbinds
      rw [← Run.compileAttribute_model hname] at hrun
      refine ⟨s', Run.bind_eq_ok.2 ⟨(), s₁, hrun, heach⟩, ?_⟩
      rw [List.flatMap_cons, ← List.append_assoc]
      unfold Config.sights at h' ⊢
      rwa [hcontent]

/-- A text is handled if it has a marker. -/
theorem text (h : Enrolling (.observed data) view config binder done sights s)
    (hpolicy : config.baseline = .refresh) (hnode : node ∈ done) (hinside : node.index < view.nodes.size)
    (hkind : (view.node node).kind = .text) {text : String}
    (hbinds : ∀ directive ∈ config.textDirectives text, config.bindsLeaves data directive = true) :
    ∃ s', Run.compileText respond {} binder config node text s = some (.ok (), s') ∧
      Enrolling (.observed data) view config binder done
        (sights ++ (config.textDirectives text).flatMap (config.sights node)) s' := by
  unfold Config.textDirectives at hbinds ⊢
  unfold Run.compileText
  split
  · next hmarker =>
    rw [if_pos hmarker] at hbinds
    have hbind := hbinds _ List.mem_cons_self
    obtain ⟨template, hparse, hcontent⟩ := Config.text_of_bindsLeaves hbind
    have hfits : Content.Fits (.observed data) s.view node (.text template) :=
      fits_of_bindsLeaves hbind hcontent (h.changed.size ▸ hinside) fun _ => (h.changed.kind node).trans hkind
    obtain ⟨s', hrun, h'⟩ := (h.record (.dispatched .text node (String.ofList (trim text.toList)))).bindText
      hpolicy hnode hfits hparse
    refine ⟨s', hrun, ?_⟩
    rw [List.flatMap_singleton]
    unfold Config.sights
    rwa [hcontent]
  · exact ⟨s, rfl, by rwa [List.flatMap_nil, List.append_nil]⟩

section Tree

variable {tree : Tree} {id : NodeId} {ids : List NodeId}

/-- What is done with a node of a tree that shows only leaves comes back, and has made the watchers of its sights. -/
theorem own (h : Enrolling (.observed data) view config binder done sights s) (hpolicy : config.baseline = .refresh)
    (hstands : view.Stands tree id ids) (hshows : tree.showsLeaves config data = true) :
    ∃ s', Run.compileOwn respond {} binder config id (view.node id) s = some (.ok (), s') ∧
      Enrolling (.observed data) view config binder (done ++ [id]) (sights ++ view.sights config id) s' := by
  have hmem : id ∈ done ++ [id] := List.mem_append_right done (List.mem_singleton_self id)
  unfold Run.compileOwn View.sights View.directives
  cases tree with
  | text content =>
    obtain ⟨-, hinside, hkind, rfl⟩ := hstands
    rw [hkind]
    exact (h.reach id).text hpolicy hmem hinside hkind (List.all_eq_true.1 hshows)
  | comment body =>
    obtain ⟨-, -, hkind, -⟩ := hstands
    rw [hkind, List.flatMap_nil, List.append_nil]
    exact ⟨s, rfl, h.reach id⟩
  | element tag attributes children =>
    obtain ⟨below, -, -, hinside, hkind, rfl, -⟩ := hstands
    unfold Tree.showsLeaves at hshows
    simp only [Bool.and_eq_true, List.all_eq_true, beq_iff_eq] at hshows
    obtain ⟨⟨hnames, hbinds⟩, -⟩ := hshows
    rw [hkind]
    exact (h.reach id).attributes hpolicy hmem hinside hnames hbinds

/-- A pass over a tree that shows only leaves comes back, and has made the watchers of the sights of its nodes. -/
theorem compileNode {depth : Nat} (h : Enrolling (.observed data) view config binder [] [] s)
    (hpolicy : config.baseline = .refresh) (hstands : view.Stands tree id ids)
    (hshows : tree.showsLeaves config data = true) (hlevels : tree.levels ≤ depth) :
    ∃ s', Run.compileNode respond {} binder config depth id s = some (.ok (), s') ∧
      Enrolling (.observed data) view config binder ids (ids.flatMap (view.sights config)) s' := by
  have hown : Run.GoesOn respond {} binder config view (fun tree => tree.showsLeaves config data = true)
      (fun _ => True)
      (fun done => Enrolling (.observed data) view config binder done (done.flatMap (view.sights config))) := by
    constructor
    case below =>
      intro tag attributes children hshows
      unfold Tree.showsLeaves at hshows
      exact Tree.allShowLeaves_iff.1 ((Bool.and_eq_true _ _).mp hshows).2
    case changed => exact fun h => h.changed
    case own =>
      intro tree id ids hstands hshows _ done s _ h
      rw [List.flatMap_append, List.flatMap_singleton]
      exact h.own hpolicy hstands hshows
  exact Run.compileNode_comes_back hown hstands hshows hlevels (fun _ _ => ⟨trivial, List.not_mem_nil⟩) h

end Tree

end Enrolling

end DataBinding
