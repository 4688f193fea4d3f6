import DataBinding.Proofs.Collecting
import DataBinding.Proofs.Loops
import DataBinding.Proofs.Markup.DocumentOrder
import DataBinding.Proofs.Runs.Outcomes

/-!
# Looking up elements

A selector is looked up among trees, which is a search that stops at the first match, or among the nodes of a view,
which are gone through as a list. Either finds the first element in document order that the selector asks for. Nodes
may be shared, and the lookup comes back unless one of them contains itself. If they have trees, it finds what is
found among these, at the same place.
-/

set_option autoImplicit false

namespace DataBinding

open Markup (Tree Position Selector Asks Hits IsFirst among treeAt? postpone)

variable {ρ σ : Type}

namespace View

variable {v : View ρ} {text : String} {id : NodeId}

/-! ## Going through the nodes -/

/-- The node that a position below a node leads to. -/
def nodeBelow? (v : View ρ) : NodeId → Position → Option NodeId
  | id, [] => some id
  | id, index :: rest => (v.node id).children[index]?.bind (v.nodeBelow? · rest)

/-- A position in a document goes from its roots along the children of nodes. -/
theorem nodeAt?_eq_among (v : View ρ) (roots : List NodeId) : v.nodeAt? roots = among v.nodeBelow? roots := by
  funext position
  induction position generalizing roots with
  | nil => rfl
  | cons index rest ih =>
    cases rest with
    | nil =>
      rw [nodeAt?, among]
      cases roots[index]? <;> rfl
    | cons next rest =>
      rw [nodeAt?, among]
      exact congrArg (Option.bind _) (funext fun id => ih _)

/-- A node is an element that a selector asks for. -/
def IsAsked (v : View ρ) (text : String) (id : NodeId) : Prop :=
  ∃ tag, (v.node id).kind = .element tag ∧ Asks text tag (v.node id).attributes

/-- A selector accepts exactly the nodes that are asked for. -/
theorem accepts_iff_isAsked : v.accepts (.parse text) id = true ↔ v.IsAsked text id := by
  unfold accepts IsAsked
  cases (v.node id).kind with
  | element tag => simp [Markup.accepts_iff_asks]
  | _ => simp

/-- What a search has found, if it has gone through nodes in document order: the first of them that is asked for. -/
def Finds (v : View ρ) (text : String) (at? : Position → Option NodeId) (nodes : List (Position × NodeId)) : Prop :=
  ∃ found, IsFirst at? (v.IsAsked text) found ∧
    (nodes.map Prod.snd).find? (v.accepts (.parse text)) = found.bind at?

/-- A search through nodes that follow each other finds the first, if the search through each of them does. -/
theorem finds_outlineEach {visit : Position → NodeId → Option (List (Position × NodeId))}
    (hvisit : ∀ position id nodes, visit position id = some nodes → v.Finds text (v.nodeBelow? id) nodes)
    (position : Position) (ids : List NodeId) (index : Nat) {nodes : List (Position × NodeId)}
    (h : outlineEach visit position index ids = some nodes) : v.Finds text (among v.nodeBelow? ids) nodes := by
  induction ids generalizing index nodes with
  | nil =>
    cases h
    exact ⟨none, .nowhere, rfl⟩
  | cons id rest ih =>
    obtain ⟨first, hfirst, h⟩ := Option.bind_eq_some_iff.1 h
    obtain ⟨others, hothers, h⟩ := Option.bind_eq_some_iff.1 h
    cases h
    obtain ⟨found, hhere, hfound⟩ := hvisit _ _ _ hfirst
    obtain ⟨found', hthere, hfound'⟩ := ih (index + 1) hothers
    unfold Finds
    rw [List.map_append, List.find?_append, hfound, hfound']
    cases found with
    | some place =>
      refine ⟨some (0 :: place), hhere.here, ?_⟩
      obtain ⟨⟨a, hat, -⟩, -⟩ := hhere
      rw [Option.bind_some, hat, Option.some_or]
      exact hat.symm
    | none =>
      refine ⟨found'.map (postpone 1), hhere.elsewhere hthere, ?_⟩
      rw [Option.bind_none, Option.none_or, Option.bind_map]
      exact congrArg (Option.bind found') (funext fun place => (Markup.among_postpone _ id rest place).symm)

/-- A search below a node finds the first, by induction on the levels. -/
theorem finds_outlineWithin? (depth : Nat) (position : Position) (id : NodeId) {nodes : List (Position × NodeId)}
    (h : v.outlineWithin? depth position id = some nodes) : v.Finds text (v.nodeBelow? id) nodes := by
  induction depth generalizing position id nodes with
  | zero => cases h
  | succ depth ih =>
    obtain ⟨below, hbelow, rfl⟩ := Option.map_eq_some_iff.1 h
    obtain ⟨found, hfirst, hfound⟩ := finds_outlineEach ih position _ 0 hbelow
    have hbelow' : ∀ index position, v.nodeBelow? id (index :: position) =
        among v.nodeBelow? (v.node id).children (index :: position) := fun _ _ => rfl
    by_cases hasked : v.IsAsked text id
    · refine ⟨some [], .self rfl hasked, ?_⟩
      rw [List.map_cons, List.find?_cons_of_pos (accepts_iff_isAsked.2 hasked)]
      rfl
    · have hrefused : ¬ v.accepts (.parse text) id = true := fun h => hasked (accepts_iff_isAsked.1 h)
      refine ⟨found, hfirst.inside rfl hbelow' hasked, ?_⟩
      rw [List.map_cons, List.find?_cons_of_neg hrefused, hfound, hfirst.bind_inside hbelow']

/-! ## Nodes that contain each other -/

/-- A node is a child of another one. -/
def Contains (v : View ρ) (id child : NodeId) : Prop := child ∈ (v.node id).children

/-- A search through nodes that follow each other comes back if and only if it does for each of them. -/
theorem outlineEach_isSome {visit : Position → NodeId → Option (List (Position × NodeId))} {Comes : NodeId → Prop}
    (hvisit : ∀ position id, (visit position id).isSome ↔ Comes id) (position : Position) (index : Nat)
    (ids : List NodeId) : (outlineEach visit position index ids).isSome ↔ ∀ id ∈ ids, Comes id := by
  induction ids generalizing index with
  | nil => simp [outlineEach]
  | cons id rest ih =>
    rw [List.forall_mem_cons, ← ih (index + 1), ← hvisit (position ++ [index]) id, outlineEach]
    cases visit (position ++ [index]) id with
    | none => simp
    | some first => cases outlineEach visit position (index + 1) rest <;> simp

/-- A search below a node comes back if and only if what the node contains ends within as many levels. -/
theorem outlineWithin?_isSome (depth : Nat) (position : Position) (id : NodeId) :
    (v.outlineWithin? depth position id).isSome ↔ Nests v.Contains depth id := by
  induction depth generalizing position id with
  | zero => simp [outlineWithin?, Nests]
  | succ depth ih =>
    rw [outlineWithin?, Option.isSome_map]
    exact outlineEach_isSome ih position 0 _

/-- No loop is below a node if and only if what it contains ends within as many levels as there are nodes:
nothing else could lie on a longer way. -/
theorem looplessFrom_iff_nests_depth : LooplessFrom v.Contains id ↔ Nests v.Contains v.depth id := by
  have hindex : NodeId.index.Injective := fun ⟨_⟩ ⟨_⟩ heq => congrArg NodeId.mk heq
  refine looplessFrom_iff_nests hindex fun id child hchild => ?_
  unfold Contains node at hchild
  by_contra hlarge
  rw [Array.getD_eq_getD_getElem?, Array.getElem?_eq_none (Nat.le_of_not_lt hlarge)] at hchild
  cases hchild

/-- A lookup comes back exactly if no node there contains itself. -/
theorem query?_isSome {roots : List NodeId} {selector : Selector} :
    (v.query? roots selector).isSome ↔ ∀ root ∈ roots, LooplessFrom v.Contains root := by
  rw [query?, Option.isSome_map]
  exact outlineEach_isSome
    (fun position id => (outlineWithin?_isSome v.depth position id).trans looplessFrom_iff_nests_depth.symm) [] 0 roots

/-- A lookup that comes back has found the first element in document order that was asked for. -/
theorem isFirst_of_query? {roots : List NodeId} {result : Option NodeId}
    (h : v.query? roots (.parse text) = some result) :
    ∃ found, IsFirst (v.nodeAt? roots) (v.IsAsked text) found ∧ result = found.bind (v.nodeAt? roots) := by
  obtain ⟨nodes, hnodes, rfl⟩ := Option.map_eq_some_iff.1 h
  obtain ⟨found, hfirst, hfound⟩ := finds_outlineEach (fun _ _ _ => finds_outlineWithin? v.depth _ _) [] roots 0 hnodes
  rw [nodeAt?_eq_among]
  exact ⟨found, hfirst, hfound⟩

/-! ## The trees of a view -/

/-- Nodes that are no elements have no children. -/
def OnlyElementsBranch (v : View ρ) : Prop := ∀ node ∈ v.nodes, node.kind.tag? = none → node.children = []

/-- A node that is no element has no children, also if it is none of the view. -/
theorem OnlyElementsBranch.children (h : v.OnlyElementsBranch) (hkind : (v.node id).kind.tag? = none) :
    (v.node id).children = [] := by
  unfold node at hkind ⊢
  rw [Array.getD_eq_getD_getElem?] at hkind ⊢
  cases hnode : v.nodes[id.index]? with
  | none => rfl
  | some found =>
    rw [hnode] at hkind
    exact h found (Array.mem_of_getElem? hnode) hkind

/-- The tree at a node is asked for if the node is, and its children are the trees at the children of the node. -/
theorem of_treeWithin?_succ (hbranch : v.OnlyElementsBranch) {depth : Nat} {tree : Tree}
    (htree : v.treeWithin? (depth + 1) id = some tree) : (∀ text, v.IsAsked text id ↔ tree.IsAsked text) ∧
      List.Forall₂ (fun child tree => v.treeWithin? depth child = some tree) (v.node id).children tree.children := by
  unfold treeWithin? at htree
  cases hkind : (v.node id).kind with
  | element tag =>
    simp only [hkind] at htree
    obtain ⟨children, hchildren, rfl⟩ := Option.map_eq_some_iff.1 htree
    refine ⟨fun text => ?_, forall₂_of_mapM hchildren⟩
    simp [IsAsked, Tree.IsAsked, hkind]
  | _ =>
    simp only [hkind] at htree
    cases htree
    rw [hbranch.children (by rw [hkind]; rfl)]
    exact ⟨fun text => by simp [IsAsked, Tree.IsAsked, hkind], .nil⟩

/-- The positions of what is asked for below a node are those in its tree. -/
theorem hits_of_treeWithin? (hbranch : v.OnlyElementsBranch) {depth : Nat} {tree : Tree}
    (htree : v.treeWithin? depth id = some tree) (position : Position) :
    Hits (v.nodeBelow? id) (v.IsAsked text) position ↔ Hits tree.subtree? (Tree.IsAsked text) position := by
  induction depth generalizing id tree position with
  | zero => cases htree
  | succ depth ih =>
    obtain ⟨hasked, hchildren⟩ := of_treeWithin?_succ hbranch htree
    cases position with
    | nil => simpa [Hits, nodeBelow?, Tree.subtree?] using hasked text
    | cons index position =>
      exact Markup.hits_among_congr (hchildren.imp fun child tree hchild => ih hchild) (index :: position)

/-- What has a tree has no loops. -/
theorem nests_of_treeWithin? (hbranch : v.OnlyElementsBranch) {depth : Nat} {id : NodeId}
    (htree : (v.treeWithin? depth id).isSome) : Nests v.Contains depth id := by
  induction depth generalizing id with
  | zero => cases htree
  | succ depth ih =>
    intro child hchild
    cases hkind : (v.node id).kind with
    | element tag =>
      simp only [treeWithin?, hkind, Option.isSome_map, isSome_mapM] at htree
      exact ih (htree child hchild)
    | _ =>
      have hnone : (v.node id).children = [] := hbranch.children (by rw [hkind]; rfl)
      rw [Contains, hnone] at hchild
      cases hchild

/-- A lookup among nodes finds what a lookup in their trees finds, at the same place. -/
theorem query?_of_trees (hbranch : v.OnlyElementsBranch) {roots : List NodeId} {trees : List Tree}
    (htrees : roots.mapM v.tree? = some trees) :
    v.query? roots (.parse text) = some (((Selector.parse text).query trees).bind (v.nodeAt? roots)) := by
  have hroots := forall₂_of_mapM htrees
  have hloopless : ∀ root ∈ roots, LooplessFrom v.Contains root := fun root hroot =>
    have hsome : (roots.mapM v.tree?).isSome := by rw [htrees]; rfl
    (nests_of_treeWithin? hbranch ((isSome_mapM _ _).1 hsome root hroot)).looplessFrom
  obtain ⟨result, hresult⟩ := Option.isSome_iff_exists.1 (query?_isSome.2 hloopless)
  obtain ⟨found, hfirst, rfl⟩ := isFirst_of_query? hresult
  have hhits : ∀ position, Hits (among v.nodeBelow? roots) (v.IsAsked text) position ↔
      Hits (treeAt? trees) (Tree.IsAsked text) position :=
    Markup.hits_among_congr (hroots.imp fun root tree hroot position => hits_of_treeWithin? hbranch hroot position)
  rw [nodeAt?_eq_among] at hfirst
  rw [(hfirst.congr hhits).unique (Markup.isFirst_query text trees)] at hresult
  exact hresult

end View

/-- The lookup in a document is the lookup among its nodes, and leaves everything as it is. -/
theorem Resolver.document_eq (roots : List NodeId) (text : String) (host : Host ρ σ) (depth : Nat) (s : Store ρ σ) :
    (Resolver.document roots text).run host depth s =
      (s.view.query? roots (.parse text)).map fun found => (.ok found, s) := by
  have hop : Run.perform (host.respond depth) depth (.outline roots) s =
      (s.view.outline? roots).map fun nodes => (.ok nodes, s) := Run.demand_apply _ s
  have hlook : Run.perform (host.respond depth) depth .look s = some (.ok s, s) := rfl
  unfold View.query?
  cases houtline : s.view.outline? roots with
  | none =>
    rw [houtline] at hop
    exact Script.runWith_ask_none _ hop
  | some nodes =>
    rw [houtline] at hop
    exact Script.Ends.runWith ((Script.ends_perform hop).bind
      ((Script.ends_perform hlook).bind (Script.ends_done _ s)))

/-- A query of trees finds the first element in document order that the selector asks for, and nothing if there is
none anywhere. So does the lookup in a document, whose nodes may be shared: unless a node contains itself it comes
back with the node at the first place where an element is asked for, and changes nothing. Where only elements have
children it finds what the query finds in the trees of the nodes. -/
theorem lookup_finds_first (text : String) (host : Host ρ σ) (depth : Nat) (s : Store ρ σ) (roots : List NodeId) :
    (∀ trees found, (Selector.parse text).query trees = found ↔
      IsFirst (treeAt? trees) (Tree.IsAsked text) found) ∧
    ((∀ root ∈ roots, LooplessFrom s.view.Contains root) → ∃ found,
      IsFirst (s.view.nodeAt? roots) (s.view.IsAsked text) found ∧
      (Resolver.document roots text).run host depth s = some (.ok (found.bind (s.view.nodeAt? roots)), s)) ∧
    ∀ trees, s.view.OnlyElementsBranch → roots.mapM s.view.tree? = some trees →
      (Resolver.document roots text).run host depth s =
        some (.ok (((Selector.parse text).query trees).bind (s.view.nodeAt? roots)), s) := by
  refine ⟨fun trees found => ⟨?_, fun hfirst => (Markup.isFirst_query text trees).unique hfirst⟩, fun hloopless => ?_,
    fun trees hbranch htrees => ?_⟩
  · rintro rfl
    exact Markup.isFirst_query text trees
  · obtain ⟨result, hresult⟩ := Option.isSome_iff_exists.1 (View.query?_isSome.2 hloopless)
    obtain ⟨found, hfirst, rfl⟩ := View.isFirst_of_query? hresult
    refine ⟨found, hfirst, ?_⟩
    rw [Resolver.document_eq, hresult]
    rfl
  · rw [Resolver.document_eq, View.query?_of_trees hbranch htrees]
    rfl

/-! Two sections that share a paragraph. -/

/-- The paragraph is the first of all nodes, and is met below the first section and again below the second, which has
the class of the paragraph itself. -/
def sections : Store Unit Unit where
  view := {
    nodes := #[{ kind := .element "p", attributes := [("class", "note\tlate")] },
      { kind := .text, text := "see" },
      { kind := .element "div", children := [⟨1⟩, ⟨0⟩] },
      { kind := .element "section", children := [⟨2⟩] },
      { kind := .element "section", attributes := [("class", "late")], children := [⟨0⟩] }] }
  host := ()

/-- The paragraph in the first section comes before the second section, among the nodes and in their trees. -/
theorem lookup_finds_first_shared :
    (∃ found, IsFirst (sections.view.nodeAt? [⟨3⟩, ⟨4⟩]) (sections.view.IsAsked ".late") found ∧
      found.bind (sections.view.nodeAt? [⟨3⟩, ⟨4⟩]) = some ⟨0⟩) ∧
    (∃ trees, [⟨3⟩, ⟨4⟩].mapM sections.view.tree? = some trees ∧
      IsFirst (treeAt? trees) (Tree.IsAsked ".late") (some [0, 0, 1])) ∧
    (Resolver.document [⟨3⟩, ⟨4⟩] ".late").run ⟨fun _ _ => pure ()⟩ 0 sections = some (.ok (some ⟨0⟩), sections) := by
  obtain ⟨hquery, hnodes, htrees⟩ := lookup_finds_first ".late" ⟨fun _ _ => pure ()⟩ 0 sections [⟨3⟩, ⟨4⟩]
  have hbranch : sections.view.OnlyElementsBranch := by
    unfold View.OnlyElementsBranch
    decide
  have hplace : ([⟨3⟩, ⟨4⟩].mapM sections.view.tree?).map (Selector.parse ".late").query = some (some [0, 0, 1]) := by
    decide +kernel
  obtain ⟨trees, hmapM, hfound⟩ := Option.map_eq_some_iff.1 hplace
  have hrun := htrees trees hbranch hmapM
  rw [hfound] at hrun
  have hcomes : (sections.view.query? [⟨3⟩, ⟨4⟩] (.parse ".late")).isSome := by decide +kernel
  obtain ⟨found, hfirst, hrun'⟩ := hnodes (View.query?_isSome.1 hcomes)
  have hsame : found.bind (sections.view.nodeAt? [⟨3⟩, ⟨4⟩]) = some ⟨0⟩ := by
    rw [hrun, Option.some.injEq, Prod.mk.injEq, Except.ok.injEq] at hrun'
    exact hrun'.1.symm
  exact ⟨⟨found, hfirst, hsame⟩, ⟨trees, hmapM, (hquery trees _).1 hfound⟩, hrun⟩

end DataBinding
