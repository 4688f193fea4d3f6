import DataBinding.Proofs.Runs.Keeps
import DataBinding.Proofs.View.Sparing

/-!
# Passes that come back

A pass does something with each node itself, and then goes on to the nodes below it. If what it does with the nodes
of a tree comes back and changes only the node that it is done with, the pass over the tree comes back:
`compileNode_comes_back`. What it has done by then is told by a predicate of the nodes that it has come to.
-/

set_option autoImplicit false

namespace DataBinding.Run

open Markup (Tree)

variable {ρ σ : Type}

/-- What a pass does with a node itself. -/
def compileOwn (respond : Respond ρ σ) (directives : Directives ρ) (binder : BinderId) (config : Config)
    (id : NodeId) (node : Node ρ) : Run ρ σ Unit :=
  match node.kind with
  | .element _ => each node.attributes (compileAttribute respond directives binder config.marker id)
  | .text => compileText respond directives binder config id node.text
  | .comment => done ()

/-- A node that is no element is done with once it has been handled itself. -/
theorem compileNode_leaf {respond : Respond ρ σ} {directives : Directives ρ} {binder : BinderId} {config : Config}
    {depth : Nat} {id : NodeId} {s : Store ρ σ} (hleaf : ∀ tag, (s.view.node id).kind ≠ .element tag) :
    compileNode respond directives binder config (depth + 1) id s =
      compileOwn respond directives binder config id (s.view.node id) s := by
  unfold compileNode compileOwn
  rw [look_bind]
  cases hkind : (s.view.node id).kind with
  | element tag => exact absurd hkind (hleaf tag)
  | text => rfl
  | comment => rfl

/-- A predicate of the nodes that a pass has come to goes on to hold: what is done with any node of certain trees
that the pass has not come to, comes back, and changes no other node. -/
structure GoesOn (respond : Respond ρ σ) (directives : Directives ρ) (binder : BinderId) (config : Config)
    (view : View ρ) (trees : Tree → Prop) (awaited : NodeId → Prop)
    (reached : List NodeId → Store ρ σ → Prop) : Prop where
  below : ∀ {tag attributes children}, trees (.element tag attributes children) → ∀ tree ∈ children, trees tree
  changed : ∀ {done s}, reached done s → view.ChangedOn done s.view
  own : ∀ {tree id ids}, view.Stands tree id ids → trees tree → awaited id → ∀ {done s}, id ∉ done →
    reached done s → ∃ s', compileOwn respond directives binder config id (view.node id) s = some (.ok (), s') ∧
      reached (done ++ [id]) s'

variable {respond : Respond ρ σ} {directives : Directives ρ} {binder : BinderId} {config : Config} {view : View ρ}
  {trees : Tree → Prop} {awaited : NodeId → Prop} {reached : List NodeId → Store ρ σ → Prop}

mutual

/-- A pass over a tree comes back, and has come to all nodes of the tree. -/
theorem compileNode_comes_back
    (hown : GoesOn respond directives binder config view trees awaited reached) :
    ∀ {tree : Tree} {depth : Nat} {id : NodeId} {done ids : List NodeId} {s : Store ρ σ},
      view.Stands tree id ids → trees tree → tree.levels ≤ depth → (∀ node ∈ ids, awaited node ∧ node ∉ done) →
      reached done s → ∃ s', compileNode respond directives binder config depth id s = some (.ok (), s') ∧
        reached (done ++ ids) s'
  | tree, 0, _, _, _, _, _, _, hlevels, _, _ => by
    cases tree <;> exact absurd hlevels (Nat.not_succ_le_zero _)
  | .text _, _ + 1, id, _, _, _, hstands, htree, _, hids, h => by
    have hself := hown.own hstands htree
    obtain ⟨rfl, -, hkind, -⟩ := hstands
    obtain ⟨hawaited, hnew⟩ := hids _ List.mem_cons_self
    have hsame := (hown.changed h).same _ hnew
    rw [compileNode_leaf (by simp [hsame, hkind]), hsame]
    exact hself hawaited hnew h
  | .comment _, _ + 1, _, _, _, _, hstands, htree, _, hids, h => by
    have hself := hown.own hstands htree
    obtain ⟨rfl, -, hkind, -⟩ := hstands
    obtain ⟨hawaited, hnew⟩ := hids _ List.mem_cons_self
    have hsame := (hown.changed h).same _ hnew
    rw [compileNode_leaf (by simp [hsame, hkind]), hsame]
    exact hself hawaited hnew h
  | .element _ _ _, depth + 1, id, done, _, s, hstands, htree, hlevels, hids, h => by
    have hself := hown.own hstands htree
    obtain ⟨below, rfl, hapart, -, hkind, -, hchildren⟩ := hstands
    obtain ⟨⟨hawaited, hnew⟩, hbelow⟩ := List.forall_mem_cons.1 hids
    obtain ⟨s₁, hrun₁, h₁⟩ := hself hawaited hnew h
    -- The nodes below are still awaited: the element itself is none of them.
    have hbelow₁ : ∀ node ∈ below, awaited node ∧ node ∉ done ++ [id] := by
      intro node hnode
      refine ⟨(hbelow node hnode).1, fun hmem => ?_⟩
      rcases List.mem_append.1 hmem with hmem | hmem
      · exact (hbelow node hnode).2 hmem
      · exact hapart (List.mem_singleton.1 hmem ▸ hnode)
    obtain ⟨s', hrun, h'⟩ := compileNodes_come_back hown hchildren (hown.below htree)
      (Nat.le_of_succ_le_succ hlevels) hbelow₁ h₁
    refine ⟨s', ?_, by rwa [List.append_assoc] at h'⟩
    unfold compileOwn at hrun₁
    unfold compileNode
    rw [look_bind, (hown.changed h).same id hnew]
    rw [hkind] at hrun₁ ⊢
    refine bind_eq_ok.2 ⟨(), s₁, hrun₁, ?_⟩
    rw [look_bind, (hown.changed h₁).children]
    exact hrun

/-- A walk through some trees comes back if what is done with each node does, by induction on the trees. -/
theorem compileNodes_come_back
    (hown : GoesOn respond directives binder config view trees awaited reached) :
    ∀ {forest : List Tree} {depth : Nat} {roots done ids : List NodeId} {s : Store ρ σ},
      view.AllStand forest roots ids → (∀ tree ∈ forest, trees tree) → Tree.allLevels forest ≤ depth →
      (∀ node ∈ ids, awaited node ∧ node ∉ done) → reached done s →
      ∃ s', each roots (compileNode respond directives binder config depth) s = some (.ok (), s') ∧
        reached (done ++ ids) s'
  | [], _, _, _, _, s, hstand, _, _, _, h => by
    obtain ⟨rfl, rfl⟩ := hstand
    rw [List.append_nil]
    exact ⟨s, rfl, h⟩
  | tree :: rest, depth, _, done, _, s, hstand, htrees, hlevels, hids, h => by
    obtain ⟨root, others, here, there, rfl, rfl, hdisjoint, hhere, hthere⟩ := hstand
    obtain ⟨hfirst, hrest⟩ := List.forall_mem_cons.1 htrees
    unfold Tree.allLevels at hlevels
    obtain ⟨hidsHere, hidsThere⟩ := List.forall_mem_append.1 hids
    obtain ⟨s₁, hrun₁, h₁⟩ := compileNode_comes_back hown hhere hfirst
      (Nat.le_trans (Nat.le_max_left _ _) hlevels) hidsHere h
    have hidsThere₁ : ∀ node ∈ there, awaited node ∧ node ∉ done ++ here := fun node hnode =>
      ⟨(hidsThere node hnode).1, fun hmem => (List.mem_append.1 hmem).elim (hidsThere node hnode).2 fun hmem =>
        hdisjoint node hmem hnode⟩
    obtain ⟨s', hrun, h'⟩ := compileNodes_come_back hown hthere hrest
      (Nat.le_trans (Nat.le_max_right _ _) hlevels) hidsThere₁ h₁
    exact ⟨s', bind_eq_ok.2 ⟨(), s₁, hrun₁, hrun⟩, by rwa [List.append_assoc] at h'⟩

end

end DataBinding.Run
