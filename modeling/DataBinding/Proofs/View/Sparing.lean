import DataBinding.Proofs.View.Standing

/-!
# Nodes that are left alone

`View.Spares scope v v'` says that between an earlier and a later view nothing was written outside a scope:
every other node is as it was, except that its live value may be one of those that the scope allows to be
typed over it. `View.ChangedOn nodes v v'` says more: only some nodes have changed, and no node has another place.
-/

set_option autoImplicit false

namespace DataBinding

/-- The nodes that may be written, and the values that may be typed over the others. -/
structure Scope where
  writes : NodeId → Prop
  types : NodeId → String → Prop

/-- The scope that allows everything. -/
def Scope.everything : Scope := ⟨fun _ => True, fun _ _ => True⟩

namespace View

variable {ρ : Type} {scope : Scope} {v v' v'' : View ρ}

/-- Outside a scope a view is as it was, apart from what was typed. -/
structure Spares (scope : Scope) (v v' : View ρ) : Prop where
  size_le : v.nodes.size ≤ v'.nodes.size
  node : ∀ {id : NodeId}, id.index < v.nodes.size → ¬ scope.writes id → ∃ value,
    v'.node id = { v.node id with value } ∧ (value = (v.node id).value ∨ scope.types id value)

/-- A view is spared if nodes outside the scope stay as they are. -/
theorem Spares.of_node (hsize : v.nodes.size ≤ v'.nodes.size)
    (hnode : ∀ {id : NodeId}, id.index < v.nodes.size → ¬ scope.writes id → v'.node id = v.node id) :
    v.Spares scope v' :=
  ⟨hsize, fun hlt hout => ⟨_, hnode hlt hout, .inl rfl⟩⟩

/-- A view that does not change is spared. -/
theorem Spares.refl (v : View ρ) : v.Spares scope v := .of_node (Nat.le_refl _) fun _ _ => rfl

/-- What is spared twice is spared. A value that was typed may be typed over. -/
theorem Spares.trans (h₁ : v.Spares scope v') (h₂ : v'.Spares scope v'') : v.Spares scope v'' where
  size_le := Nat.le_trans h₁.size_le h₂.size_le
  node {id} hlt hout := by
    obtain ⟨value, hvalue, htyped⟩ := h₁.node hlt hout
    obtain ⟨value', hvalue', htyped'⟩ := h₂.node (Nat.lt_of_lt_of_le hlt h₁.size_le) hout
    rw [hvalue] at hvalue' htyped'
    refine ⟨value', hvalue', ?_⟩
    rcases htyped' with rfl | htyped'
    · exact htyped
    · exact .inr htyped'

/-- A change of a node in the scope spares the others. -/
theorem spares_update {target : NodeId} (h : scope.writes target) (f : Node ρ → Node ρ) :
    v.Spares scope (v.update target f) := by
  refine .of_node (Nat.le_of_eq (size_update ..).symm) fun {id} _ hout => ?_
  apply node_update_of_ne
  rintro rfl
  exact hout h

/-- Setting the text of a node in the scope spares the others, as the node that it may add is new. -/
theorem spares_setText {target : NodeId} (h : scope.writes target) (text : String) :
    v.Spares scope (v.setText target text) := by
  refine .of_node (size_le_setText ..) fun {id} hlt hout => node_setText_of_ne hlt ?_ text
  rintro rfl
  exact hout h

/-- Typing over the value of a node is all that the node notices of it. -/
theorem spares_typeOver {target : NodeId} {text : String}
    (h : scope.writes target ∨ scope.types target text) : v.Spares scope (v.typeOver target text) where
  size_le := Nat.le_of_eq (size_update ..).symm
  node {id} hlt hout := by
    by_cases hid : target = id
    · subst hid
      refine ⟨text, ?_, .inr (h.resolve_left hout)⟩
      rw [typeOver, node_update, if_pos ⟨rfl, hlt⟩]
    · exact ⟨_, node_update_of_ne (Ne.symm hid) _, .inl rfl⟩

/-- Planting a tree spares what is there. -/
theorem spares_plant (tree : Markup.Tree) : v.Spares scope (plant tree v).2 :=
  .of_node (plant_extends tree v).size_le fun hlt _ => (plant_extends tree v).same hlt

/-- Only some nodes have changed, and all are of the kinds, and have the children, that they had. -/
structure ChangedOn (nodes : List NodeId) (v v' : View ρ) : Prop where
  size : v'.nodes.size = v.nodes.size
  kind : ∀ node, (v'.node node).kind = (v.node node).kind
  children : ∀ node, (v'.node node).children = (v.node node).children
  same : ∀ node, node ∉ nodes → v'.node node = v.node node

namespace ChangedOn

variable {nodes nodes' : List NodeId} {node : NodeId} {f : Node ρ → Node ρ}

/-- If nothing changes, it changes nowhere else. -/
theorem refl (nodes : List NodeId) (v : View ρ) : ChangedOn nodes v v :=
  ⟨rfl, fun _ => rfl, fun _ => rfl, fun _ _ => rfl⟩

/-- What has changed on some nodes only has changed on more nodes only. -/
theorem mono (h : ChangedOn nodes v v') (hsub : nodes ⊆ nodes') : ChangedOn nodes' v v' :=
  ⟨h.size, h.kind, h.children, fun node hnode => h.same node fun hmem => hnode (hsub hmem)⟩

/-- A change of one of the nodes that keeps its kind and its children adds nothing to where the view has
changed. -/
theorem update (h : ChangedOn nodes v v') (hnode : node ∈ nodes) (hkind : ∀ n, (f n).kind = n.kind)
    (hchildren : ∀ n, (f n).children = n.children) : ChangedOn nodes v (v'.update node f) where
  size := (size_update v' node f).trans h.size
  kind other := (kind_update hkind).trans (h.kind other)
  children other := (children_update hchildren).trans (h.children other)
  same other hother := by
    have hne : other ≠ node := fun heq => hother (heq ▸ hnode)
    rw [node_update_of_ne hne, h.same other hother]

end ChangedOn

end View

end DataBinding
