import DataBinding.View

/-!
# Trees that stand in a view

The nodes of a view refer to each other by their handles, and nothing in a view keeps two elements from
sharing a child. `View.Stands v tree id ids` says that a tree stands at a node: the node and the nodes
below it have the markup of the tree, they are the nodes `ids`, each of which is met once. Planting makes
a tree stand, and changes elsewhere leave it standing.
-/

set_option autoImplicit false

namespace DataBinding

open Markup (Tree)

namespace Markup.Tree

mutual

/-- How many levels of nodes a tree has. -/
def levels : Tree → Nat
  | .text _ => 1
  | .comment _ => 1
  | .element _ _ children => allLevels children + 1

/-- How many levels of nodes trees that follow each other have. -/
def allLevels : List Tree → Nat
  | [] => 0
  | tree :: rest => max tree.levels (allLevels rest)

end

end Markup.Tree

namespace View

variable {ρ : Type} {v v' v'' : View ρ}

/-! ## Single nodes -/

/-- A change of a node of the view shows at that node only. -/
theorem node_update (v : View ρ) (id other : NodeId) (f : Node ρ → Node ρ) :
    (v.update id f).node other =
      if id = other ∧ id.index < v.nodes.size then f (v.node other) else v.node other := by
  unfold node update
  simp only [Array.getD_eq_getD_getElem?, Array.getElem?_modify]
  by_cases hid : id = other
  · subst hid
    by_cases hlt : id.index < v.nodes.size
    · simp [hlt]
    · simp [hlt]
  · have hne : id.index ≠ other.index := fun heq => hid (by cases id; cases other; simp_all)
    simp [hid, hne]

/-- A change of a node makes no new ones. -/
@[simp] theorem size_update (v : View ρ) (id : NodeId) (f : Node ρ → Node ρ) :
    (v.update id f).nodes.size = v.nodes.size := by
  simp [update]

/-- A change of a node leaves the others alone. -/
theorem node_update_of_ne {id other : NodeId} (hne : other ≠ id) (f : Node ρ → Node ρ) :
    (v.update id f).node other = v.node other := by
  rw [node_update, if_neg fun h => hne h.1.symm]

/-- A node that changes without changing its kind. -/
theorem kind_update {target id : NodeId} {f : Node ρ → Node ρ} (hf : ∀ n, (f n).kind = n.kind) :
    ((v.update target f).node id).kind = (v.node id).kind := by
  rw [node_update]
  split
  · exact hf _
  · rfl

/-- A change that keeps the children of a node keeps those of all nodes. -/
theorem children_update {target id : NodeId} {f : Node ρ → Node ρ} (hf : ∀ n, (f n).children = n.children) :
    ((v.update target f).node id).children = (v.node id).children := by
  rw [node_update]
  split
  · exact hf _
  · rfl

/-- A new node leaves the old ones alone. -/
theorem node_add_of_lt {other : NodeId} (hlt : other.index < v.nodes.size) (n : Node ρ) :
    (v.add n).2.node other = v.node other := by
  simp [node, add, Array.getD_eq_getD_getElem?, Array.getElem?_push_lt hlt,
    Array.getElem?_eq_getElem hlt]

/-- The new node is what was added. -/
@[simp] theorem node_add_new (v : View ρ) (n : Node ρ) : (v.add n).2.node (v.add n).1 = n := by
  simp [node, add, Array.getD_eq_getD_getElem?]

/-- Adding a node makes one more. -/
@[simp] theorem size_add (v : View ρ) (n : Node ρ) :
    (v.add n).2.nodes.size = v.nodes.size + 1 := by
  simp [add]

/-- Setting a text removes no nodes; it may add one. -/
theorem size_le_setText (v : View ρ) (target : NodeId) (text : String) :
    v.nodes.size ≤ (v.setText target text).nodes.size := by
  unfold setText
  split
  · rw [size_update, size_add]
    exact Nat.le_succ _
  · exact Nat.le_of_eq (size_update ..).symm

/-- Writing the text of another node leaves a node as it is. -/
theorem node_setText_of_ne {node target : NodeId} (hlt : node.index < v.nodes.size)
    (hne : node ≠ target) (text : String) : (v.setText target text).node node = v.node node := by
  unfold setText
  split
  · rw [node_update_of_ne hne, node_add_of_lt hlt]
  · rw [node_update_of_ne hne]

/-! ## Standing -/

mutual

/-- A tree stands at a node, and these are its nodes, in document order. -/
def Stands (v : View ρ) : Tree → NodeId → List NodeId → Prop
  | .text content, id, ids =>
    ids = [id] ∧ id.index < v.nodes.size ∧ (v.node id).kind = .text ∧ (v.node id).text = content
  | .comment body, id, ids =>
    ids = [id] ∧ id.index < v.nodes.size ∧ (v.node id).kind = .comment ∧ (v.node id).text = body
  | .element tag attributes children, id, ids =>
    ∃ below, ids = id :: below ∧ id ∉ below ∧ id.index < v.nodes.size ∧
      (v.node id).kind = .element tag ∧ (v.node id).attributes = attributes ∧
      v.AllStand children (v.node id).children below

/-- Trees stand at nodes that follow each other. -/
def AllStand (v : View ρ) : List Tree → List NodeId → List NodeId → Prop
  | [], roots, ids => roots = [] ∧ ids = []
  | tree :: rest, roots, ids =>
    ∃ root others here there, roots = root :: others ∧ ids = here ++ there ∧
      (∀ n ∈ here, n ∉ there) ∧ v.Stands tree root here ∧ v.AllStand rest others there

end

mutual

/-- All nodes of a tree that stands in a view are nodes of the view. -/
theorem Stands.lt_size : ∀ {tree : Tree} {id : NodeId} {ids : List NodeId}, v.Stands tree id ids →
    ∀ n ∈ ids, n.index < v.nodes.size
  | .text _, id, _, h => by
    obtain ⟨rfl, hlt, -⟩ := h
    intro n hn
    rw [List.mem_singleton.1 hn]
    exact hlt
  | .comment _, id, _, h => by
    obtain ⟨rfl, hlt, -⟩ := h
    intro n hn
    rw [List.mem_singleton.1 hn]
    exact hlt
  | .element _ _ children, id, _, h => by
    obtain ⟨below, rfl, -, hlt, -, -, hchildren⟩ := h
    intro n hn
    rcases List.mem_cons.1 hn with rfl | hn
    · exact hlt
    · exact hchildren.lt_size n hn

/-- All nodes of trees that stand in a view are nodes of the view. -/
theorem AllStand.lt_size : ∀ {trees : List Tree} {roots ids : List NodeId},
    v.AllStand trees roots ids → ∀ n ∈ ids, n.index < v.nodes.size
  | [], _, _, h => by
    obtain ⟨-, rfl⟩ := h
    intro n hn
    cases hn
  | _ :: _, _, _, h => by
    obtain ⟨root, others, here, there, rfl, rfl, -, hhere, hthere⟩ := h
    intro n hn
    rcases List.mem_append.1 hn with hn | hn
    · exact hhere.lt_size n hn
    · exact hthere.lt_size n hn

end

mutual

/-- Each node is met once. -/
theorem Stands.nodup : ∀ {tree : Tree} {id : NodeId} {ids : List NodeId}, v.Stands tree id ids → ids.Nodup
  | .text _, _, _, h => by
    obtain ⟨rfl, -⟩ := h
    exact List.nodup_cons.2 ⟨List.not_mem_nil, List.nodup_nil⟩
  | .comment _, _, _, h => by
    obtain ⟨rfl, -⟩ := h
    exact List.nodup_cons.2 ⟨List.not_mem_nil, List.nodup_nil⟩
  | .element _ _ _, _, _, h => by
    obtain ⟨below, rfl, hself, -, -, -, hchildren⟩ := h
    exact List.nodup_cons.2 ⟨hself, hchildren.nodup⟩

/-- No node belongs to two of the trees, or twice to one. -/
theorem AllStand.nodup : ∀ {trees : List Tree} {roots ids : List NodeId}, v.AllStand trees roots ids → ids.Nodup
  | [], _, _, h => by
    obtain ⟨-, rfl⟩ := h
    exact List.nodup_nil
  | _ :: _, _, _, h => by
    obtain ⟨root, others, here, there, rfl, rfl, hdisjoint, hhere, hthere⟩ := h
    refine List.nodup_append.2 ⟨hhere.nodup, hthere.nodup, ?_⟩
    rintro n hn _ hn' rfl
    exact hdisjoint n hn hn'

end

mutual

/-- A tree goes on standing if none of its nodes changes. -/
theorem Stands.of_same (hsize : v.nodes.size ≤ v'.nodes.size) :
    ∀ {tree : Tree} {id : NodeId} {ids : List NodeId}, v.Stands tree id ids →
      (∀ n ∈ ids, v'.node n = v.node n) → v'.Stands tree id ids
  | .text _, id, _, h, hsame => by
    obtain ⟨rfl, hlt, hkind, htext⟩ := h
    unfold Stands
    rw [hsame id (List.mem_singleton_self id)]
    exact ⟨rfl, Nat.lt_of_lt_of_le hlt hsize, hkind, htext⟩
  | .comment _, id, _, h, hsame => by
    obtain ⟨rfl, hlt, hkind, htext⟩ := h
    unfold Stands
    rw [hsame id (List.mem_singleton_self id)]
    exact ⟨rfl, Nat.lt_of_lt_of_le hlt hsize, hkind, htext⟩
  | .element _ _ _, id, _, h, hsame => by
    obtain ⟨below, rfl, hself, hlt, hkind, hattributes, hchildren⟩ := h
    unfold Stands
    rw [hsame id List.mem_cons_self]
    exact ⟨below, rfl, hself, Nat.lt_of_lt_of_le hlt hsize, hkind, hattributes,
      hchildren.of_same hsize fun n hn => hsame n (List.mem_cons_of_mem id hn)⟩

/-- Trees go on standing while their nodes stay as they are. -/
theorem AllStand.of_same (hsize : v.nodes.size ≤ v'.nodes.size) :
    ∀ {trees : List Tree} {roots ids : List NodeId}, v.AllStand trees roots ids →
      (∀ n ∈ ids, v'.node n = v.node n) → v'.AllStand trees roots ids
  | [], _, _, h, _ => h
  | _ :: _, _, _, h, hsame => by
    obtain ⟨root, others, here, there, rfl, rfl, hdisjoint, hhere, hthere⟩ := h
    exact ⟨root, others, here, there, rfl, rfl, hdisjoint,
      hhere.of_same hsize fun n hn => hsame n (List.mem_append_left _ hn),
      hthere.of_same hsize fun n hn => hsame n (List.mem_append_right _ hn)⟩

end

/-! ## Planting -/

/-- A view has all nodes of an earlier one as they were. -/
structure Extends (v v' : View ρ) : Prop where
  size_le : v.nodes.size ≤ v'.nodes.size
  same : ∀ {n : NodeId}, n.index < v.nodes.size → v'.node n = v.node n

/-- A view extends itself. -/
theorem Extends.refl (v : View ρ) : Extends v v := ⟨Nat.le_refl _, fun _ => rfl⟩

/-- A view extends whatever a view extends that it extends. -/
theorem Extends.trans (h₁ : Extends v v') (h₂ : Extends v' v'') : Extends v v'' where
  size_le := Nat.le_trans h₁.size_le h₂.size_le
  same hlt := (h₂.same (Nat.lt_of_lt_of_le hlt h₁.size_le)).trans (h₁.same hlt)

/-- A view with one more node extends the view. -/
theorem Extends.add (v : View ρ) (n : Node ρ) : Extends v (v.add n).2 where
  size_le := by simp
  same hlt := node_add_of_lt hlt n

mutual

/-- Planting a tree leaves the nodes that were there alone. -/
theorem plant_extends : ∀ (tree : Tree) (v : View ρ), Extends v (plant tree v).2
  | .text _, v => Extends.add v _
  | .comment _, v => Extends.add v _
  | .element _ _ children, v => (plantAll_extends children v).trans (Extends.add _ _)

/-- Planting some trees leaves the nodes that were there alone. -/
theorem plantAll_extends : ∀ (trees : List Tree) (v : View ρ), Extends v (plantAll trees v).2
  | [], v => Extends.refl v
  | tree :: rest, v => (plant_extends tree v).trans (plantAll_extends rest _)

end

mutual

/-- A planted tree stands on new nodes. -/
theorem plant_stands : ∀ (tree : Tree) (v : View ρ), ∃ ids,
    (plant tree v).2.Stands tree (plant tree v).1 ids ∧ ∀ n ∈ ids, v.nodes.size ≤ n.index
  | .text content, v => by
    refine ⟨[(plant (.text content) v).1], ⟨rfl, ?_, ?_, ?_⟩, ?_⟩
    all_goals simp [plant, add, node, Array.getD_eq_getD_getElem?]
  | .comment body, v => by
    refine ⟨[(plant (.comment body) v).1], ⟨rfl, ?_, ?_, ?_⟩, ?_⟩
    all_goals simp [plant, add, node, Array.getD_eq_getD_getElem?]
  | .element tag attributes children, v => by
    obtain ⟨below, hbelow, hnew⟩ := plantAll_stands children v
    -- The element is added after its children, so they stand as they did.
    have hadd := Extends.add (plantAll children v).2 {
      kind := .element tag, attributes, children := (plantAll children v).1
      value := (Keyed.get? "value" attributes).getD "" }
    have hroot : ∀ n ∈ below, n.index < (plantAll children v).2.nodes.size := hbelow.lt_size
    refine ⟨(plant (.element tag attributes children) v).1 :: below,
      ⟨below, rfl, ?_, ?_, ?_, ?_, ?_⟩, ?_⟩
    · intro hmem
      exact absurd (hroot _ hmem) (Nat.lt_irrefl _)
    · simp [plant, add]
    · simp [plant, add, node, Array.getD_eq_getD_getElem?]
    · simp [plant, add, node, Array.getD_eq_getD_getElem?]
    · have hchildren : ((plant (.element tag attributes children) v).2.node
          (plant (.element tag attributes children) v).1).children = (plantAll children v).1 := by
        simp [plant, add, node, Array.getD_eq_getD_getElem?]
      rw [hchildren]
      exact hbelow.of_same hadd.size_le fun n hn => hadd.same (hroot n hn)
    · intro n hn
      rcases List.mem_cons.1 hn with rfl | hn
      · exact (plantAll_extends children v).size_le
      · exact hnew n hn

/-- Trees that are planted stand, at nodes that were not there before. -/
theorem plantAll_stands : ∀ (trees : List Tree) (v : View ρ), ∃ ids,
    (plantAll trees v).2.AllStand trees (plantAll trees v).1 ids ∧ ∀ n ∈ ids, v.nodes.size ≤ n.index
  | [], _ => ⟨[], ⟨rfl, rfl⟩, fun _ hn => absurd hn List.not_mem_nil⟩
  | tree :: rest, v => by
    obtain ⟨here, hhere, hnew⟩ := plant_stands tree v
    obtain ⟨there, hthere, hlater⟩ := plantAll_stands rest (plant tree v).2
    have hextends := plantAll_extends rest (plant tree v).2
    refine ⟨here ++ there, ⟨_, _, here, there, rfl, rfl, ?_, ?_, hthere⟩, ?_⟩
    · intro n hn hmem
      exact absurd (hhere.lt_size n hn) (Nat.not_lt_of_le (hlater n hmem))
    · exact hhere.of_same hextends.size_le fun n hn => hextends.same (hhere.lt_size n hn)
    · intro n hn
      rcases List.mem_append.1 hn with hn | hn
      · exact hnew n hn
      · exact Nat.le_trans (plant_extends tree v).size_le (hlater n hn)

end

end View

end DataBinding
