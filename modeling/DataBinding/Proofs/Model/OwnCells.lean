import DataBinding.Proofs.Model.Holding
import DataBinding.Proofs.Model.Targets

/-!
# Every path has a cell of its own

A value that stands for a document and consists of parts that are named once each is a tree: keys that lead from
it to a cell are the only ones that do. So in the model of a document that has been observed no two paths lead to
one cell.
-/

set_option autoImplicit false

namespace DataBinding.Model

variable {m : Model} {json : Json} {root : Value} {parts : List Part} {cell : CellId} {id : ObjectId}
  {key : String} {keys keys' : List String} {path path' : Path}

/-- Keys lead from a value to a cell, behind the last of them. -/
inductive LeadsTo (m : Model) (cell : CellId) : List String → Value → Prop where
  | last {id : ObjectId} {key : String} (hslot : m.slot? id key = some (.reactive cell)) :
      LeadsTo m cell [key] (.object id)
  | onward {id : ObjectId} {key : String} {slot : Slot} {rest : List String}
      (hslot : m.slot? id key = some slot) (hrest : LeadsTo m cell rest (m.slotValue slot)) :
      LeadsTo m cell (key :: rest) (.object id)

/-- The keys of a path lead to its target. -/
theorem leadsTo_of_target? (h : m.target? path root = some cell) : m.LeadsTo cell path.segments root := by
  obtain ⟨id, hfound, hslot⟩ := target?_eq_some_iff.1 h
  have hparents : ∀ {keys : List String} {root : Value},
      (m.followKeys path.text keys root).outcome = .ok (.object id) →
      m.LeadsTo cell (keys ++ [path.last]) root := by
    intro keys
    induction keys with
    | nil =>
      intro root hfound
      obtain rfl : root = .object id := Except.ok.inj hfound
      exact .last hslot
    | cons key rest ih =>
      intro root hfound
      cases root with
      | object first =>
        cases hfirst : m.slot? first key with
        | none =>
          rw [followKeys_missing hfirst] at hfound
          cases hfound
        | some slot =>
          rw [followKeys_slot hfirst] at hfound
          exact .onward hfirst (ih hfound)
      | _ => cases hfound
  exact hparents hfound

/-! ## Parts of an object -/

/-- An object stands for an object, and has its slots below it. -/
theorem Holds.exists_members (h : m.Holds json (.object id) parts) :
    ∃ members below, json = .object members ∧ parts = .object id :: below ∧
      m.HoldsAll members (m.fields id) below := by
  cases hobject : json.isObject with
  | false => cases ((holds_leaf hobject _ _).1 h).2
  | true =>
    cases json with
    | object members =>
      obtain ⟨_, below, heq, rfl, hall⟩ := h
      cases heq
      exact ⟨members, below, rfl, rfl, hall⟩
    | _ => cases hobject

/-- What one slot of an object consists of, and that the other slots consist of what is aside from it. -/
theorem HoldsAll.apart {members : List (String × Json)} {fields : List (String × Slot)}
    (h : m.HoldsAll members fields parts) {slot : Slot} (hget : Keyed.get? key fields = some slot) :
    ∃ json here aside, m.Holds json (m.slotValue slot) here ∧ parts.Perm (slot.parts ++ here ++ aside) ∧
      ∀ {other : String} {found : Slot}, other ≠ key → Keyed.get? other fields = some found →
        ∃ json' there, m.Holds json' (m.slotValue found) there ∧ found.parts ++ there ⊆ aside := by
  induction members generalizing fields parts with
  | nil =>
    rw [h.1] at hget
    cases hget
  | cons entry rest ih =>
    obtain ⟨first, document⟩ := entry
    obtain ⟨slot₁, others, here₁, there, rfl, rfl, hhere, hthere⟩ := h
    unfold Keyed.get? at hget
    split at hget
    · next hkey =>
      cases hget
      refine ⟨document, here₁, there, hhere, .refl _, fun {other found} hother hfound => ?_⟩
      unfold Keyed.get? at hfound
      rw [if_neg fun heq => hother (heq.symm.trans hkey)] at hfound
      obtain ⟨json', here', -, hholds, hsub⟩ := hthere.of_slot hfound
      exact ⟨json', here', hholds, hsub⟩
    · next hkey =>
      obtain ⟨json', here, aside, hholds, hperm, hothers⟩ := ih hthere hget
      refine ⟨json', here, slot₁.parts ++ here₁ ++ aside, hholds,
        (hperm.append_left _).trans (List.perm_append_comm_assoc _ _ _), fun {other found} hother hfound => ?_⟩
      unfold Keyed.get? at hfound
      split at hfound
      · cases hfound
        exact ⟨document, here₁, hhere, List.subset_append_left _ _⟩
      · obtain ⟨json₂, there₂, hholds₂, hsub⟩ := hothers hother hfound
        exact ⟨json₂, there₂, hholds₂, List.subset_append_of_subset_right _ hsub⟩

/-! ## Cells -/

/-- Keys lead to a cell of the value that they start from. -/
theorem Holds.cell_mem (h : m.Holds json root parts) (hkeys : m.LeadsTo cell keys root) :
    .cell cell ∈ parts := by
  induction hkeys generalizing json parts with
  | last hslot =>
    obtain ⟨members, below, -, rfl, hall⟩ := h.exists_members
    obtain ⟨-, here, -, -, hsub⟩ := hall.of_slot hslot
    exact List.mem_cons_of_mem _ (hsub List.mem_cons_self)
  | onward hslot _ ih =>
    obtain ⟨members, below, -, rfl, hall⟩ := h.exists_members
    obtain ⟨_, here, -, hholds, hsub⟩ := hall.of_slot hslot
    exact List.mem_cons_of_mem _ (hsub (List.mem_append_right _ (ih hholds)))

/-- The first key leads to a slot that the cell is part of. -/
theorem LeadsTo.exists_slot {rest : List String} (h : m.LeadsTo cell (key :: rest) (.object id)) :
    ∃ slot, m.slot? id key = some slot ∧ ∀ {json : Json} {here : List Part},
      m.Holds json (m.slotValue slot) here → .cell cell ∈ slot.parts ++ here := by
  cases h with
  | last hslot => exact ⟨_, hslot, fun _ => List.mem_cons_self⟩
  | onward hslot hrest => exact ⟨_, hslot, fun hholds => List.mem_append_right _ (hholds.cell_mem hrest)⟩

/-- Different keys of an object lead to different cells. -/
theorem Holds.first_unique {key' : String} {rest rest' : List String} (h : m.Holds json (.object id) parts)
    (hnodup : parts.Nodup) (hkeys : m.LeadsTo cell (key :: rest) (.object id))
    (hkeys' : m.LeadsTo cell (key' :: rest') (.object id)) : key' = key := by
  by_contra hne
  obtain ⟨members, below, -, rfl, hall⟩ := h.exists_members
  obtain ⟨slot, hslot, hmem⟩ := hkeys.exists_slot
  obtain ⟨slot', hslot', hmem'⟩ := hkeys'.exists_slot
  obtain ⟨_, here, aside, hholds, hperm, hothers⟩ := hall.apart hslot
  obtain ⟨_, there, hholds', hsub⟩ := hothers hne hslot'
  have hapart := hperm.nodup_iff.1 (List.nodup_cons.1 hnodup).2
  exact List.disjoint_of_nodup_append hapart (hmem hholds) (hsub (hmem' hholds'))

/-- A slot of an object and what is in it share no part. -/
theorem Holds.slot_nodup {slot : Slot} (h : m.Holds json (.object id) parts) (hnodup : parts.Nodup)
    (hslot : m.slot? id key = some slot) :
    ∃ json' here, m.Holds json' (m.slotValue slot) here ∧ (slot.parts ++ here).Nodup := by
  obtain ⟨members, below, -, rfl, hall⟩ := h.exists_members
  obtain ⟨json', here, aside, hholds, hperm, -⟩ := hall.apart hslot
  exact ⟨json', here, hholds, (List.nodup_append.1 (hperm.nodup_iff.1 (List.nodup_cons.1 hnodup).2)).1⟩

/-- No keys lead from what is in a cell to the cell. -/
theorem Holds.not_leadsTo_self {slot : Slot} {rest : List String} (h : m.Holds json (.object id) parts)
    (hnodup : parts.Nodup) (hcell : m.slot? id key = some (.reactive cell)) (hslot : m.slot? id key = some slot) :
    ¬ m.LeadsTo cell rest (m.slotValue slot) := by
  intro hrest
  obtain rfl : Slot.reactive cell = slot := Option.some.inj (hcell.symm.trans hslot)
  obtain ⟨_, here, hholds, hapart⟩ := h.slot_nodup hnodup hslot
  exact List.disjoint_of_nodup_append hapart (List.mem_singleton.2 rfl) (hholds.cell_mem hrest)

/-- Only the same keys lead to the same cell. -/
theorem Holds.keys_unique (h : m.Holds json root parts) (hnodup : parts.Nodup)
    (hkeys : m.LeadsTo cell keys root) (hkeys' : m.LeadsTo cell keys' root) : keys = keys' := by
  induction hkeys generalizing json parts keys' with
  | last hslot =>
    cases hkeys' with
    | last hslot' => rw [h.first_unique hnodup (.last hslot) (.last hslot')]
    | onward hslot' hrest =>
      obtain rfl := h.first_unique hnodup (.last hslot) (.onward hslot' hrest)
      exact absurd hrest (h.not_leadsTo_self hnodup hslot hslot')
  | onward hslot hrest ih =>
    cases hkeys' with
    | last hslot' =>
      obtain rfl := h.first_unique hnodup (.onward hslot hrest) (.last hslot')
      exact absurd hrest (h.not_leadsTo_self hnodup hslot' hslot)
    | onward hslot' hrest' =>
      obtain rfl := h.first_unique hnodup (.onward hslot hrest) (.onward hslot' hrest')
      obtain rfl := Option.some.inj (hslot.symm.trans hslot')
      obtain ⟨_, here, hholds, hapart⟩ := h.slot_nodup hnodup hslot
      rw [ih hholds (List.nodup_append.1 hapart).2.1 hrest']

/-- In the model of a document that has been observed, no two paths lead to one cell. -/
theorem observe_target?_unique {json : Json}
    (h : (observe json {}).2.target? path (observe json {}).1 = some cell)
    (h' : (observe json {}).2.target? path' (observe json {}).1 = some cell) : path = path' := by
  obtain ⟨parts, hholds, hnews⟩ := observe_holds json {}
  have hsegments := hholds.keys_unique hnews.nodup (leadsTo_of_target? h) (leadsTo_of_target? h')
  obtain ⟨hparents, hlast⟩ := List.append_inj' hsegments rfl
  cases path
  cases path'
  exact congrArg₂ Path.mk hparents (List.singleton_inj.1 hlast)

end DataBinding.Model
