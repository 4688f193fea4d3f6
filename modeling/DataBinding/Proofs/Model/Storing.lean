import DataBinding.Proofs.Model.Holding

/-!
# Writing into documents that a model holds

If no part of a value is named twice, nothing is shared in it: storing something at a place changes the
document of the value at this place and nowhere else, `Holds.store`. `Model.Stores` says what storing under a key
of an object does, whether the key is reactive or plain.
-/

set_option autoImplicit false

namespace DataBinding.Model

variable {m m' : Model}

/-- A value is stored under a key of an object, in this slot. Everything else is as it was. -/
structure Stores (m m' : Model) (id : ObjectId) (key : String) (slot : Slot) (value : Value) :
    Prop where
  fields_eq : m'.fields id = Keyed.put key slot (m.fields id)
  value_eq : m'.slotValue slot = value
  /-- A cell that takes a value is the one that is behind the key. -/
  slot_eq : slot.parts ≠ [] → m.slot? id key = some slot
  same : ∀ part ∉ Part.object id :: slot.parts, SamePart m m' part
  has : ∀ {part}, m.Has part → m'.Has part

section Store

variable {json stored : Json} {value storedValue : Value} {parts fresh : List Part} {text last : String}
  {keys : List String} {members : List (String × Json)} {id : ObjectId} {slot : Slot}

/-- What a write changes is part of the value that it is reached from. -/
theorem Holds.touched (h : m.Holds json value parts)
    (hjson : Json.followKeys text keys json = .ok (.object members))
    (hvalue : (m.followKeys text keys value).outcome = .ok (.object id))
    (hstores : Stores m m' id last slot storedValue) :
    ∀ part ∈ Part.object id :: slot.parts, part ∈ parts := by
  have hfollow := h.followKeys text keys
  rw [hjson, hvalue] at hfollow
  cases hfollow with
  | ok hfollow =>
    obtain ⟨here, hsub, _, below, heq, rfl, hall⟩ := hfollow
    cases heq
    refine List.forall_mem_cons.2 ⟨hsub.subset List.mem_cons_self, fun part hpart => ?_⟩
    refine hsub.subset (List.mem_cons_of_mem _ ?_)
    have hslot := hstores.slot_eq (List.ne_nil_of_mem hpart)
    obtain ⟨current, there, -, -, hsub'⟩ := hall.of_slot hslot
    exact hsub' (List.mem_append_left _ hpart)

/-- Storing what stands for a document under a key of an object changes the document of the object there. -/
theorem HoldsAll.store {below : List Part} (hall : m.HoldsAll members (m.fields id) below)
    (hstored : m'.Holds stored storedValue fresh) (hnodup : (Part.object id :: below).Nodup)
    (hstores : Stores m m' id last slot storedValue) :
    ∃ below', m'.HoldsAll (Keyed.put last stored members) (m'.fields id) below' ∧
      below'.Subperm (below ++ fresh) := by
  obtain ⟨hid, hnodup⟩ := List.nodup_cons.1 hnodup
  have hbelow : ∀ part ∈ below, part ∉ slot.parts → SamePart m m' part := by
    intro part hpart hslot
    refine hstores.same part fun hmem => ?_
    rcases List.mem_cons.1 hmem with rfl | hmem
    · exact hid hpart
    · exact hslot hmem
  rw [← hstores.value_eq] at hstored
  rw [hstores.fields_eq]
  cases hget : Keyed.get? last members with
  | none =>
    -- A key that is not there has no cell, so what is new is the stored value alone.
    have hslot : slot.parts = [] := by
      by_contra hne
      have hnone : m.slot? id last = none := (hall.get?_eq_none_iff last).2 hget
      rw [hstores.slot_eq hne] at hnone
      cases hnone
    refine ⟨below ++ (slot.parts ++ fresh), ?_, by rw [hslot, List.nil_append]⟩
    exact hall.put_new hget (fun part hpart => hbelow part hpart (by simp [hslot])) hstored
  | some current =>
    obtain ⟨slot', here, aside, hslot', -, hperm, hput⟩ := hall.zoom hget
    -- A cell that takes a value stays where it is; a plain slot has no parts.
    have hparts : slot.parts.Subperm slot'.parts := by
      by_cases hempty : slot.parts = []
      · rw [hempty]
        exact List.nil_subperm
      · obtain rfl : slot' = slot := Option.some.inj (hslot'.symm.trans (hstores.slot_eq hempty))
        exact .refl _
    have haside : ∀ part ∈ aside, SamePart m m' part := by
      intro part hpart
      refine hbelow part (hperm.mem_iff.2 (List.mem_append_right _ hpart)) fun hmem => ?_
      have hdisjoint := List.disjoint_of_nodup_append (hperm.nodup_iff.1 hnodup)
      exact hdisjoint (List.mem_append_left _ (hparts.subset hmem)) hpart
    obtain ⟨below', hperm', hall'⟩ := hput haside hstored
    refine ⟨below', hall', List.subperm_iff_count.2 fun part => ?_⟩
    have hle := List.subperm_iff_count.1 hparts part
    simp only [List.count_append, hperm.count_eq, hperm'.count_eq]
    omega

/-- Storing what stands for a document changes the document of a value at the place where it is stored. -/
theorem Holds.store (h : m.Holds json value parts)
    (hstored : m'.Holds stored storedValue fresh) (hnodup : parts.Nodup)
    (hjson : Json.followKeys text keys json = .ok (.object members))
    (hvalue : (m.followKeys text keys value).outcome = .ok (.object id))
    (hstores : Stores m m' id last slot storedValue) :
    ∃ parts', m'.Holds (Json.putAt last stored keys json) value parts' ∧
      parts'.Subperm (parts ++ fresh) := by
  induction keys generalizing json value parts with
  | nil =>
    cases hjson
    cases hvalue
    obtain ⟨_, below, heq, rfl, hall⟩ := h
    cases heq
    obtain ⟨below', hall', hsub⟩ := hall.store hstored hnodup hstores
    exact ⟨.object id :: below', ⟨id, below', rfl, rfl, hall'⟩, (List.subperm_cons _).2 hsub⟩
  | cons key rest ih =>
    cases json with
    | object outer =>
      obtain ⟨outerId, below, rfl, rfl, hall⟩ := h
      cases hget : (Json.object outer).member? key with
      | none =>
        rw [Json.followKeys_missing hget] at hjson
        cases hjson
      | some next =>
        obtain ⟨slot', here, aside, hslot', hholds, hperm, hput⟩ := hall.zoom hget
        rw [Json.followKeys_found hget] at hjson
        rw [followKeys_slot hslot'] at hvalue
        -- What the write changes lies in the document below the key, so the rest is as it was.
        have hinner : ∀ part ∈ Part.object id :: slot.parts, part ∈ here :=
          hholds.touched hjson hvalue hstores
        have hperm' : (Part.object outerId :: below).Perm
            (here ++ (Part.object outerId :: (slot'.parts ++ aside))) := by
          refine (hperm.cons _).trans ?_
          rw [List.append_assoc]
          refine ((List.perm_append_comm_assoc _ _ _).cons _).trans List.perm_middle.symm
        have hnodup' := hperm'.nodup_iff.1 hnodup
        have hothers : ∀ part ∈ Part.object outerId :: (slot'.parts ++ aside), SamePart m m' part :=
          fun part hpart => hstores.same part fun hmem =>
            List.disjoint_of_nodup_append hnodup' (hinner part hmem) hpart
        obtain ⟨here', hholds', hsub⟩ := ih hholds (List.Nodup.of_append_left hnodup') hjson hvalue
        rw [List.forall_mem_cons, List.forall_mem_append] at hothers
        obtain ⟨houter, hslot, haside⟩ := hothers
        rw [← slotValue_of_same hslot] at hholds'
        obtain ⟨below', hbelow, hall'⟩ := hput haside hholds'
        rw [Keyed.put_of_get? hslot'] at hall'
        change Keyed.get? key outer = some next at hget
        refine ⟨.object outerId :: below', ?_, List.subperm_iff_count.2 fun part => ?_⟩
        · unfold Json.putAt
          rw [hget]
          refine ⟨outerId, below', rfl, rfl, ?_⟩
          rw [show m'.fields outerId = m.fields outerId from houter]
          exact hall'
        · have hle := List.subperm_iff_count.1 hsub part
          simp only [List.count_append, List.cons_append, List.count_cons, hperm.count_eq,
            hbelow.count_eq] at hle ⊢
          omega
    | _ =>
      rw [Json.followKeys_missing rfl] at hjson
      cases hjson

end Store

section Stored

variable {id : ObjectId} {key : String}

/-- A value is stored in the cell behind a key, whatever becomes of who is subscribed to it. -/
theorem stores_setCellValue {cell : CellId} (hslot : m.slot? id key = some (.reactive cell))
    (hcell : m.Has (.cell cell)) (value : Value) (f : List SubscriberId → List SubscriberId) :
    Stores m ((m.setCellValue cell value).updateSubscribers cell f) id key (.reactive cell) value where
  fields_eq := (Keyed.put_of_get? hslot).symm
  value_eq := by
    refine ((Alike.updateSubscribers _ cell f).value cell).trans ?_
    rw [cell_setCellValue, if_pos ⟨rfl, hcell⟩]
  slot_eq _ := hslot
  same part hpart := by
    cases part with
    | object other => rfl
    | cell other =>
      have hother : cell ≠ other := by
        rintro rfl
        exact hpart (List.mem_cons_of_mem _ List.mem_cons_self)
      refine ((Alike.updateSubscribers _ cell f).value other).trans ?_
      rw [cell_setCellValue, if_neg fun h => hother h.1]
    | array other => trivial
  has {part} hhas := by
    cases part with
    | cell other => simpa [Has, setCellValue, updateSubscribers] using hhas
    | _ => exact hhas

/-- A plain value is stored under its key in a plain slot. -/
theorem stores_putPlain (hid : m.Has (.object id)) (key : String) (value : Value) :
    Stores m (m.putPlain id key value) id key (.plain value) value where
  fields_eq := by
    have hlt : id.index < m.objects.size := hid
    unfold fields putPlain
    simp [Array.getD_eq_getD_getElem?, Array.getElem_modify, hlt]
  value_eq := rfl
  slot_eq h := absurd rfl h
  same part hpart := by
    cases part with
    | object other =>
      have hother : id.index ≠ other.index := by
        intro heq
        refine hpart (List.mem_cons.2 (.inl (congrArg Part.object ?_)))
        cases other
        cases id
        exact congrArg ObjectId.mk heq.symm
      change (m.putPlain id key value).fields other = m.fields other
      unfold fields putPlain
      simp [Array.getD_eq_getD_getElem?, Array.getElem?_modify, hother]
    | cell other => rfl
    | array other => trivial
  has {part} hhas := by
    cases part with
    | object other => simpa [Has, putPlain] using hhas
    | _ => exact hhas

end Stored

end DataBinding.Model
