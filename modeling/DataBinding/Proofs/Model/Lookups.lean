import DataBinding.Proofs.Model.Keys

/-!
# What a path reads, and what a write changes of it

Following keys reads one key of an object after the other, up to the first that is not there: these are the
`lookups` of the keys. A value is stored under one key of one object, in the cell behind the key or in a plain
field, and nothing else is found under any other key than before. So keys that do not read this one lead where
they led.
-/

set_option autoImplicit false

namespace DataBinding.Model

variable {m m' : Model} {id : ObjectId} {key text : String} {keys : List String} {root value : Value}

/-! ## Following keys -/

/-- A key under which nothing is found ends the way, and the error names it. -/
theorem followKeys_outcome_none (h : m.get? id key = none) (text : String) (rest : List String) :
    (m.followKeys text (key :: rest) (.object id)).outcome = .error (.pathResolution text key) := by
  rw [followKeys_missing (Option.map_eq_none_iff.1 h)]

/-- A key leads on from the value that is found under it. -/
theorem followKeys_outcome_some (h : m.get? id key = some value) (text : String) (rest : List String) :
    (m.followKeys text (key :: rest) (.object id)).outcome = (m.followKeys text rest value).outcome := by
  obtain ⟨slot, hslot, rfl⟩ := Option.map_eq_some_iff.1 h
  exact followKeys_slot hslot text rest

/-- Keys that lead somewhere, and others that go on from there. -/
theorem followKeys_append (hfound : (m.followKeys text keys root).outcome = .ok value) (rest : List String) :
    m.followKeys text (keys ++ rest) root =
      ⟨(m.followKeys text keys root).cells ++ (m.followKeys text rest value).cells,
        (m.followKeys text rest value).outcome⟩ := by
  induction keys generalizing root with
  | nil =>
    obtain rfl : root = value := Except.ok.inj hfound
    rfl
  | cons key keys ih =>
    cases root with
    | object id =>
      rw [List.cons_append]
      cases hslot : m.slot? id key with
      | none =>
        rw [followKeys_missing hslot] at hfound
        cases hfound
      | some slot =>
        cases slot with
        | plain found =>
          rw [followKeys_plain hslot] at hfound ⊢
          rw [followKeys_plain hslot, ih hfound]
        | reactive cell =>
          rw [followKeys_reactive hslot] at hfound ⊢
          rw [followKeys_reactive hslot, ih hfound]
          rfl
    | _ => cases hfound

/-- Keys that lead nowhere fail at the first that is asked of no object, or of an object without it. -/
theorem followKeys_error {e : Error} (h : (m.followKeys text keys root).outcome = .error e) :
    ∃ before key after found, keys = before ++ key :: after ∧ e = .pathResolution text key ∧
      (m.followKeys text before root).outcome = .ok found ∧ ∀ id, found = .object id → m.get? id key = none := by
  induction keys generalizing root with
  | nil => cases h
  | cons key rest ih =>
    cases root with
    | object id =>
      cases hget : m.get? id key with
      | none =>
        rw [followKeys_outcome_none hget] at h
        cases h
        refine ⟨[], key, rest, .object id, rfl, rfl, rfl, fun other heq => ?_⟩
        obtain rfl := Value.object.inj heq
        exact hget
      | some value =>
        rw [followKeys_outcome_some hget] at h
        obtain ⟨before, failed, after, found, rfl, rfl, hfound, hmissing⟩ := ih h
        refine ⟨key :: before, failed, after, found, rfl, rfl, ?_, hmissing⟩
        rw [followKeys_outcome_some hget, hfound]
    | _ =>
      cases h
      exact ⟨[], key, rest, _, rfl, rfl, rfl, fun _ heq => by cases heq⟩

/-! ## Lookups -/

/-- The keys that are read one after the other, each with the object that is asked for it. -/
def lookups (m : Model) : List String → Value → List (ObjectId × String)
  | key :: rest, .object id =>
    (id, key) :: match m.get? id key with
      | some value => m.lookups rest value
      | none => []
  | _, _ => []

/-- A key that is found is looked up, and then the keys after it from its value. -/
theorem lookups_some (h : m.get? id key = some value) (rest : List String) :
    m.lookups (key :: rest) (.object id) = (id, key) :: m.lookups rest value := by
  rw [lookups, h]

/-- A key that is missing is the last one that is looked up. -/
theorem lookups_none (h : m.get? id key = none) (rest : List String) :
    m.lookups (key :: rest) (.object id) = [(id, key)] := by
  rw [lookups, h]

/-- A key is read of an object if the keys before it lead there. -/
theorem exists_of_mem_lookups (h : (id, key) ∈ m.lookups keys root) (text : String) :
    ∃ before after, keys = before ++ key :: after ∧ (m.followKeys text before root).outcome = .ok (.object id) := by
  induction keys generalizing root with
  | nil => cases h
  | cons first rest ih =>
    cases root with
    | object o =>
      cases hget : m.get? o first with
      | none =>
        rw [lookups_none hget, List.mem_singleton] at h
        cases h
        exact ⟨[], rest, rfl, rfl⟩
      | some value =>
        rw [lookups_some hget] at h
        rcases List.mem_cons.1 h with heq | h
        · cases heq
          exact ⟨[], rest, rfl, rfl⟩
        · obtain ⟨before, after, rfl, hfound⟩ := ih h
          refine ⟨first :: before, after, rfl, ?_⟩
          rw [followKeys_outcome_some hget, hfound]
    | _ => cases h

/-- On the way to an object no key is asked of the object itself, or the object leads back to itself. -/
theorem Acyclic.not_mem_lookups (h : m.Acyclic)
    (hfound : (m.followKeys text keys root).outcome = .ok (.object id)) (key : String) :
    (id, key) ∉ m.lookups keys root := by
  intro hmem
  obtain ⟨before, after, rfl, hbefore⟩ := exists_of_mem_lookups hmem text
  rw [followKeys_append hbefore] at hfound
  exact h id text (key :: after) (List.cons_ne_nil key after) hfound

/-- Keys lead where they led if all that they read is found as it was. -/
theorem followKeys_outcome_congr (hsame : ∀ o k, (o, k) ≠ (id, key) → m'.get? o k = m.get? o k)
    (hnot : (id, key) ∉ m.lookups keys root) :
    (m'.followKeys text keys root).outcome = (m.followKeys text keys root).outcome := by
  induction keys generalizing root with
  | nil => rfl
  | cons first rest ih =>
    cases root with
    | object o =>
      have hfirst : m'.get? o first = m.get? o first := by
        refine hsame o first fun heq => hnot ?_
        rw [← heq, lookups]
        exact List.mem_cons_self
      cases hget : m.get? o first with
      | none => rw [followKeys_outcome_none hget, followKeys_outcome_none (hfirst.trans hget)]
      | some value =>
        rw [lookups_some hget] at hnot
        rw [followKeys_outcome_some hget, followKeys_outcome_some (hfirst.trans hget),
          ih fun hmem => hnot (List.mem_cons_of_mem _ hmem)]
    | _ => rfl

/-! ## Storing under a key -/

/-- The model once a value is stored under a key of an object: in the cell behind the key, or in a plain field. -/
def store (m : Model) (id : ObjectId) (key : String) (value : Value) : Model :=
  match m.cellAt? id key with
  | some cell => m.setCellValue cell value
  | none => m.putPlain id key value

/-- A value for a reactive key goes into its cell. -/
theorem store_reactive {cell : CellId} (h : m.cellAt? id key = some cell) :
    m.store id key value = m.setCellValue cell value := by
  unfold store
  rw [h]

/-- A value for any other key becomes a plain field. -/
theorem store_plain (h : m.cellAt? id key = none) : m.store id key value = m.putPlain id key value := by
  unfold store
  rw [h]

/-- Cells stay owned whatever is stored. -/
theorem Owned.store (h : m.Owned) (id : ObjectId) (key : String) (value : Value) : (m.store id key value).Owned := by
  unfold Model.store
  split
  · exact h.setCellValue _ value
  · exact h.putPlain id key value

/-- The value is found where it was stored, and everything else as it was. -/
theorem get?_store (howned : m.Owned) (hid : m.Has (.object id)) (value : Value) (o : ObjectId) (k : String) :
    (m.store id key value).get? o k = if (o, k) = (id, key) then some value else m.get? o k := by
  unfold get?
  cases hcell : m.cellAt? id key with
  | none =>
    have hvalues : ∀ slot, (m.putPlain id key value).slotValue slot = m.slotValue slot := fun slot => by
      cases slot <;> rfl
    rw [store_plain hcell, slot?_putPlain, funext hvalues]
    by_cases hsame : (o, k) = (id, key)
    · obtain ⟨rfl, rfl⟩ := Prod.mk.inj hsame
      rw [if_pos ⟨rfl, rfl, hid⟩, if_pos rfl]
      rfl
    · rw [if_neg hsame, if_neg]
      rintro ⟨rfl, rfl, -⟩
      exact hsame rfl
  | some cell =>
    have hslot := cellAt?_eq_some_iff.1 hcell
    have hfields : (m.setCellValue cell value).slot? o k = m.slot? o k := rfl
    rw [store_reactive hcell, hfields]
    by_cases hsame : (o, k) = (id, key)
    · obtain ⟨rfl, rfl⟩ := Prod.mk.inj hsame
      rw [if_pos rfl, hslot, Option.map_some, slotValue, cell_setCellValue,
        if_pos ⟨rfl, howned.sound _ _ _ hslot⟩]
    · rw [if_neg hsame]
      refine Option.map_congr fun slot hother => ?_
      cases slot with
      | plain current => rfl
      | reactive found =>
        rw [slotValue, slotValue, cell_setCellValue, if_neg]
        rintro ⟨rfl, -⟩
        obtain ⟨rfl, rfl⟩ := howned.eq_of_slot? hother hslot
        exact hsame rfl

section Stored

variable (howned : m.Owned) (hid : m.Has (.object id))

include howned hid

/-- Keys that do not read where a value is stored lead where they led. -/
theorem followKeys_store (hnot : (id, key) ∉ m.lookups keys root) :
    ((m.store id key value).followKeys text keys root).outcome = (m.followKeys text keys root).outcome :=
  followKeys_outcome_congr (fun o k hne => (get?_store howned hid value o k).trans (if_neg hne)) hnot

/-- In a model without cycles, keys lead to the value that was stored where they lead. -/
theorem followKeys_stored (hacyclic : m.Acyclic)
    (hfound : (m.followKeys text keys root).outcome = .ok (.object id)) :
    ((m.store id key value).followKeys text (keys ++ [key]) root).outcome = .ok value := by
  have hparents : ((m.store id key value).followKeys text keys root).outcome = .ok (.object id) :=
    (followKeys_store howned hid (hacyclic.not_mem_lookups hfound key)).trans hfound
  have hlast : (m.store id key value).get? id key = some value := (get?_store howned hid value id key).trans (if_pos rfl)
  rw [followKeys_append hparents]
  exact followKeys_outcome_some hlast text []

end Stored

end DataBinding.Model
