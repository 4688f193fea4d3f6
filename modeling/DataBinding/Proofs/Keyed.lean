import DataBinding.Keyed

/-!
# Keyed lists

Looking up and storing in keyed lists. A lookup finds the first entry with a key, so in a list with distinct
keys it finds every entry.
-/

set_option autoImplicit false

namespace DataBinding.Keyed

variable {β γ : Type}

/-! ## Looking up -/

/-- A value that is found under a key stands there with that key. -/
theorem mem_of_get? {key : String} {entries : List (String × β)} {b : β}
    (h : get? key entries = some b) : (key, b) ∈ entries := by
  induction entries with
  | nil => cases h
  | cons entry rest ih =>
    obtain ⟨k, c⟩ := entry
    unfold get? at h
    split at h
    · next hkey =>
      cases h
      rw [hkey]
      exact List.mem_cons_self
    · exact List.mem_cons_of_mem _ (ih h)

/-- Nothing is found under a key if and only if no entry has it. -/
theorem get?_eq_none_iff {key : String} {entries : List (String × β)} :
    get? key entries = none ↔ key ∉ entries.map Prod.fst := by
  induction entries with
  | nil => simp [get?]
  | cons entry rest ih =>
    obtain ⟨k, c⟩ := entry
    unfold get?
    by_cases hkey : k = key
    · simp [hkey]
    · simp [hkey, Ne.symm hkey, ih]

/-- Where no key stands twice, every entry is the one that is found under its key. -/
theorem get?_of_mem {key : String} {entries : List (String × β)} {b : β}
    (hnodup : (entries.map Prod.fst).Nodup) (h : (key, b) ∈ entries) : get? key entries = some b := by
  induction entries with
  | nil => cases h
  | cons entry rest ih =>
    obtain ⟨k, c⟩ := entry
    rw [List.map_cons, List.nodup_cons] at hnodup
    unfold get?
    rcases List.mem_cons.1 h with heq | hmem
    · cases heq
      rw [if_pos rfl]
    · have hother : k ≠ key := by
        intro heq
        have hkey : key ∈ rest.map Prod.fst := List.mem_map.2 ⟨_, hmem, rfl⟩
        exact hnodup.1 (heq ▸ hkey)
      rw [if_neg hother]
      exact ih hnodup.2 hmem

/-- Looking up a key commutes with a change of all values. -/
theorem get?_map (f : β → γ) (key : String) (entries : List (String × β)) :
    get? key (entries.map fun entry => (entry.1, f entry.2)) = (get? key entries).map f := by
  induction entries with
  | nil => rfl
  | cons entry rest ih =>
    obtain ⟨k, b⟩ := entry
    rw [List.map_cons]
    unfold get?
    split
    · rfl
    · exact ih

/-! ## Storing -/

/-- Storing what is there changes nothing. -/
theorem put_of_get? {key : String} {entries : List (String × β)} {b : β}
    (h : get? key entries = some b) : put key b entries = entries := by
  induction entries with
  | nil => cases h
  | cons entry rest ih =>
    obtain ⟨k, c⟩ := entry
    unfold get? at h
    unfold put
    split at h
    · next hkey =>
      cases h
      rw [if_pos hkey]
    · next hkey => rw [if_neg hkey, ih h]

/-- A key that is new is put at the end. -/
theorem put_of_not_mem {key : String} {entries : List (String × β)} (h : key ∉ entries.map Prod.fst)
    (value : β) : put key value entries = entries ++ [(key, value)] := by
  induction entries with
  | nil => rfl
  | cons entry rest ih =>
    obtain ⟨k, b⟩ := entry
    simp only [List.map_cons, List.mem_cons, not_or] at h
    rw [put, if_neg (Ne.symm h.1), ih h.2, List.cons_append]

/-- Storing a value does not make a key stand twice. -/
theorem nodup_put {entries : List (String × β)} (h : (entries.map Prod.fst).Nodup) (key : String)
    (value : β) : ((put key value entries).map Prod.fst).Nodup := by
  rw [map_fst_put]
  split
  · exact h
  · next hmem =>
    rw [List.nodup_append]
    refine ⟨h, by simp, ?_⟩
    intro k hk other hother heq
    rw [List.mem_singleton.1 hother] at heq
    exact hmem (heq ▸ hk)

/-- The keys after a value has been stored are its own and those of before. -/
theorem mem_put {key k : String} {entries : List (String × β)} {value : β}
    (h : k ∈ (put key value entries).map Prod.fst) : k = key ∨ k ∈ entries.map Prod.fst := by
  rw [map_fst_put] at h
  split at h
  · exact .inr h
  · rcases List.mem_append.1 h with h | h
    · exact .inr h
    · exact .inl (List.mem_singleton.1 h)

/-- The entries after a value has been stored are the new one and some of those of before. -/
theorem eq_or_mem_of_mem_put {key : String} {entries : List (String × β)} {value : β} {entry : String × β}
    (h : entry ∈ put key value entries) : entry = (key, value) ∨ entry ∈ entries := by
  induction entries with
  | nil => exact .inl (List.mem_singleton.1 h)
  | cons first rest ih =>
    obtain ⟨k, b⟩ := first
    unfold put at h
    split at h
    · next hkey =>
      rcases List.mem_cons.1 h with rfl | h
      · exact .inl (by rw [hkey])
      · exact .inr (List.mem_cons_of_mem _ h)
    · rcases List.mem_cons.1 h with rfl | h
      · exact .inr List.mem_cons_self
      · exact (ih h).imp_right (List.mem_cons_of_mem _)

end DataBinding.Keyed
