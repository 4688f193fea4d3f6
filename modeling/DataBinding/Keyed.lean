/-!
# Keyed lists

Attributes, members of a JSON object and fields of a model object are lists of keyed entries in the
order in which their keys first came. `Keyed.put` is the only way in which they grow: a key that is
present keeps its place, and a new one comes last.
-/

set_option autoImplicit false

namespace DataBinding.Keyed

variable {β : Type}

/-- The first entry with a key. -/
def get? (key : String) : List (String × β) → Option β
  | [] => none
  | (k, b) :: rest => if k = key then some b else get? key rest

/-- Sets the entry of a key in its place, or adds it at the end. -/
def put (key : String) (value : β) : List (String × β) → List (String × β)
  | [] => [(key, value)]
  | (k, b) :: rest => if k = key then (k, value) :: rest else (k, b) :: put key value rest

/-- A key that is stored is found with its new value, and every other key as before. -/
theorem get?_put (key other : String) (value : β) (entries : List (String × β)) :
    get? other (put key value entries) = if key = other then some value else get? other entries := by
  induction entries with
  | nil => simp [put, get?]
  | cons entry rest ih =>
    obtain ⟨k, b⟩ := entry
    unfold put
    split
    · next h => subst h; simp only [get?]; split <;> rfl
    · next h =>
      simp only [get?, ih]
      split
      · next hk => subst hk; simp [Ne.symm h]
      · rfl

/-- The keys after a write: the same ones, and a new one at the end. -/
theorem map_fst_put (key : String) (value : β) (entries : List (String × β)) :
    (put key value entries).map Prod.fst =
      if key ∈ entries.map Prod.fst then entries.map Prod.fst
      else entries.map Prod.fst ++ [key] := by
  induction entries with
  | nil => simp [put]
  | cons entry rest ih =>
    obtain ⟨k, b⟩ := entry
    unfold put
    split
    · next h => simp [h]
    · next h =>
      simp only [List.map_cons, ih, List.mem_cons, Ne.symm h, false_or]
      split <;> rfl

end DataBinding.Keyed
