/-!
# Finding and replacing text

The first occurrence of one text in another, and the replacement of every occurrence, read from the
left and never overlapping.
-/

set_option autoImplicit false

namespace DataBinding

/-- What stands before and after the first occurrence of `needle`. -/
def cutAt? (needle : List Char) : List Char → Option (List Char × List Char)
  | [] => if needle.isEmpty then some ([], []) else none
  | c :: rest =>
    match needle.isPrefixOf? (c :: rest) with
    | some after => some ([], after)
    | none => (cutAt? needle rest).map fun (before, after) => (c :: before, after)

/-- What is left after a start, put after that start, is the text. -/
theorem eq_append_of_isPrefixOf? {start text after : List Char}
    (h : start.isPrefixOf? text = some after) : text = start ++ after := by
  induction start generalizing text with
  | nil => exact Option.some.inj h
  | cons c start ih =>
    cases text with
    | nil => cases h
    | cons d text =>
      change (if c == d then start.isPrefixOf? text else none) = some after at h
      split at h
      · next hcd => rw [ih h, eq_of_beq hcd]; rfl
      · cases h

/-- The pieces around the first occurrence make up the text. -/
theorem eq_append_of_cutAt? {needle text before after : List Char}
    (h : cutAt? needle text = some (before, after)) : text = before ++ (needle ++ after) := by
  induction text generalizing before with
  | nil =>
    unfold cutAt? at h
    split at h
    · next he =>
      obtain ⟨rfl, rfl⟩ := Prod.mk.inj (Option.some.inj h)
      simpa using he
    · cases h
  | cons c rest ih =>
    unfold cutAt? at h
    split at h
    · next after' hp =>
      obtain ⟨rfl, rfl⟩ := Prod.mk.inj (Option.some.inj h)
      simpa using eq_append_of_isPrefixOf? hp
    · obtain ⟨⟨before', after'⟩, hcut, heq⟩ := Option.map_eq_some_iff.1 h
      obtain ⟨rfl, rfl⟩ := Prod.mk.inj heq
      rw [ih hcut]
      rfl

/-- What follows an occurrence is shorter than the text by the length of the needle at least. -/
theorem length_of_cutAt? {needle text before after : List Char}
    (h : cutAt? needle text = some (before, after)) :
    after.length + needle.length ≤ text.length := by
  rw [eq_append_of_cutAt? h]
  simp only [List.length_append]
  omega

/-- Replaces every occurrence of `needle` after the first `skip` characters, which are dropped. -/
def replaceFrom (needle replacement : List Char) : Nat → List Char → List Char
  | _, [] => []
  | skip + 1, _ :: rest => replaceFrom needle replacement skip rest
  | 0, c :: rest =>
    if needle.isPrefixOf (c :: rest) then
      replacement ++ replaceFrom needle replacement (needle.length - 1) rest
    else c :: replaceFrom needle replacement 0 rest

/-- Replaces every occurrence of a text that is not empty, from the left. -/
def replaceAll (needle replacement text : List Char) : List Char :=
  replaceFrom needle replacement 0 text

end DataBinding
