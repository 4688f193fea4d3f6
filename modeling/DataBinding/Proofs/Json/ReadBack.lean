import DataBinding.Json.Printer
import DataBinding.Json.Reader

/-!
# Reading what was written

The text of a document without numbers is read back as it was written. A string is read back whatever
characters it has: `readCodes_escaped` takes one escaped character after the other, and as a character is never
half of a surrogate pair, `joinSurrogates` takes the codes one by one. The readers of values, items and members
are given enough work by twice the length of the text.
-/

set_option autoImplicit false

namespace DataBinding.Json

/-! ## Strings -/

/-- A character that needs no escape is read as it stands. -/
theorem readCodes_plain {c : Char} (hquote : c ≠ '"') (hslash : c ≠ '\\') (hspace : ¬ c < ' ')
    (rest : List Char) :
    readCodes (c :: rest) = (readCodes rest).map fun (codes, after) => (c.toNat :: codes, after) := by
  rw [readCodes.eq_def]
  split
  · next heq => cases heq
  · next heq => exact absurd (List.cons.inj heq).1 hquote
  · next heq => exact absurd (List.cons.inj heq).1 hslash
  · next heq => exact absurd (List.cons.inj heq).1 hslash
  · next heq =>
    obtain ⟨rfl, rfl⟩ := List.cons.inj heq
    exact if_neg hspace

/-- A short escape is read as the one character that it stands for. -/
theorem readCodes_short {c escaped : Char} (hother : c ≠ 'u') (hescape : shortEscape? c = some escaped)
    (rest : List Char) :
    readCodes ('\\' :: c :: rest) =
      (readCodes rest).map fun (codes, after) => (escaped.toNat :: codes, after) := by
  rw [readCodes.eq_def]
  split
  · next heq => cases heq
  · next heq => cases heq
  · next heq => exact absurd (List.cons.inj (List.cons.inj heq).2).1 hother
  · next heq =>
    obtain ⟨rfl, rfl⟩ := List.cons.inj (List.cons.inj heq).2
    rw [hescape]
    cases readCodes rest <;> rfl
  · next hno heq =>
    obtain ⟨hslash, hrest⟩ := List.cons.inj heq
    exact absurd hrest.symm (hno _ _ hslash.symm)

/-- Every hexadecimal digit is read back from its character. -/
theorem hexDigit?_hexChar : ∀ n < 16, hexDigit? (hexChar n) = some n := by decide

/-- A control character is read back from its escape of four digits. -/
theorem readCodes_control {c : Char} (hcontrol : c < ' ') (rest : List Char) :
    readCodes ('\\' :: 'u' :: '0' :: '0' :: hexChar (c.toNat / 16) :: hexChar (c.toNat % 16) :: rest) =
      (readCodes rest).map fun (codes, after) => (c.toNat :: codes, after) := by
  have hlt : c.toNat < 32 := hcontrol
  have hcode : hexCode? '0' '0' (hexChar (c.toNat / 16)) (hexChar (c.toNat % 16)) = some c.toNat := by
    have hzero : hexDigit? '0' = some 0 := by decide
    rw [hexCode?, hzero, hexDigit?_hexChar _ (by omega), hexDigit?_hexChar _ (by omega)]
    simp only [Option.bind_eq_bind, Option.bind_some, Option.some.injEq]
    omega
  rw [readCodes, hcode]
  cases readCodes rest <;> rfl

/-- How a character stands in a string: with a short escape, with a long one, or as it is. -/
theorem escapeChar_cases (c : Char) :
    (∃ letter, letter ≠ 'u' ∧ shortEscape? letter = some c ∧ escapeChar c = ['\\', letter]) ∨
    (c < ' ' ∧ escapeChar c =
      ['\\', 'u', '0', '0', hexChar (c.toNat / 16), hexChar (c.toNat % 16)]) ∨
    (c ≠ '"' ∧ c ≠ '\\' ∧ ¬ c < ' ' ∧ escapeChar c = [c]) := by
  unfold escapeChar
  split
  · next h => exact .inl ⟨'"', by decide, by rw [h]; rfl, rfl⟩
  split
  · next h => exact .inl ⟨'\\', by decide, by rw [h]; rfl, rfl⟩
  split
  · next h => exact .inl ⟨'b', by decide, by rw [h]; rfl, rfl⟩
  split
  · next h => exact .inl ⟨'f', by decide, by rw [h]; rfl, rfl⟩
  split
  · next h => exact .inl ⟨'n', by decide, by rw [h]; rfl, rfl⟩
  split
  · next h => exact .inl ⟨'r', by decide, by rw [h]; rfl, rfl⟩
  split
  · next h => exact .inl ⟨'t', by decide, by rw [h]; rfl, rfl⟩
  split
  · next h => exact .inr (.inl ⟨h, rfl⟩)
  · next hquote hslash _ _ _ _ _ hspace => exact .inr (.inr ⟨hquote, hslash, hspace, rfl⟩)

/-- One escaped character is read as the character. -/
theorem readCodes_escapeChar (c : Char) (rest : List Char) :
    readCodes (escapeChar c ++ rest) =
      (readCodes rest).map fun (codes, after) => (c.toNat :: codes, after) := by
  rcases escapeChar_cases c with ⟨letter, hother, hshort, h⟩ | ⟨hcontrol, h⟩ | ⟨hquote, hslash, hspace, h⟩
  · rw [h]
    exact readCodes_short hother hshort rest
  · rw [h]
    exact readCodes_control hcontrol rest
  · rw [h]
    exact readCodes_plain hquote hslash hspace rest

/-- The escaped characters of a text are read back up to the closing quote. -/
theorem readCodes_escaped (text rest : List Char) :
    readCodes (text.flatMap escapeChar ++ '"' :: rest) = some (text.map Char.toNat, rest) := by
  induction text with
  | nil => rfl
  | cons c text ih => rw [List.flatMap_cons, List.append_assoc, readCodes_escapeChar, ih]; rfl

/-- A character is not half of a surrogate pair. -/
theorem not_surrogate (c : Char) : ¬ (0xD800 ≤ c.toNat ∧ c.toNat ≤ 0xDFFF) := by
  have hvalid : c.toNat < 0xd800 ∨ 0xdfff < c.toNat ∧ c.toNat < 0x110000 := c.valid
  omega

/-- Characters have no surrogate codes, so joining surrogates leaves a text as it is. -/
theorem joinSurrogates_toNat (text : List Char) :
    joinSurrogates (text.map Char.toNat) = some text := by
  induction text with
  | nil => rfl
  | cons c text ih =>
    have hc := not_surrogate c
    cases text with
    | nil =>
      rw [List.map_singleton, joinSurrogates, if_neg hc, Char.ofNat_toNat]
    | cons d text =>
      rw [List.map_cons] at ih ⊢
      rw [List.map_cons, joinSurrogates, if_neg (by omega), if_neg hc, ih, Option.map_some,
        Char.ofNat_toNat]

/-- A string is read back. -/
theorem readString_escaped (text : String) (rest : List Char) :
    readString (text.toList.flatMap escapeChar ++ '"' :: rest) = some (some text, rest) := by
  rw [readString, readCodes_escaped, Option.map_some]
  simp only [joinSurrogates_toNat, Option.map_some, String.ofList_toList]

/-- A quoted text in front of another one ends with its own quote. -/
theorem quote_append (text : String) (rest : List Char) :
    quote text ++ rest = '"' :: (text.toList.flatMap escapeChar ++ '"' :: rest) := by
  simp [quote]

/-! ## Documents without numbers -/

/-- A document that has no numbers in it. -/
inductive NumberFree : Json → Prop where
  | null : NumberFree .null
  | bool (value : Bool) : NumberFree (.bool value)
  | string (text : String) : NumberFree (.string text)
  | array {items : List Json} (hitems : ∀ item ∈ items, NumberFree item) : NumberFree (.array items)
  | object {members : List (String × Json)} (hmembers : ∀ member ∈ members, NumberFree member.2) :
      NumberFree (.object members)

/-- Where no space stands, none is skipped. -/
theorem skipSpace_cons {c : Char} (hc : (c == ' ' || c == '\t' || c == '\n' || c == '\r') = false)
    (rest : List Char) : skipSpace (c :: rest) = c :: rest := by
  rw [skipSpace, List.dropWhile_cons_of_neg (by simp [hc])]

/-- The text of a value without numbers starts with a character that is neither a space nor a bracket or a
brace that closes. -/
theorem exists_write_eq_cons {j : Json} (h : NumberFree j) : ∃ c text, write j = c :: text ∧
    (∀ rest, skipSpace (c :: rest) = c :: rest) ∧ c ≠ ']' := by
  have hstart : ∀ c : Char, (c == ' ' || c == '\t' || c == '\n' || c == '\r') = false → c ≠ ']' →
      (∀ rest, skipSpace (c :: rest) = c :: rest) ∧ c ≠ ']' := fun c hc hne => ⟨skipSpace_cons hc, hne⟩
  cases h with
  | null => exact ⟨'n', _, rfl, hstart 'n' (by decide) (by decide)⟩
  | bool value =>
    cases value with
    | false => exact ⟨'f', _, rfl, hstart 'f' (by decide) (by decide)⟩
    | true => exact ⟨'t', _, rfl, hstart 't' (by decide) (by decide)⟩
  | string text => exact ⟨'"', _, rfl, hstart '"' (by decide) (by decide)⟩
  | array _ => exact ⟨'[', _, rfl, hstart '[' (by decide) (by decide)⟩
  | object _ => exact ⟨'\x7b', _, rfl, hstart '\x7b' (by decide) (by decide)⟩

/-- A document is written with at least one character. -/
theorem length_write_pos {j : Json} (h : NumberFree j) : 0 < (write j).length := by
  obtain ⟨c, text, hwrite, -⟩ := exists_write_eq_cons h
  rw [hwrite, List.length_cons]
  exact Nat.succ_pos _

section Steps

variable {bound : Nat} {text rest : List Char} {value : Written}

/-- A string is read back from its quoted text. -/
theorem readValue_string (text : String) (rest : List Char) :
    readValue (bound + 1) (quote text ++ rest) = some (.string (some text), rest) := by
  rw [quote_append, readValue, skipSpace_cons (by decide)]
  simp only [readString_escaped, Option.map_some]

/-- The last item of an array. -/
theorem readItems_last (h : readValue bound text = some (value, ']' :: rest)) :
    readItems (bound + 1) text = some ([value], rest) := by
  rw [readItems, h]
  simp only [Option.bind_eq_bind, Option.bind_some, skipSpace_cons (c := ']') (by decide)]

/-- An item of an array that others follow. -/
theorem readItems_more (h : readValue bound text = some (value, ',' :: rest)) :
    readItems (bound + 1) text = (readItems bound rest).map fun (items, after) => (value :: items, after) := by
  rw [readItems, h]
  simp only [Option.bind_eq_bind, Option.bind_some, skipSpace_cons (c := ',') (by decide)]
  cases readItems bound rest <;> rfl

/-- The last member of an object. -/
theorem readMembers_last {key : String} (h : readValue bound text = some (value, '\x7d' :: rest)) :
    readMembers (bound + 1) (quote key ++ ':' :: text) = some ([(some key, value)], rest) := by
  rw [quote_append, readMembers, skipSpace_cons (by decide)]
  simp only [readString_escaped, Option.bind_eq_bind, Option.bind_some,
    skipSpace_cons (c := ':') (by decide), h, skipSpace_cons (c := '\x7d') (by decide)]

/-- A member of an object that others follow. -/
theorem readMembers_more {key : String} (h : readValue bound text = some (value, ',' :: rest)) :
    readMembers (bound + 1) (quote key ++ ':' :: text) =
      (readMembers bound rest).map fun (members, after) => ((some key, value) :: members, after) := by
  rw [quote_append, readMembers, skipSpace_cons (by decide)]
  simp only [readString_escaped, Option.bind_eq_bind, Option.bind_some,
    skipSpace_cons (c := ':') (by decide), h, skipSpace_cons (c := ',') (by decide)]
  cases readMembers bound rest <;> rfl

end Steps

/-- A value is read back from its text, whatever follows it. -/
def ReadsBack (j : Json) : Prop :=
  ∀ {bound : Nat} (rest : List Char), 2 * (write j).length ≤ bound + 1 →
    readValue (bound + 1) (write j ++ rest) = some (toWritten j, rest)

/-- The items of an array are read back up to the closing bracket. The induction is on the items, and the
bound pays for each of them. -/
theorem readItems_write {item : Json} {items : List Json}
    (hitems : ∀ other ∈ item :: items, NumberFree other ∧ ReadsBack other) {bound : Nat} (rest : List Char)
    (hbound : 2 * (writeItems (item :: items)).length ≤ bound) :
    readItems (bound + 1) (writeItems (item :: items) ++ ']' :: rest) =
      some (itemsToWritten (item :: items), rest) := by
  induction items generalizing item bound with
  | nil =>
    obtain ⟨hfree, hitem⟩ := hitems item List.mem_cons_self
    have hpos := length_write_pos hfree
    rw [writeItems] at hbound ⊢
    obtain ⟨bound, rfl⟩ : ∃ b, bound = b + 1 := ⟨bound - 1, by omega⟩
    exact readItems_last (hitem _ (by omega))
  | cons next items ih =>
    obtain ⟨⟨-, hitem⟩, hothers⟩ := List.forall_mem_cons.1 hitems
    rw [writeItems, List.length_append, List.length_cons] at hbound
    obtain ⟨bound, rfl⟩ : ∃ b, bound = b + 1 := ⟨bound - 1, by omega⟩
    rw [writeItems, List.append_assoc, List.cons_append, readItems_more (hitem _ (by omega)),
      ih hothers (by omega)]
    rfl

/-- The members of an object are read back up to the closing brace, by induction on the members. -/
theorem readMembers_write {member : String × Json} {members : List (String × Json)}
    (hmembers : ∀ other ∈ member :: members, ReadsBack other.2) {bound : Nat} (rest : List Char)
    (hbound : 2 * (writeMembers (member :: members)).length ≤ bound) :
    readMembers (bound + 1) (writeMembers (member :: members) ++ '\x7d' :: rest) =
      some (membersToWritten (member :: members), rest) := by
  induction members generalizing member bound with
  | nil =>
    obtain ⟨key, value⟩ := member
    have hvalue : ReadsBack value := hmembers (key, value) List.mem_cons_self
    rw [writeMembers, List.length_append, List.length_cons] at hbound
    obtain ⟨bound, rfl⟩ : ∃ b, bound = b + 1 := ⟨bound - 1, by omega⟩
    rw [writeMembers, List.append_assoc, List.cons_append]
    exact readMembers_last (hvalue _ (by omega))
  | cons next members ih =>
    obtain ⟨key, value⟩ := member
    have hvalue : ReadsBack value := hmembers (key, value) List.mem_cons_self
    have hothers := (List.forall_mem_cons.1 hmembers).2
    rw [writeMembers, List.length_append, List.length_cons, List.length_append, List.length_cons] at hbound
    obtain ⟨bound, rfl⟩ : ∃ b, bound = b + 1 := ⟨bound - 1, by omega⟩
    rw [writeMembers, List.append_assoc, List.cons_append, List.append_assoc, List.cons_append,
      readMembers_more (hvalue _ (by omega)), ih hothers (by omega)]
    rfl

/-- An array is read back if all of its items are. -/
theorem readsBack_array {items : List Json} (hitems : ∀ item ∈ items, NumberFree item ∧ ReadsBack item) :
    ReadsBack (.array items) := by
  intro bound rest hbound
  rw [write, List.cons_append, List.append_assoc, List.singleton_append, readValue,
    skipSpace_cons (by decide)]
  cases items with
  | nil =>
    rw [writeItems, List.nil_append]
    simp only [skipSpace_cons (c := ']') (by decide)]
    rfl
  | cons item items =>
    have hlength : (write (.array (item :: items))).length = (writeItems (item :: items)).length + 2 := by
      rw [write, List.length_cons, List.length_append, List.length_singleton]
    obtain ⟨bound, rfl⟩ : ∃ b, bound = b + 1 := ⟨bound - 1, by omega⟩
    have hfits : 2 * (writeItems (item :: items)).length ≤ bound := by omega
    have hread := readItems_write hitems rest hfits
    -- The text of the first item does not start with the closing bracket.
    obtain ⟨c, text, hwrite, hskip, hne⟩ := exists_write_eq_cons (hitems item List.mem_cons_self).1
    obtain ⟨more, hmore⟩ : ∃ more, writeItems (item :: items) = c :: more := by
      cases items with
      | nil => exact ⟨text, hwrite⟩
      | cons next items =>
        rw [writeItems, hwrite]
        exact ⟨_, rfl⟩
    rw [hmore, List.cons_append] at hread ⊢
    simp only [hskip]
    split
    · next heq => exact absurd (List.cons.inj heq).1 hne
    · rw [hread]
      rfl

/-- An object is read back if the values of all of its members are. -/
theorem readsBack_object {members : List (String × Json)}
    (hmembers : ∀ member ∈ members, ReadsBack member.2) : ReadsBack (.object members) := by
  intro bound rest hbound
  rw [write, List.cons_append, List.append_assoc, List.singleton_append, readValue,
    skipSpace_cons (by decide)]
  cases members with
  | nil =>
    rw [writeMembers, List.nil_append]
    simp only [skipSpace_cons (c := '\x7d') (by decide)]
    rfl
  | cons member members =>
    have hlength : (write (.object (member :: members))).length =
        (writeMembers (member :: members)).length + 2 := by
      rw [write, List.length_cons, List.length_append, List.length_singleton]
    obtain ⟨bound, rfl⟩ : ∃ b, bound = b + 1 := ⟨bound - 1, by omega⟩
    have hfits : 2 * (writeMembers (member :: members)).length ≤ bound := by omega
    have hread := readMembers_write hmembers rest hfits
    obtain ⟨more, hmore⟩ : ∃ more, writeMembers (member :: members) = '"' :: more := by
      cases members with
      | nil => exact ⟨_, rfl⟩
      | cons next members => exact ⟨_, rfl⟩
    rw [hmore, List.cons_append] at hread ⊢
    simp only [skipSpace_cons (c := '"') (by decide), hread]
    rfl

/-- Every document without numbers is read back, by induction on the document. -/
theorem NumberFree.readsBack {j : Json} (h : NumberFree j) : ReadsBack j := by
  induction h with
  | null =>
    intro bound rest _
    have hskip : skipSpace ("null".toList ++ rest) = 'n' :: 'u' :: 'l' :: 'l' :: rest :=
      skipSpace_cons (by decide) _
    rw [write, readValue, hskip]
    rfl
  | bool value =>
    intro bound rest _
    cases value with
    | false =>
      have hskip : skipSpace ("false".toList ++ rest) = 'f' :: 'a' :: 'l' :: 's' :: 'e' :: rest :=
        skipSpace_cons (by decide) _
      rw [write, readValue, hskip]
      rfl
    | true =>
      have hskip : skipSpace ("true".toList ++ rest) = 't' :: 'r' :: 'u' :: 'e' :: rest :=
        skipSpace_cons (by decide) _
      rw [write, readValue, hskip]
      rfl
  | string text =>
    intro bound rest _
    exact readValue_string text rest
  | array hitems ih => exact readsBack_array fun item hitem => ⟨hitems item hitem, ih item hitem⟩
  | object _ ih => exact readsBack_object ih

/-- The text of a document without numbers is read as the document would be written. -/
theorem read?_write {j : Json} (h : NumberFree j) : Written.read? j.write = some (toWritten j) := by
  have hfits : 2 * j.write.length ≤ 2 * j.write.length + 1 + 1 := by omega
  have hread := h.readsBack [] hfits
  rw [List.append_nil] at hread
  rw [Written.read?, hread]
  rfl

end DataBinding.Json
