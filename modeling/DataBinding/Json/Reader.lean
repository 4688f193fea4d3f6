import DataBinding.Json.Written

/-!
# Reading JSON

A reader of strict JSON. Space, tab, line feed and carriage return are the only characters allowed
between tokens, and the text is read to its end. Every reader takes the text that is left and gives
back what it read and the text after that; `Json.Written.read?` is the whole of it, and `Json.parse?`
goes on to the document that the text means.
-/

set_option autoImplicit false

namespace DataBinding.Json

/-- The text after the white space that JSON allows between tokens. -/
def skipSpace (text : List Char) : List Char :=
  text.dropWhile fun c => c == ' ' || c == '\t' || c == '\n' || c == '\r'

/-- The value of a hexadecimal digit. -/
def hexDigit? (c : Char) : Option Nat :=
  if '0' ≤ c ∧ c ≤ '9' then some (c.toNat - '0'.toNat)
  else if 'a' ≤ c ∧ c ≤ 'f' then some (c.toNat - 'a'.toNat + 10)
  else if 'A' ≤ c ∧ c ≤ 'F' then some (c.toNat - 'A'.toNat + 10)
  else none

/-- The character that a short escape stands for. -/
def shortEscape? : Char → Option Char
  | '"' => some '"'
  | '\\' => some '\\'
  | '/' => some '/'
  | 'b' => some '\x08'
  | 'f' => some '\x0c'
  | 'n' => some '\n'
  | 'r' => some '\r'
  | 't' => some '\t'
  | _ => none

/-- The code of the four hexadecimal digits of a long escape. -/
def hexCode? (a b c d : Char) : Option Nat := do
  some (4096 * (← hexDigit? a) + 256 * (← hexDigit? b) + 16 * (← hexDigit? c) + (← hexDigit? d))

/-- The codes of the characters of a string, up to its closing quote, and the text after the quote. -/
def readCodes : List Char → Option (List Nat × List Char)
  | [] => none
  | '"' :: rest => some ([], rest)
  | '\\' :: 'u' :: a :: b :: c :: d :: rest => do
    let code ← hexCode? a b c d
    let (codes, after) ← readCodes rest
    some (code :: codes, after)
  | '\\' :: c :: rest => do
    let escaped ← shortEscape? c
    let (codes, after) ← readCodes rest
    some (escaped.toNat :: codes, after)
  | c :: rest =>
    if c < ' ' then none
    else (readCodes rest).map fun (codes, after) => (c.toNat :: codes, after)

/-- The characters of a list of codes: a high surrogate and a low one that follow each other are one
character, and a surrogate that stands alone is none. -/
def joinSurrogates : List Nat → Option (List Char)
  | [] => some []
  | [code] => if 0xD800 ≤ code ∧ code ≤ 0xDFFF then none else some [Char.ofNat code]
  | high :: low :: rest =>
    if 0xD800 ≤ high ∧ high ≤ 0xDBFF ∧ 0xDC00 ≤ low ∧ low ≤ 0xDFFF then
      (joinSurrogates rest).map (Char.ofNat (0x10000 + (high - 0xD800) * 0x400 + (low - 0xDC00)) :: ·)
    else if 0xD800 ≤ high ∧ high ≤ 0xDFFF then none
    else (joinSurrogates (low :: rest)).map (Char.ofNat high :: ·)

/-- A string after its opening quote. -/
def readString (text : List Char) : Option (Option String × List Char) :=
  (readCodes text).map fun (codes, after) => ((joinSurrogates codes).map String.ofList, after)

/-- The number that a list of decimal digits stands for, after a number that is already read. -/
def digitsValue (before : Nat) (digits : List Char) : Nat :=
  digits.foldl (fun n c => 10 * n + (c.toNat - '0'.toNat)) before

/-- The decimal digits that a text starts with, and the text after them. -/
def splitDigits (text : List Char) : List Char × List Char :=
  (text.takeWhile Char.isDigit, text.dropWhile Char.isDigit)

/-- The digits of a fraction, if the text starts with one. A point needs a digit after it. -/
def readFraction : List Char → Option (List Char × List Char)
  | '.' :: rest =>
    match splitDigits rest with
    | ([], _) => none
    | (digits, after) => some (digits, after)
  | text => some ([], text)

/-- The digits of an exponent after its letter and its sign. There must be one at least. -/
def readExponentDigits (negative : Bool) (text : List Char) : Option (Option Int × List Char) :=
  match splitDigits text with
  | ([], _) => none
  | (digits, after) =>
    let size : Int := digitsValue 0 digits
    some (some (if negative then -size else size), after)

/-- An exponent, if the text starts with one. -/
def readExponent : List Char → Option (Option Int × List Char)
  | c :: rest =>
    if c = 'e' ∨ c = 'E' then
      match rest with
      | '-' :: digits => readExponentDigits true digits
      | '+' :: digits => readExponentDigits false digits
      | digits => readExponentDigits false digits
    else some (none, c :: rest)
  | [] => some (none, [])

/-- A number after its sign. A zero at the front is followed by no other digit. -/
def readNumber (negative : Bool) (text : List Char) : Option (WrittenNumber × List Char) := do
  let (whole, afterWhole) ← match text with
    | '0' :: rest => some (['0'], rest)
    | _ => match splitDigits text with
      | ([], _) => none
      | found => some found
  let (fraction, afterFraction) ← readFraction afterWhole
  let (exponent, after) ← readExponent afterFraction
  let decimal : Decimal := {
    coefficient := digitsValue (digitsValue 0 whole) fraction
    exponent := exponent.getD 0 - fraction.length }
  some (⟨negative, decimal, fraction.isEmpty && exponent.isNone⟩, after)

mutual

/-- A value and the text after it. The first argument bounds the work. -/
def readValue : Nat → List Char → Option (Written × List Char)
  | 0, _ => none
  | bound + 1, text =>
    match skipSpace text with
    | '"' :: rest => (readString rest).map fun (text, after) => (.string text, after)
    | '[' :: rest =>
      match skipSpace rest with
      | ']' :: after => some (.array [], after)
      | _ => (readItems bound rest).map fun (items, after) => (.array items, after)
    | '{' :: rest =>
      match skipSpace rest with
      | '}' :: after => some (.object [], after)
      | _ => (readMembers bound rest).map fun (members, after) => (.object members, after)
    | 'n' :: 'u' :: 'l' :: 'l' :: after => some (.null, after)
    | 't' :: 'r' :: 'u' :: 'e' :: after => some (.bool true, after)
    | 'f' :: 'a' :: 'l' :: 's' :: 'e' :: after => some (.bool false, after)
    | '-' :: rest => (readNumber true rest).map fun (n, after) => (.number n, after)
    | rest => (readNumber false rest).map fun (n, after) => (.number n, after)

/-- One item or more, up to the closing bracket, and the text after it. -/
def readItems : Nat → List Char → Option (List Written × List Char)
  | 0, _ => none
  | bound + 1, text => do
    let (item, rest) ← readValue bound text
    match skipSpace rest with
    | ',' :: more =>
      let (items, after) ← readItems bound more
      some (item :: items, after)
    | ']' :: after => some ([item], after)
    | _ => none

/-- One member or more, up to the closing brace, and the text after it. -/
def readMembers : Nat → List Char → Option (List (Option String × Written) × List Char)
  | 0, _ => none
  | bound + 1, text => do
    let (key, afterKey) ← match skipSpace text with
      | '"' :: rest => readString rest
      | _ => none
    let value ← match skipSpace afterKey with
      | ':' :: rest => some rest
      | _ => none
    let (value, rest) ← readValue bound value
    match skipSpace rest with
    | ',' :: more =>
      let (members, after) ← readMembers bound more
      some ((key, value) :: members, after)
    | '}' :: after => some ([(key, value)], after)
    | _ => none

end

/-- Reads a whole text. Each step of the readers takes a character or is followed by one that does, so
twice the length of the text bounds the work. -/
def Written.read? (text : List Char) : Option Written := do
  let (value, rest) ← readValue (2 * text.length + 2) text
  if (skipSpace rest).isEmpty then some value else none

/-- How deep the containers of a document may nest in a text. -/
def nestingLimit : Nat := 127

/-- The document of a text. -/
def parse? (text : String) : Option Json :=
  (Written.read? text.toList).bind (Written.toJson? nestingLimit)

end DataBinding.Json
