import DataBinding.Text.Blank
import DataBinding.Text.Search

/-!
# Tokens of markup

A markup text is a sequence of comments, closing tags, opening tags and runs of text. A `<` that does
not start a tag or a comment is text. Each kind of token has a scanner of its own, which takes the text
that is left and gives back the token and the text after it, or the text at the point where it gave up.
The point of failure of a whole text is the furthest of these points at the place where no scanner
succeeds.
-/

set_option autoImplicit false

namespace DataBinding.Markup

/-- A token, in the words of its text. -/
inductive Token where
  | opening (name : List Char) (attributes : List (List Char × List Char)) (selfClosing : Bool)
  | closing (name : List Char)
  | comment (body : List Char)
  | text (content : List Char)
  deriving DecidableEq, Inhabited

/-- A token and the stretch of text that it was read from. -/
structure Lexeme where
  source : List Char
  token : Token
  deriving DecidableEq

/-- What a scanner gives back: a result and the text after it, or the text where it gave up. -/
abbrev Scan (α : Type) : Type := Except (List Char) (α × List Char)

/-- Whether a character can start the name of a tag. -/
def isAsciiLetter (c : Char) : Bool := ('a' ≤ c && c ≤ 'z') || ('A' ≤ c && c ≤ 'Z')

/-- Whether a character can stand in the name of a tag after its start. -/
def isTagChar (c : Char) : Bool := isAsciiLetter c || ('0' ≤ c && c ≤ '9') || c == '-' || c == ':'

/-- Whether a character is one of the four that separate attributes. -/
def isSpace (c : Char) : Bool := c == ' ' || c == '\t' || c == '\r' || c == '\n'

/-- Whether a character can stand in the name of an attribute. -/
def isNameChar (c : Char) : Bool :=
  !(isSpace c || c == '=' || c == '>' || c == '/' || c == '"' || c == '\'')

/-- Whether a character can stand in a value without quotes. -/
def isBareChar (c : Char) : Bool := !(isSpace c || c == '>' || c == '"' || c == '\'')

/-- The text after an expected one, or the text from the first character that differs. -/
def expect : List Char → List Char → Except (List Char) (List Char)
  | [], text => .ok text
  | _ :: _, [] => .error []
  | c :: expected, d :: text => if c = d then expect expected text else .error (d :: text)

/-- What stands before the next quote of a kind, and the text after it. -/
def scanQuoted (quote : Char) (text : List Char) : Scan (List Char) :=
  match text.dropWhile (· != quote) with
  | [] => .error []
  | _ :: after => .ok (text.takeWhile (· != quote), after)

/-- The value of an attribute after its name: empty if no equals sign follows. -/
def scanValue (text : List Char) : Scan (List Char) :=
  match text.dropWhile isBlank with
  | '=' :: rest =>
    match rest.dropWhile isBlank with
    | '"' :: inner => scanQuoted '"' inner
    | '\'' :: inner => scanQuoted '\'' inner
    | bare => .ok (bare.takeWhile isBareChar, bare.dropWhile isBareChar)
  | _ => .ok ([], text)

/-- Dropping a run of characters does not make a text longer. -/
theorem length_dropWhile_le {α : Type} (p : α → Bool) (l : List α) :
    (l.dropWhile p).length ≤ l.length :=
  (List.dropWhile_sublist p).length_le

/-- Reading a quoted value does not make a text longer. -/
theorem length_of_scanQuoted {quote : Char} {text value after : List Char}
    (h : scanQuoted quote text = .ok (value, after)) : after.length ≤ text.length := by
  unfold scanQuoted at h
  split at h
  · cases h
  · next c rest hdrop =>
    cases h
    have hlen := length_dropWhile_le (· != quote) text
    rw [hdrop, List.length_cons] at hlen
    omega

/-- Reading the value of an attribute, which may be missing, does not make a text longer. -/
theorem length_of_scanValue {text value after : List Char}
    (h : scanValue text = .ok (value, after)) : after.length ≤ text.length := by
  unfold scanValue at h
  split at h
  · next rest hdrop =>
    have h₁ := length_dropWhile_le isBlank text
    rw [hdrop, List.length_cons] at h₁
    have h₂ := length_dropWhile_le isBlank rest
    split at h
    · next inner hinner =>
      have h₃ := length_of_scanQuoted h
      rw [hinner, List.length_cons] at h₂
      omega
    · next inner hinner =>
      have h₃ := length_of_scanQuoted h
      rw [hinner, List.length_cons] at h₂
      omega
    · cases h
      have h₃ := length_dropWhile_le isBareChar (rest.dropWhile isBlank)
      omega
  · cases h
    exact Nat.le_refl _

/-- The attributes of an opening tag, whether it closes itself, and the text after it. -/
def scanAttributes (text : List Char) : Scan (List (List Char × List Char) × Bool) :=
  match _h : text.dropWhile isBlank with
  | '>' :: after => .ok (([], false), after)
  | '/' :: '>' :: after => .ok (([], true), after)
  | '/' :: rest => .error rest
  | spaced =>
    if _hn : spaced.takeWhile isNameChar = [] then .error spaced
    else
      match _hv : scanValue (spaced.dropWhile isNameChar) with
      | .error stop => .error stop
      | .ok (value, rest) =>
        match scanAttributes rest with
        | .error stop => .error stop
        | .ok ((others, selfClosing), after) =>
          .ok (((spaced.takeWhile isNameChar, value) :: others, selfClosing), after)
termination_by text.length
decreasing_by
  have h₁ := length_dropWhile_le isBlank text
  have h₂ := length_of_scanValue _hv
  have h₃ := congrArg List.length (List.takeWhile_append_dropWhile (p := isNameChar) (l := spaced))
  have h₄ := List.length_pos_iff.2 _hn
  rw [List.length_append] at h₃
  rw [_h] at h₁
  omega

/-- A comment. -/
def scanComment (text : List Char) : Scan Token :=
  match expect "<!--".toList text with
  | .error stop => .error stop
  | .ok rest =>
    match cutAt? "-->".toList rest with
    | none => .error []
    | some (body, after) => .ok (.comment body, after)

/-- A closing tag. Its name is everything up to the next `>`, without the blanks around it. -/
def scanClosing (text : List Char) : Scan Token :=
  match expect "</".toList text with
  | .error stop => .error stop
  | .ok rest =>
    match scanQuoted '>' rest with
    | .error stop => .error stop
    | .ok (name, after) => .ok (.closing (trim name), after)

/-- An opening tag. -/
def scanOpening (text : List Char) : Scan Token :=
  match expect "<".toList text with
  | .error stop => .error stop
  | .ok rest =>
    match rest with
    | [] => .error []
    | c :: more =>
      if isAsciiLetter c then
        match scanAttributes (more.dropWhile isTagChar) with
        | .error stop => .error stop
        | .ok ((attributes, selfClosing), after) =>
          .ok (.opening (c :: more.takeWhile isTagChar) attributes selfClosing, after)
      else .error rest

/-- Whether a tag or a comment starts here. -/
def startsTag : List Char → Bool
  | '<' :: '!' :: '-' :: '-' :: _ => true
  | '<' :: '/' :: _ => true
  | '<' :: c :: _ => isAsciiLetter c
  | _ => false

/-- The characters up to the next start of a tag or a comment, and the text from there. -/
def splitAtTag : List Char → List Char × List Char
  | [] => ([], [])
  | c :: rest =>
    if startsTag (c :: rest) then ([], c :: rest)
    else (c :: (splitAtTag rest).1, (splitAtTag rest).2)

/-- A run of text. It is not empty. -/
def scanText (text : List Char) : Scan Token :=
  match splitAtTag text with
  | ([], _) => .error text
  | (content, after) => .ok (.text content, after)

/-- The scanners, in the order in which they are tried. -/
def scanners : List (List Char → Scan Token) := [scanComment, scanClosing, scanOpening, scanText]

/-- The further of two points of failure: the one with less text after it. -/
def further (a b : List Char) : List Char := if b.length < a.length then b else a

/-- The result of the first scanner that succeeds, or the furthest point of failure. -/
def firstSuccess (text stop : List Char) : List (List Char → Scan Token) → Scan Token
  | [] => .error stop
  | scanner :: others =>
    match scanner text with
    | .ok found => .ok found
    | .error failed => firstSuccess text (further stop failed) others

/-- The token at the start of a text. -/
def scanToken (text : List Char) : Scan Token := firstSuccess text text scanners

end DataBinding.Markup
