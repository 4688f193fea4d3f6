import DataBinding.Config
import DataBinding.Path
import DataBinding.Text.Search

/-!
# Templates

A template is text with bindings in it: paths between an opening and a closing delimiter. The opening
delimiter of a marker is the first one in the text, and its closing delimiter the first one after that.
A marker with nothing between its delimiters binds nothing and is part of the text around it, and so is
an opening delimiter that no closing one follows.
-/

set_option autoImplicit false

namespace DataBinding

/-- The first marker of a text that captures something: what stands before it, the path it captures,
and what follows it. -/
structure Marker where
  before : List Char
  path : List Char
  after : List Char

namespace Marker

/-- The path that a marker captures, from the text between its delimiters. -/
def capture (trimPaths : Bool) (inner : List Char) : List Char :=
  if trimPaths then trim inner else inner

/-- Finds the first marker that captures something. Markers that capture nothing are passed over. -/
def first? (delimiters : Delimiters) (trimPaths : Bool) (text : List Char) : Option Marker :=
  if _ho : delimiters.opening.toList = [] then none
  else if delimiters.closing.toList = [] then none
  else
    match _h : cutAt? delimiters.opening.toList text with
    | none => none
    | some (before, inner) =>
      match _hc : cutAt? delimiters.closing.toList inner with
      | none => none
      | some (captured, after) =>
        if (capture trimPaths captured).isEmpty then
          (first? delimiters trimPaths after).map fun marker =>
            { marker with
              before := before ++ delimiters.opening.toList ++ captured
                ++ delimiters.closing.toList ++ marker.before }
        else some ⟨before, capture trimPaths captured, after⟩
termination_by text.length
decreasing_by
  have h₁ := length_of_cutAt? _h
  have h₂ := length_of_cutAt? _hc
  have h₃ := List.length_pos_iff.2 _ho
  omega

/-- What follows the first marker of a text is shorter than the text, so splitting comes to an end. -/
theorem length_after_of_first? (delimiters : Delimiters) (trimPaths : Bool) (text : List Char)
    {marker : Marker} (h : first? delimiters trimPaths text = some marker) :
    marker.after.length < text.length := by
  fun_induction first? delimiters trimPaths text generalizing marker with
  | case1 => cases h
  | case2 => cases h
  | case3 => cases h
  | case4 => cases h
  | case5 text ho _ before inner hcut captured after hclose _ ih =>
    obtain ⟨m, hm, rfl⟩ := Option.map_eq_some_iff.1 h
    have h₁ := length_of_cutAt? hcut
    have h₂ := length_of_cutAt? hclose
    have h₃ := List.length_pos_iff.2 ho
    have h₄ := ih hm
    simp only
    omega
  | case6 text ho _ before inner hcut captured after hclose _ =>
    obtain rfl := Option.some.inj h
    have h₁ := length_of_cutAt? hcut
    have h₂ := length_of_cutAt? hclose
    have h₃ := List.length_pos_iff.2 ho
    simp only
    omega

end Marker

/-- A part of a template. -/
inductive TemplatePart where
  | literal (text : String)
  | binding (path : Path)
  deriving DecidableEq

/-- Text with bindings in it. -/
structure Template where
  parts : List TemplatePart
  deriving DecidableEq, Inhabited

namespace Template

/-- Whether a text has a marker that captures something. -/
def containsBinding (delimiters : Delimiters) (trimPaths : Bool) (text : List Char) : Bool :=
  (Marker.first? delimiters trimPaths text).isSome

/-- The literal part of a text, or no part if the text is empty. -/
def literalPart (text : List Char) : List TemplatePart :=
  if text.isEmpty then [] else [.literal (String.ofList text)]

/-- Splits a text at its markers. -/
def parseParts (delimiters : Delimiters) (trimPaths : Bool) (text : List Char) :
    Except Error (List TemplatePart) :=
  match _h : Marker.first? delimiters trimPaths text with
  | none => .ok (literalPart text)
  | some marker =>
    match Path.parse (String.ofList marker.path) with
    | .error e => .error e
    | .ok path =>
      (parseParts delimiters trimPaths marker.after).map fun parts =>
        literalPart marker.before ++ .binding path :: parts
termination_by text.length
decreasing_by exact Marker.length_after_of_first? _ _ _ _h

/-- Reads a template. -/
def parse (delimiters : Delimiters) (trimPaths : Bool) (text : String) : Except Error Template :=
  (parseParts delimiters trimPaths text.toList).map fun parts => ⟨parts⟩

/-- The paths of the bindings in their order, repeated ones included. -/
def paths (template : Template) : List Path :=
  template.parts.filterMap fun
    | .literal _ => none
    | .binding path => some path

end Template

end DataBinding
