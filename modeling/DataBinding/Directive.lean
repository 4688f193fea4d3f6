/-!
# Kinds of directive

A directive is named by the part of an attribute's name that follows the configured marker, up to the
next hyphen: `v-model-lazy` names `model` when the marker is `v-`. Names with a colon stay whole.
-/

set_option autoImplicit false

namespace DataBinding

/-- Every directive that the compiler knows. -/
inductive DirectiveKind where
  /-- Two-way binding of an element's value. -/
  | model
  /-- Text with values of the model in it. -/
  | text
  deriving DecidableEq

namespace DirectiveKind

/-- All kinds. -/
def all : List DirectiveKind := [.model, .text]

/-- The name of a kind in markup. -/
def name : DirectiveKind → String
  | .model => "model"
  | .text => "text"

/-- The kind with a name. -/
def ofName? (name : String) : Option DirectiveKind := all.find? (·.name == name)

end DirectiveKind

/-- What an attribute's name says after the marker, up to the first hyphen; nothing if the name does
not start with the marker. -/
def directiveName? (marker attributeName : String) : Option String :=
  (marker.toList.isPrefixOf? attributeName.toList).map fun rest =>
    String.ofList (rest.takeWhile (· != '-'))

end DataBinding
