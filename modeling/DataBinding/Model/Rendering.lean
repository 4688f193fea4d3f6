import DataBinding.Model.Snapshot
import DataBinding.Template

/-!
# Rendering templates

A template is rendered by putting the text of the value at each path in the place of its binding.
Rendering stops at the first path that does not resolve. Nobody is subscribed by it.
-/

set_option autoImplicit false

namespace DataBinding.Model

/-- The text of the parts of a template; nothing if a value has no text. -/
def renderParts? (m : Model) (root : Value) : List TemplatePart → Option (Except Error (List Char))
  | [] => some (.ok [])
  | .literal text :: rest => (m.renderParts? root rest).map (·.map (text.toList ++ ·))
  | .binding path :: rest =>
    match m.peek path root with
    | .error e => some (.error e)
    | .ok value =>
      (m.display? value).bind fun shown => (m.renderParts? root rest).map (·.map (shown ++ ·))

/-- The text of a template; nothing if a value has no text. -/
def render? (m : Model) (template : Template) (root : Value) : Option (Except Error String) :=
  (m.renderParts? root template.parts).map (·.map String.ofList)

end DataBinding.Model
