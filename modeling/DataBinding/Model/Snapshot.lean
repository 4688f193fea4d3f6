import DataBinding.Json.Printer
import DataBinding.Model.Basic

/-!
# Values as JSON and as text

`Model.toJson?` copies a value out of the model as a document, and `Model.encode?` writes its JSON text
at once, without a copy. Both take the depth to which objects may nest. An object that contains itself
nests without end and has neither; in a model without such objects the number of objects is depth
enough, and `Model.json?` and `Model.display?` use it.
-/

set_option autoImplicit false

namespace DataBinding.Model

/-- The document of a value whose objects nest at most `depth` deep. -/
def toJson? (m : Model) : Nat → Value → Option Json
  | _, .null => some .null
  | _, .bool value => some (.bool value)
  | _, .number value => some (.ofDouble value)
  | _, .string text => some (.string text)
  | _, .array _ items => some (.array items)
  | 0, .object _ => none
  | depth + 1, .object id =>
    ((m.entries id).mapM fun (entry : String × Value) =>
      (m.toJson? depth entry.2).map fun json => (entry.1, json)).map .object

/-- Texts with commas between them. -/
def commaSeparated : List (List Char) → List Char
  | [] => []
  | [text] => text
  | text :: next :: rest => text ++ ',' :: commaSeparated (next :: rest)

/-- The JSON text of a value whose objects nest at most `depth` deep, written entry by entry. -/
def encode? (m : Model) : Nat → Value → Option (List Char)
  | _, .null => some (Json.write .null)
  | _, .bool value => some (Json.write (.bool value))
  | _, .number value => some (Json.ofDouble value).write
  | _, .string text => some (Json.quote text)
  | _, .array _ items => some (Json.write (.array items))
  | 0, .object _ => none
  | depth + 1, .object id =>
    ((m.entries id).mapM fun (entry : String × Value) =>
      (m.encode? depth entry.2).map fun text => Json.quote entry.1 ++ ':' :: text).map fun texts =>
        '{' :: (commaSeparated texts ++ ['}'])

/-- A depth that objects reach only if one of them contains itself. -/
def depth (m : Model) : Nat := m.objects.size + 1

/-- The document of a value. -/
def json? (m : Model) (value : Value) : Option Json := m.toJson? m.depth value

/-- The text that a value is shown as: strings as they are, numbers in their own layout, arrays and
objects as JSON. -/
def display? (m : Model) : Value → Option (List Char)
  | .null => some "null".toList
  | .bool true => some "true".toList
  | .bool false => some "false".toList
  | .number value => some (Value.layout.write value)
  | .string text => some text.toList
  | value@(.array _ _) => m.encode? m.depth value
  | value@(.object _) => m.encode? m.depth value

end DataBinding.Model
