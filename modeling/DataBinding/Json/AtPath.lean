import DataBinding.Json.Basic
import DataBinding.Path

/-!
# Paths in documents

A path leads through the objects of a document as it leads through the objects of a model; arrays have
no keys. `Json.followKeys` reads what is there, `Json.container` finds the object that a write changes,
and `Json.putAt` writes, which leaves the order of all members as it is.
-/

set_option autoImplicit false

namespace DataBinding

namespace Json

/-- Follows keys into a document. The text is the path that an error names. -/
def followKeys (text : String) : List String → Json → Except Error Json
  | [], json => .ok json
  | key :: rest, json =>
    match json.member? key with
    | some next => followKeys text rest next
    | none => .error (.pathResolution text key)

/-- The members of the object that a path leads to. -/
def container (path : Path) (json : Json) : Except Error (List (String × Json)) := do
  match ← followKeys path.text path.parents json with
  | .object members => .ok members
  | _ => .error (.pathResolution path.text path.last)

/-- Sets a member of the object that keys lead to; the document itself if they lead to none. -/
def putAt (last : String) (value : Json) : List String → Json → Json
  | [], .object members => .object (Keyed.put last value members)
  | key :: rest, .object members =>
    match Keyed.get? key members with
    | some next => .object (Keyed.put key (putAt last value rest next) members)
    | none => .object members
  | _, json => json

end Json

end DataBinding
