import DataBinding.Error
import DataBinding.Json.Printer
import DataBinding.Json.Reader

/-!
# Configuration

What marks a directive, what delimits a binding in text, whether the path in it is trimmed, and which
value a watcher compares with. A configuration is written as a JSON object; it may be read from an
object, whose unknown members are passed over, or from an array of its fields in order. Members that
are left out take their defaults, and one that is known must not be repeated.
-/

set_option autoImplicit false

namespace DataBinding

open Json (Written)

/-- Which value a watcher compares the current one with. -/
inductive BaselinePolicy where
  /-- The value at the time of construction, for ever. -/
  | frozen
  /-- The value that was delivered last. -/
  | refresh
  deriving DecidableEq, Inhabited

/-- What stands before and after a binding in text. -/
structure Delimiters where
  opening : String := "\x7b\x7b"
  closing : String := "\x7d\x7d"
  deriving DecidableEq, Inhabited

/-- The settings of the compiler and of the watchers that it makes. -/
structure Config where
  /-- Attributes whose names start with this are directives. -/
  marker : String := "v-"
  delimiters : Delimiters := {}
  /-- Whether blanks around a path between delimiters are dropped. -/
  trimPaths : Bool := true
  baseline : BaselinePolicy := .refresh
  deriving DecidableEq, Inhabited

namespace Json.Written

/-- The decoder of an optional field: a field that is left out takes its default. -/
def orDefault {α : Type} (default : α) (decode : Written → Option α) :
    Option Written → Option α
  | some written => decode written
  | none => some default

/-- A string that has a text. -/
def asString? : Written → Option String
  | .string text => text
  | _ => none

/-- A truth value. -/
def asBool? : Written → Option Bool
  | .bool value => some value
  | _ => none

/-- The value of a known member, which must not be repeated; `some none` if it is left out. -/
def known? (members : List (Option String × Written)) (key : String) : Option (Option Written) :=
  match members.filter (·.1 == some key) with
  | [] => some none
  | [(_, value)] => some (some value)
  | _ => none

/-- The values of named fields: from the members of an object, or from the items of an array in the
order of the fields. -/
def fields? (names : List String) : Written → Option (List (Option Written))
  | .object members =>
    if members.all (·.1.isSome) then names.mapM (known? members) else none
  | .array items =>
    if items.length ≤ names.length then
      some (items.map some ++ List.replicate (names.length - items.length) none)
    else none
  | _ => none

end Json.Written

namespace BaselinePolicy

/-- The name of a policy. -/
def name : BaselinePolicy → String
  | .frozen => "frozen"
  | .refresh => "refresh"

/-- The policy with a name. -/
def ofName? (name : String) : Option BaselinePolicy :=
  if name = "frozen" then some .frozen else if name = "refresh" then some .refresh else none

/-- Reads a policy: its name, or an object with the name as its only key and null as the value. -/
def decode? : Written → Option BaselinePolicy
  | .string text => text.bind ofName?
  | .object [(key, .null)] => key.bind ofName?
  | _ => none

end BaselinePolicy

namespace Delimiters

/-- Reads a pair of delimiters. -/
def decode? (written : Written) : Option Delimiters := do
  match ← written.fields? ["open", "close"] with
  | [opening, closing] =>
    let default : Delimiters := {}
    some {
      opening := ← Written.orDefault default.opening Written.asString? opening
      closing := ← Written.orDefault default.closing Written.asString? closing }
  | _ => none

end Delimiters

namespace Config

/-- Refuses settings that the compiler cannot work with. -/
def validate (config : Config) : Except Error Unit :=
  if config.marker.isEmpty then .error (.invalidConfig "directive prefix is empty")
  else if config.delimiters.opening.isEmpty || config.delimiters.closing.isEmpty then
    .error (.invalidConfig "interpolation delimiters are empty")
  else .ok ()

/-- The fields of a configuration, in the order in which they are written. -/
def fieldNames : List String :=
  ["directive_prefix", "delimiters", "trim_interpolation", "baseline"]

/-- Reads a configuration, whether or not its values are usable. -/
def decode? (written : Written) : Option Config := do
  match ← written.fields? fieldNames with
  | [marker, delimiters, trimPaths, baseline] =>
    let default : Config := {}
    some {
      marker := ← Written.orDefault default.marker Written.asString? marker
      delimiters := ← Written.orDefault default.delimiters Delimiters.decode? delimiters
      trimPaths := ← Written.orDefault default.trimPaths Written.asBool? trimPaths
      baseline := ← Written.orDefault default.baseline BaselinePolicy.decode? baseline }
  | _ => none

/-- Reads a configuration from a document, whether or not its values are usable. -/
def ofJson (json : Json) : Except Error Config :=
  match decode? json.toWritten with
  | some config => .ok config
  | none => .error .configDecode

/-- Reads a usable configuration from a text. -/
def parse (text : String) : Except Error Config :=
  match (Written.read? text.toList).bind decode? with
  | some config => config.validate.map fun _ => config
  | none => .error .configDecode

/-- The document of a configuration. -/
def toJson (config : Config) : Json :=
  .object [
    ("directive_prefix", .string config.marker),
    ("delimiters", .object [
      ("open", .string config.delimiters.opening),
      ("close", .string config.delimiters.closing)]),
    ("trim_interpolation", .bool config.trimPaths),
    ("baseline", .string config.baseline.name)]

end Config

end DataBinding
