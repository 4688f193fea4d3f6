import DataBinding.Error
import DataBinding.Text.Blank

/-!
# Binding paths

A path is a sequence of keys, written with dots between them. Keys are taken as they are, blanks
included, and none is empty; so a path has at least one key, and the last one is set apart because a
write treats it differently.
-/

set_option autoImplicit false

namespace DataBinding

/-- A path through the model: the keys that lead to a container, and the key in it. -/
structure Path where
  parents : List String
  last : String
  deriving DecidableEq, Inhabited

namespace Path

/-- All keys, in order. -/
def segments (p : Path) : List String := p.parents ++ [p.last]

/-- The written form of a path. -/
def text (p : Path) : String := ".".intercalate p.segments

/-- Reads a path. -/
def parse (text : String) : Except Error Path :=
  let keys := (pieces (· == '.') text.toList).map String.ofList
  if keys.any (·.isEmpty) then .error (.invalidPath text)
  else .ok ⟨keys.dropLast, keys.getLastD ""⟩

end Path

end DataBinding
