/-!
# Handles

Objects, arrays, property cells, subscribers, nodes and binders are shared: many places hold the same
one, and two of them are the same exactly if their handles are equal. A handle is the position at which
the thing was made.
-/

set_option autoImplicit false

namespace DataBinding

/-- An object of the model. -/
structure ObjectId where
  index : Nat
  deriving DecidableEq, Inhabited

/-- An array of the model. -/
structure ArrayId where
  index : Nat
  deriving DecidableEq, Inhabited

/-- A property cell of an object. -/
structure CellId where
  index : Nat
  deriving DecidableEq, Inhabited

/-- Something that can be told of a change. -/
structure SubscriberId where
  index : Nat
  deriving DecidableEq, Inhabited

/-- A node of the interface. -/
structure NodeId where
  index : Nat
  deriving DecidableEq, Inhabited

/-- A compilation pass that is making bindings. -/
structure BinderId where
  index : Nat
  deriving DecidableEq, Inhabited

end DataBinding
