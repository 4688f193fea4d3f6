import DataBinding.Directive

/-!
# Errors

Every failure is a value of `Error` and goes back to whoever asked for the operation. Nothing in the
library retries, and nothing is rolled back.
-/

set_option autoImplicit false

namespace DataBinding

/-- What is wrong with a markup text. -/
inductive MarkupFault where
  /-- The text is no sequence of tokens. -/
  | malformed
  /-- A closing tag that does not close the innermost open element. -/
  | mismatched (expected found : String)
  /-- A closing tag where no element is open. -/
  | unexpected (found : String)
  /-- An element that is never closed. -/
  | unclosed (tag : String)
  deriving DecidableEq

/-- The failures of the library. -/
inductive Error where
  /-- An attribute is marked as a directive, but names no known kind. -/
  | unknownDirective (marker name : String)
  /-- The kind is known, but the registry has no handler for it. -/
  | unregisteredDirective (kind : DirectiveKind)
  /-- A segment of a path is absent, or the value before it is no object. -/
  | pathResolution (path segment : String)
  /-- A path has an empty segment. -/
  | invalidPath (text : String)
  /-- A selector that names the place to mount matches nothing. -/
  | unresolvedRoot (selector : String)
  /-- The operation needs observed data, but the data was left plain. -/
  | notReactive
  /-- The markup at a byte offset is wrong. -/
  | markup (offset : Nat) (fault : MarkupFault)
  /-- A configuration that cannot be decoded. -/
  | configDecode
  /-- A configuration with an unusable value, or a failure of the host's own. -/
  | invalidConfig (reason : String)
  deriving DecidableEq, Inhabited

namespace MarkupFault

/-- The wording of a fault. -/
def reason : MarkupFault → String
  | .malformed => "malformed markup"
  | .mismatched expected found => "expected \x60</" ++ expected ++ ">\x60, found \x60</" ++ found ++ ">\x60"
  | .unexpected found => "unexpected \x60</" ++ found ++ ">\x60"
  | .unclosed tag => "unclosed \x60<" ++ tag ++ ">\x60"

end MarkupFault

namespace Error

/-- The text of an error. -/
def message : Error → String
  | .unknownDirective marker name => "unknown directive \x60" ++ marker ++ name ++ "\x60"
  | .unregisteredDirective kind =>
    "no handler registered for directive \x60" ++ kind.name ++ "\x60"
  | .pathResolution path segment =>
    "cannot resolve \x60" ++ path ++ "\x60: no property \x60" ++ segment ++ "\x60"
  | .invalidPath text => "invalid binding path \x60" ++ text ++ "\x60"
  | .unresolvedRoot selector =>
    "root selector \x60" ++ selector ++ "\x60 did not resolve to a node"
  | .notReactive => "model is not reactive; it was created without a root"
  | .markup offset fault => "markup error at byte " ++ toString offset ++ ": " ++ fault.reason
  | .configDecode => "invalid configuration: malformed document"
  | .invalidConfig reason => "invalid configuration: " ++ reason

end Error

end DataBinding
