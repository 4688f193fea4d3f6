import DataBinding.Delivery

/-!
# Compiling a tree

Compiling goes through a tree in document order and makes the bindings that its directives ask for. An
element's attributes come in their order; each whose name starts with the marker is handled by the
handler of its kind. The element's children come after all of them, as they are by then. A text node is
handled as text if, without the blanks around it, it has a marker that captures something. Comments are
passed over. The first failure ends the pass, and the watchers that the pass has made are let go.

A registry says which handler a kind has: one of the two that come with the library, or the host's own.
-/

set_option autoImplicit false

namespace DataBinding

/-- What makes the bindings of a directive. -/
inductive Handler (ρ : Type) where
  /-- Binds the live value of the node to a path, in both directions. -/
  | bindValue
  /-- Binds the text of the node to a template. -/
  | bindText
  /-- Does as the host wants. -/
  | hosted (reaction : ρ)

/-- The handlers of each kind of directive. -/
structure Directives (ρ : Type) where
  model : Option (Handler ρ) := some .bindValue
  text : Option (Handler ρ) := some .bindText

namespace Directives

variable {ρ : Type}

/-- The handler that a kind has, if it has one. -/
def handler? (directives : Directives ρ) : DirectiveKind → Option (Handler ρ)
  | .model => directives.model
  | .text => directives.text

/-- Whether a kind has a handler. -/
def isRegistered (directives : Directives ρ) (kind : DirectiveKind) : Bool :=
  (directives.handler? kind).isSome

/-- The handler of a kind. -/
def get (directives : Directives ρ) (kind : DirectiveKind) : Except Error (Handler ρ) :=
  match directives.handler? kind with
  | some handler => .ok handler
  | none => .error (.unregisteredDirective kind)

/-- The kind that a name stands for, and its handler. -/
def lookup (directives : Directives ρ) (marker name : String) :
    Except Error (DirectiveKind × Handler ρ) :=
  match DirectiveKind.ofName? name with
  | none => .error (.unknownDirective marker name)
  | some kind => (directives.get kind).map fun handler => (kind, handler)

end Directives

namespace Run

variable {ρ σ : Type}

/-- Makes a watcher with the policy of a binder, which holds it. -/
def bind (binder : BinderId) (path : Path) (reaction : Reaction ρ) : Run ρ σ SubscriberId := do
  let settings ← look (·.binder binder)
  let id ← watch settings.root path settings.config.baseline reaction
  change (·.keepWatcher binder id)
  done id

/-- Binds the live value of a node to a path. The watcher is there before the listener, and the listener
before the first value is shown. -/
def bindValue (binder : BinderId) (node : NodeId) (expression : String) : Run ρ σ Unit := do
  let path ← orRaise (Path.parse expression)
  let settings ← look (·.binder binder)
  let _ ← bind binder path (.showValue node)
  change (·.withView (·.listen node (.assign settings.root path)))
  let value ← peek path settings.root
  setValue node (← display value)

/-- Binds the text of a node to a template: one watcher for each binding in it, repeated ones included,
and each of them writes the whole text. -/
def bindText (binder : BinderId) (node : NodeId) (expression : String) : Run ρ σ Unit := do
  let settings ← look (·.binder binder)
  let template ← orRaise
    (Template.parse settings.config.delimiters settings.config.trimPaths expression)
  each template.paths fun path => do
    let _ ← bind binder path (.showText node template settings.root)
    done ()
  setText node (← render template settings.root)

/-- Does what a handler does with a directive of its kind on a node. -/
def handle (respond : Respond ρ σ) (kind : DirectiveKind) (handler : Handler ρ) (binder : BinderId)
    (node : NodeId) (expression : String) : Run ρ σ Unit := do
  change (·.record (.dispatched kind node expression))
  match handler with
  | .bindValue => bindValue binder node expression
  | .bindText => bindText binder node expression
  | .hosted reaction => respond reaction (.found binder node expression)

/-- Handles an attribute of a node, if it is a directive. -/
def compileAttribute (respond : Respond ρ σ) (directives : Directives ρ) (binder : BinderId)
    (marker : String) (node : NodeId) (entry : String × String) : Run ρ σ Unit :=
  match directiveName? marker entry.1 with
  | none => done ()
  | some name => do
    let (kind, handler) ← orRaise (directives.lookup marker name)
    handle respond kind handler binder node entry.2

/-- Handles the text of a node, if it binds something. -/
def compileText (respond : Respond ρ σ) (directives : Directives ρ) (binder : BinderId)
    (config : Config) (node : NodeId) (text : String) : Run ρ σ Unit :=
  if Template.containsBinding config.delimiters config.trimPaths (trim text.toList) then do
    let handler ← orRaise (directives.get .text)
    handle respond .text handler binder node (String.ofList (trim text.toList))
  else done ()

/-- Compiles a node and what is below it, at most `depth` levels deep. -/
def compileNode (respond : Respond ρ σ) (directives : Directives ρ) (binder : BinderId)
    (config : Config) : Nat → NodeId → Run ρ σ Unit
  | 0, _ => diverge
  | depth + 1, id => do
    let node ← look (·.view.node id)
    match node.kind with
    | .element _ => do
      each node.attributes (compileAttribute respond directives binder config.marker id)
      let children ← look fun s => (s.view.node id).children
      each children (compileNode respond directives binder config depth)
    | .text => compileText respond directives binder config id node.text
    | .comment => done ()

/-- Compiles a node and what is below it, at most `depth` levels deep, and comes back with the watchers
of its bindings, which the caller holds. -/
def compile (respond : Respond ρ σ) (depth : Nat) (root : Value) (config : Config)
    (directives : Directives ρ) (node : NodeId) : Run ρ σ (List SubscriberId) := do
  let binder ← changeGet (·.addBinder root config)
  let result ← attempt (compileNode respond directives binder config depth node)
  let watchers ← look fun s => (s.binder binder).watchers
  match result with
  | .ok _ => done watchers
  | .error e => do
    change fun s => watchers.foldl Store.release s
    propagate e

end Run

end DataBinding
