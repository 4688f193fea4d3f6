import DataBinding.Handle
import DataBinding.Markup.Selector
import DataBinding.Model.Value
import DataBinding.Path

/-!
# The view

The view holds every node of the interface. A node may have any number of parents; what is said about
its place is said from a node above it. Besides its markup a node has a live value, the listeners that
run when its value is typed over, and counts of how often its text and its value were written.

A listener assigns what was typed at a path of the model, or is the host's own; `ρ` is the type of what
a host hangs on nodes and subscribers.
-/

set_option autoImplicit false

namespace DataBinding

open Markup (Tree Position Selector)

/-- What runs when a value is typed over. -/
inductive Listener (ρ : Type) where
  | assign (root : Value) (path : Path)
  | hosted (reaction : ρ)

/-- What a node is. -/
inductive NodeKind where
  | element (tag : String)
  | text
  | comment
  deriving DecidableEq, Inhabited

/-- A node of the interface. -/
structure Node (ρ : Type) where
  kind : NodeKind := .comment
  attributes : List (String × String) := []
  children : List NodeId := []
  /-- The text of a text node or a comment. -/
  text : String := ""
  /-- The live value of an element. -/
  value : String := ""
  listeners : List (Listener ρ) := []
  textWrites : Nat := 0
  valueWrites : Nat := 0
  deriving Inhabited

/-- All nodes. -/
structure View (ρ : Type) where
  nodes : Array (Node ρ) := #[]
  deriving Inhabited

namespace NodeKind

/-- The tag of an element. -/
def tag? : NodeKind → Option String
  | .element tag => some tag
  | _ => none

end NodeKind

namespace View

variable {ρ : Type}

/-- A node. -/
def node (v : View ρ) (id : NodeId) : Node ρ := v.nodes.getD id.index {}

/-- Changes a node. -/
def update (v : View ρ) (id : NodeId) (f : Node ρ → Node ρ) : View ρ :=
  { v with nodes := v.nodes.modify id.index f }

/-- Adds a node. -/
def add (v : View ρ) (node : Node ρ) : NodeId × View ρ :=
  (⟨v.nodes.size⟩, { v with nodes := v.nodes.push node })

mutual

/-- Makes the nodes of a tree. The live value of an element is that of its `value` attribute. -/
def plant : Tree → View ρ → NodeId × View ρ
  | .text content, v => v.add { kind := .text, text := content }
  | .comment body, v => v.add { kind := .comment, text := body }
  | .element tag attributes children, v =>
    let (children, v) := plantAll children v
    v.add {
      kind := .element tag, attributes, children
      value := (Keyed.get? "value" attributes).getD "" }

/-- Makes the nodes of trees that follow each other. -/
def plantAll : List Tree → View ρ → List NodeId × View ρ
  | [], v => ([], v)
  | tree :: rest, v =>
    let (first, v) := plant tree v
    let (others, v) := plantAll rest v
    (first :: others, v)

end

/-- The tree at a node, whose elements nest at most `depth` deep. -/
def treeWithin? (v : View ρ) : Nat → NodeId → Option Tree
  | 0, _ => none
  | depth + 1, id =>
    let node := v.node id
    match node.kind with
    | .text => some (.text node.text)
    | .comment => some (.comment node.text)
    | .element tag =>
      (node.children.mapM fun child => v.treeWithin? depth child).map (.element tag node.attributes ·)

/-- A depth that nodes reach only if one of them contains itself. -/
def depth (v : View ρ) : Nat := v.nodes.size + 1

/-- The tree at a node; nothing if the node contains itself. -/
def tree? (v : View ρ) (id : NodeId) : Option Tree := v.treeWithin? v.depth id

/-- What is found at siblings and below them, the first of which has the given index. -/
def outlineEach (visit : Position → NodeId → Option (List (Position × NodeId)))
    (position : Position) (index : Nat) : List NodeId → Option (List (Position × NodeId))
  | [] => some []
  | id :: rest => do
    let first ← visit (position ++ [index]) id
    let others ← outlineEach visit position (index + 1) rest
    some (first ++ others)

/-- The nodes at and below a node in document order, each with its position. -/
def outlineWithin? (v : View ρ) : Nat → Position → NodeId → Option (List (Position × NodeId))
  | 0, _, _ => none
  | depth + 1, position, id =>
    (outlineEach (v.outlineWithin? depth) position 0 (v.node id).children).map ((position, id) :: ·)

/-- The nodes at and below some top-level nodes in document order, each with its position; nothing if a
node contains itself. -/
def outline? (v : View ρ) (roots : List NodeId) : Option (List (Position × NodeId)) :=
  outlineEach (v.outlineWithin? v.depth) [] 0 roots

/-- Whether a node is an element that a selector accepts. -/
def accepts (v : View ρ) (selector : Selector) (id : NodeId) : Bool :=
  match (v.node id).kind with
  | .element tag => selector.accepts tag (v.node id).attributes
  | _ => false

/-- The first element in document order that a selector accepts. The outer option is empty if a node
contains itself. -/
def query? (v : View ρ) (roots : List NodeId) (selector : Selector) : Option (Option NodeId) :=
  (v.outline? roots).map fun nodes => (nodes.map Prod.snd).find? (v.accepts selector)

/-- The node at a position below some top-level nodes. -/
def nodeAt? (v : View ρ) : List NodeId → Position → Option NodeId
  | _, [] => none
  | siblings, [index] => siblings[index]?
  | siblings, index :: next :: rest =>
    siblings[index]?.bind fun id => v.nodeAt? (v.node id).children (next :: rest)

/-- The first of some nodes that is an element. -/
def firstElement? (v : View ρ) (nodes : List NodeId) : Option NodeId :=
  nodes.find? fun id => (v.node id).kind.tag?.isSome

/-- Adds a child at the end. -/
def append (v : View ρ) (parent child : NodeId) : View ρ :=
  v.update parent fun node => { node with children := node.children ++ [child] }

/-- Writes the text of a node. An element takes the text as its only child. -/
def setText (v : View ρ) (id : NodeId) (text : String) : View ρ :=
  match (v.node id).kind with
  | .element _ =>
    let (child, v) := v.add { kind := .text, text }
    v.update id fun node => { node with children := [child], textWrites := node.textWrites + 1 }
  | _ => v.update id fun node => { node with text, textWrites := node.textWrites + 1 }

/-- Writes the live value of a node. -/
def setValue (v : View ρ) (id : NodeId) (value : String) : View ρ :=
  v.update id fun node => { node with value, valueWrites := node.valueWrites + 1 }

/-- Takes over a value that was typed. It is not counted as a write. -/
def typeOver (v : View ρ) (id : NodeId) (value : String) : View ρ :=
  v.update id fun node => { node with value }

/-- Sets an attribute. The attribute `value` sets the live value as well. -/
def setAttribute (v : View ρ) (id : NodeId) (name value : String) : View ρ :=
  v.update id fun node => { node with
    attributes := Keyed.put name value node.attributes
    value := if name = "value" then value else node.value }

/-- Adds a listener at the end. -/
def listen (v : View ρ) (id : NodeId) (listener : Listener ρ) : View ρ :=
  v.update id fun node => { node with listeners := node.listeners ++ [listener] }

end View

end DataBinding
