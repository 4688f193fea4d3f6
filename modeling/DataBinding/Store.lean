import DataBinding.Model.Rendering
import DataBinding.View

/-!
# The store

Everything that operations change: the model, the view, the subscribers, the collector slot, the binders
of compilation passes, a state `σ` of the host's own, and a journal of what happened.

A subscriber is alive while somebody holds it. A watcher is a subscriber made by the library: it follows
a path and reacts when the value there differs from its baseline. A hosted subscriber reacts to every
notification. Cells list subscribers without holding them.
-/

set_option autoImplicit false

namespace DataBinding

/-- What is done with a value that a watcher delivers. -/
inductive Reaction (ρ : Type) where
  /-- Shows the value as the live value of a node. -/
  | showValue (node : NodeId)
  /-- Writes the text of a node anew, from all the values in it. -/
  | showText (node : NodeId) (template : Template) (root : Value)
  /-- Does as the host wants. -/
  | hosted (reaction : ρ)

/-- A path that is followed from a root value, and what happens when the value there changes. -/
structure Watcher (ρ : Type) where
  root : Value
  path : Path
  policy : BaselinePolicy
  reaction : Reaction ρ
  /-- The value that the current one is compared with. -/
  baseline : Value := .null
  disposed : Bool := false
  /-- How often the reaction was started. -/
  fireCount : Nat := 0

/-- What a subscriber does when it is told of a change. -/
inductive Role (ρ : Type) where
  | watching (watcher : Watcher ρ)
  | hosted (active : Bool) (reaction : ρ)

/-- A subscriber, with the number of those who hold it. -/
structure Subscriber (ρ : Type) where
  handles : Nat
  role : Role ρ

/-- A compilation pass: the value that its paths start from, its settings, and the watchers that it has
made so far. -/
structure Binder where
  root : Value
  config : Config
  watchers : List SubscriberId
  deriving Inhabited

/-- What is written into the journal. -/
inductive Event where
  /-- A watcher was made: the cells that its first reading went through, and its first baseline. -/
  | made (watcher : SubscriberId) (cells : List CellId) (value : Value)
  /-- A cell took a new value. -/
  | storedCell (cell : CellId) (value : Value)
  /-- A plain key took a new value. -/
  | storedPlain (object : ObjectId) (key : String) (value : Value)
  /-- A write came back with an error. -/
  | writeFailed (error : Error)
  /-- A subscriber began to update. -/
  | updating (subscriber : SubscriberId)
  /-- An update of a watcher found the value at its path. -/
  | resolved (watcher : SubscriberId) (value : Value)
  /-- A watcher started its reaction with a value. -/
  | delivered (watcher : SubscriberId) (value : Value)
  /-- A directive on a node went to the handler of its kind. -/
  | dispatched (kind : DirectiveKind) (node : NodeId) (expression : String)
  /-- The text of a node was written. -/
  | wroteText (node : NodeId)
  /-- The live value of a node was written. -/
  | wroteValue (node : NodeId)
  /-- An operation failed by itself, not because one that it called for failed, or a script ended with
  an error. -/
  | raised (error : Error)

/-- Everything that operations change. -/
structure Store (ρ σ : Type) where
  model : Model := {}
  view : View ρ := {}
  subscribers : Array (Subscriber ρ) := #[]
  /-- The collector slot: whoever is subscribed by reads. -/
  collector : Option SubscriberId := none
  binders : Array Binder := #[]
  host : σ
  /-- What happened, latest first. -/
  journal : List Event := []

namespace Watcher

variable {ρ : Type}

/-- The watcher once a value is delivered to it. -/
def receive (w : Watcher ρ) (value : Value) : Watcher ρ :=
  { w with
    baseline := match w.policy with
      | .refresh => value
      | .frozen => w.baseline
    fireCount := w.fireCount + 1 }

end Watcher

namespace Role

variable {ρ : Type}

/-- Whether notifications are still wanted. -/
def isActive : Role ρ → Bool
  | .watching watcher => !watcher.disposed
  | .hosted active _ => active

end Role

namespace Subscriber

variable {ρ : Type}

/-- Whether somebody holds the subscriber. -/
def isAlive (s : Subscriber ρ) : Bool := 0 < s.handles

/-- Whether the subscriber is held and wants notifications. -/
def isLive (s : Subscriber ρ) : Bool := s.isAlive && s.role.isActive

end Subscriber

namespace Store

variable {ρ σ : Type}

/-- A subscriber. -/
def subscriber? (s : Store ρ σ) (id : SubscriberId) : Option (Subscriber ρ) := s.subscribers[id.index]?

/-- A watcher. -/
def watcher? (s : Store ρ σ) (id : SubscriberId) : Option (Watcher ρ) :=
  match s.subscriber? id with
  | some ⟨_, .watching watcher⟩ => some watcher
  | _ => none

/-- Whether a subscriber is held. -/
def isAlive (s : Store ρ σ) (id : SubscriberId) : Bool := (s.subscriber? id).any (·.isAlive)

/-- Whether a subscriber is held and wants notifications. -/
def isLive (s : Store ρ σ) (id : SubscriberId) : Bool := (s.subscriber? id).any (·.isLive)

/-- A binder. -/
def binder (s : Store ρ σ) (id : BinderId) : Binder := s.binders.getD id.index default

/-- Writes an event into the journal. -/
def record (s : Store ρ σ) (event : Event) : Store ρ σ := { s with journal := event :: s.journal }

/-- Changes the model. -/
def withModel (s : Store ρ σ) (f : Model → Model) : Store ρ σ := { s with model := f s.model }

/-- Changes the view. -/
def withView (s : Store ρ σ) (f : View ρ → View ρ) : Store ρ σ := { s with view := f s.view }

/-- Changes a subscriber. -/
def updateSubscriber (s : Store ρ σ) (id : SubscriberId) (f : Subscriber ρ → Subscriber ρ) :
    Store ρ σ :=
  { s with subscribers := s.subscribers.modify id.index f }

/-- Changes a watcher. -/
def updateWatcher (s : Store ρ σ) (id : SubscriberId) (f : Watcher ρ → Watcher ρ) : Store ρ σ :=
  s.updateSubscriber id fun subscriber =>
    match subscriber.role with
    | .watching watcher => { subscriber with role := .watching (f watcher) }
    | .hosted _ _ => subscriber

/-- Adds a subscriber that its maker holds. -/
def addSubscriber (s : Store ρ σ) (role : Role ρ) : SubscriberId × Store ρ σ :=
  (⟨s.subscribers.size⟩, { s with subscribers := s.subscribers.push ⟨1, role⟩ })

/-- One more holds a subscriber. What nobody holds cannot be taken hold of again. -/
def retain (s : Store ρ σ) (id : SubscriberId) : Store ρ σ :=
  s.updateSubscriber id fun subscriber =>
    if subscriber.isAlive then { subscriber with handles := subscriber.handles + 1 }
    else subscriber

/-- One fewer holds a subscriber. -/
def release (s : Store ρ σ) (id : SubscriberId) : Store ρ σ :=
  s.updateSubscriber id fun subscriber => { subscriber with handles := subscriber.handles - 1 }

/-- Stops a watcher for ever. -/
def dispose (s : Store ρ σ) (id : SubscriberId) : Store ρ σ :=
  s.updateWatcher id fun watcher => { watcher with disposed := true }

/-- Says whether a hosted subscriber wants notifications. -/
def setActive (s : Store ρ σ) (id : SubscriberId) (active : Bool) : Store ρ σ :=
  s.updateSubscriber id fun subscriber =>
    match subscriber.role with
    | .hosted _ reaction => { subscriber with role := .hosted active reaction }
    | .watching _ => subscriber

/-- Adds a binder that has made no watchers. -/
def addBinder (s : Store ρ σ) (root : Value) (config : Config) : BinderId × Store ρ σ :=
  (⟨s.binders.size⟩, { s with binders := s.binders.push ⟨root, config, []⟩ })

/-- Notes that a binder has made a watcher. -/
def keepWatcher (s : Store ρ σ) (binder : BinderId) (watcher : SubscriberId) : Store ρ σ :=
  { s with binders := s.binders.modify binder.index fun b =>
      { b with watchers := b.watchers ++ [watcher] } }

/-- Subscribes whoever is in the collector slot to cells, in their order. -/
def subscribeCollector (s : Store ρ σ) (cells : List CellId) : Store ρ σ :=
  match s.collector with
  | none => s
  | some id => s.withModel fun m => cells.foldl (fun m cell => m.subscribe cell id) m

end Store

end DataBinding
