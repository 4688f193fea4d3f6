import DataBinding.Script

/-!
# What one step of a run does to a store

`Step` lists everything that operations do to a store besides storing the value of a cell. A watcher's
look at its path and what comes of it are one step, and so is the making of a watcher: between their
parts nothing else runs. Storing the value of a cell, `Store.storeCell`, is kept apart, because it is
the one change after which subscribers are still to be told. Three operations are no steps, because
much of what the library does holds only of hosts that do not use them: a host can fill the collector
slot, add entries to the list of a cell, and switch its own subscribers on and off (`Op.isByHand`).

An invariant of all runs is proved by cases on `Step`, never by opening the operations; that operations
consist of steps is proved once, in `DataBinding.Proofs.Runs.Discipline`.
-/

set_option autoImplicit false

namespace DataBinding

open Markup (Tree)

namespace Event

/-- Whether an event only comments on what happens: neither a look of a watcher nor a change. -/
def isNote : Event → Bool
  | .updating _ | .writeFailed _ | .raised _ | .dispatched _ _ _ => true
  | _ => false

end Event

/-- Whether an operation changes what the library otherwise looks after: the collector slot, the entries
of a list, or whether a subscriber wants notifications. -/
def Op.isByHand {ρ σ : Type} : Op ρ σ → Bool
  | .subscribe _ _ | .collect _ | .setActive _ _ => true
  | _ => false

namespace Store

variable {ρ σ : Type}

/-- The store once a cell has taken a new value, before anybody is told. -/
def storeCell (s : Store ρ σ) (cell : CellId) (value : Value) : Store ρ σ :=
  (s.withModel (·.setCellValue cell value)).record (.storedCell cell value)

/-- The handle that the next subscriber gets. -/
def nextSubscriber (s : Store ρ σ) : SubscriberId := ⟨s.subscribers.size⟩

/-- The store once a watcher has been added that so many hold and that is subscribed to cells. -/
def enroll (s : Store ρ σ) (handles : Nat) (watcher : Watcher ρ) (cells : List CellId)
    (event : Event) : Store ρ σ :=
  { s with
    model := cells.foldl (fun m cell => m.subscribe cell s.nextSubscriber) s.model
    subscribers := s.subscribers.push ⟨handles, .watching watcher⟩
    journal := event :: s.journal }

end Store

/-- One step of a run. -/
inductive Step {ρ σ : Type} : Store ρ σ → Store ρ σ → Prop where
  | noted (s : Store ρ σ) (event : Event) (hnote : event.isNote = true) : Step s (s.record event)
  /-- A watcher looks at its path and finds the value that it knows. -/
  | agreed (s : Store ρ σ) (id : SubscriberId) (watcher : Watcher ρ) (value : Value)
      (hwatcher : s.watcher? id = some watcher) (hactive : watcher.disposed = false)
      (hfound : s.model.peek watcher.path watcher.root = .ok value)
      (hsame : value.strictEq watcher.baseline = true) :
      Step s (s.record (.resolved id value))
  /-- A watcher looks at its path, finds another value and delivers it. -/
  | delivered (s : Store ρ σ) (id : SubscriberId) (watcher : Watcher ρ) (value : Value)
      (hwatcher : s.watcher? id = some watcher) (hactive : watcher.disposed = false)
      (hfound : s.model.peek watcher.path watcher.root = .ok value)
      (hother : value.strictEq watcher.baseline = false) :
      Step s (((s.record (.resolved id value)).updateWatcher id (·.receive value)).record
        (.delivered id value))
  /-- A watcher is made. It keeps the value at its path and is subscribed to the cells on the way. -/
  | made (s : Store ρ σ) (root : Value) (path : Path) (policy : BaselinePolicy)
      (reaction : Reaction ρ) (cells : List CellId) (value : Value)
      (hfound : s.model.follow path root = ⟨cells, .ok value⟩) :
      Step s (s.enroll 1 { root, path, policy, reaction, baseline := value } cells
        (.made s.nextSubscriber cells value))
  /-- A watcher whose path does not resolve is let go at once. -/
  | abandoned (s : Store ρ σ) (root : Value) (path : Path) (policy : BaselinePolicy)
      (reaction : Reaction ρ) (cells : List CellId) (e : Error)
      (hfailed : s.model.follow path root = ⟨cells, .error e⟩) :
      Step s (s.enroll 0 { root, path, policy, reaction } cells (.raised e))
  /-- A plain key is stored. -/
  | storedPlain (s : Store ρ σ) (object : ObjectId) (key : String) (value : Value)
      (hplain : ∀ cell, s.model.slot? object key ≠ some (.reactive cell)) :
      Step s ((s.withModel (·.putPlain object key value)).record (.storedPlain object key value))
  | observed (s : Store ρ σ) (json : Json) :
      Step s { s with model := (Model.observe json s.model).2 }
  | newObject (s : Store ρ σ) : Step s { s with model := s.model.newObject.2 }
  | tracked (s : Store ρ σ) (cells : List CellId) : Step s (s.subscribeCollector cells)
  | pruned (s : Store ρ σ) (cell : CellId) :
      Step s (s.withModel (·.updateSubscribers cell (·.filter s.isLive)))
  | retained (s : Store ρ σ) (id : SubscriberId) : Step s (s.retain id)
  | released (s : Store ρ σ) (id : SubscriberId) : Step s (s.release id)
  | disposed (s : Store ρ σ) (id : SubscriberId) : Step s (s.dispose id)
  | hosted (s : Store ρ σ) (reaction : ρ) : Step s (s.addSubscriber (.hosted true reaction)).2
  | binderAdded (s : Store ρ σ) (root : Value) (config : Config) : Step s (s.addBinder root config).2
  | watcherKept (s : Store ρ σ) (binder : BinderId) (watcher : SubscriberId) :
      Step s (s.keepWatcher binder watcher)
  | hostSet (s : Store ρ σ) (host : σ) : Step s { s with host }
  | textWritten (s : Store ρ σ) (node : NodeId) (text : String) :
      Step s ((s.withView (·.setText node text)).record (.wroteText node))
  | valueWritten (s : Store ρ σ) (node : NodeId) (value : String) :
      Step s ((s.withView (·.setValue node value)).record (.wroteValue node))
  | typed (s : Store ρ σ) (node : NodeId) (text : String) : Step s (s.withView (·.typeOver node text))
  | listened (s : Store ρ σ) (node : NodeId) (listener : Listener ρ) :
      Step s (s.withView (·.listen node listener))
  | appended (s : Store ρ σ) (parent child : NodeId) : Step s (s.withView (·.append parent child))
  | attributeSet (s : Store ρ σ) (node : NodeId) (name value : String) :
      Step s (s.withView (·.setAttribute node name value))
  | planted (s : Store ρ σ) (tree : Tree) : Step s { s with view := (View.plant tree s.view).2 }

end DataBinding
