import DataBinding.Run

/-!
# Delivering changes

A cell notifies its subscribers one after the other, before the write that changed it comes back. A
notify cycle first drops the entries that are dead or inactive from the list of the cell, and then goes
through the list as it was at that moment: each entry that is still live when its turn comes is updated,
and held while it is. The first update that fails ends the cycle.

An update of a watcher follows its path anew, without subscribing anybody, and reacts if the value there
differs from the baseline. What a host's own reactions do is given by a `Respond`; everything here takes
it as it is, so that what is said here holds of every host.
-/

set_option autoImplicit false

namespace DataBinding

/-- What a host's reaction is called for. -/
inductive Stimulus where
  /-- A watcher delivers a value. -/
  | delivered (value : Value)
  /-- A hosted subscriber is notified. -/
  | notified
  /-- A value was typed over. -/
  | typed (text : String)
  /-- A directive was found on a node. -/
  | found (binder : BinderId) (node : NodeId) (expression : String)

/-- What a host does when one of its reactions is called for. -/
abbrev Respond (ρ σ : Type) : Type := ρ → Stimulus → Run ρ σ Unit

namespace Run

variable {ρ σ : Type}

/-- Writes the text of a node. -/
def setText (node : NodeId) (text : String) : Run ρ σ Unit :=
  change fun s => (s.withView (·.setText node text)).record (.wroteText node)

/-- Writes the live value of a node. -/
def setValue (node : NodeId) (value : String) : Run ρ σ Unit :=
  change fun s => (s.withView (·.setValue node value)).record (.wroteValue node)

/-- The text that a value is shown as. -/
def display (value : Value) : Run ρ σ String := do
  let text ← look fun s => s.model.display? value
  demand (text.map String.ofList)

/-- The document of a value. -/
def toJson (value : Value) : Run ρ σ Json := do
  demand (← look fun s => s.model.json? value)

/-- The text of a template. -/
def render (template : Template) (root : Value) : Run ρ σ String := do
  orRaise (← demand (← look fun s => s.model.render? template root))

/-- The value at a path, read without subscribing anybody. -/
def peek (path : Path) (root : Value) : Run ρ σ Value := do
  orRaise (← look fun s => s.model.peek path root)

/-- The value at a path. Whoever is in the collector slot is subscribed to each cell on the way, also if
the way ends in a failure. -/
def resolve (path : Path) (root : Value) : Run ρ σ Value := do
  let reading ← look fun s => s.model.follow path root
  change fun s => s.subscribeCollector reading.cells
  orRaise reading.outcome

/-- Does what a watcher does with a value that it delivers. -/
def react (respond : Respond ρ σ) (reaction : Reaction ρ) (value : Value) : Run ρ σ Unit :=
  match reaction with
  | .showValue node => do setValue node (← display value)
  | .showText node template root => do setText node (← render template root)
  | .hosted reaction => respond reaction (.delivered value)

/-- Delivers a value: the baseline moves if the policy says so, and the reaction starts. -/
def deliver (respond : Respond ρ σ) (id : SubscriberId) (watcher : Watcher ρ) (value : Value) :
    Run ρ σ Unit := do
  change fun s => (s.updateWatcher id (·.receive value)).record (.delivered id value)
  react respond watcher.reaction value

/-- Looks again at the path of a watcher, and delivers the value there if it differs from the
baseline. A watcher that is disposed does nothing. -/
def updateWatcher (respond : Respond ρ σ) (id : SubscriberId) (watcher : Watcher ρ) :
    Run ρ σ Unit :=
  if watcher.disposed then done ()
  else do
    let current ← peek watcher.path watcher.root
    change (·.record (.resolved id current))
    if current.strictEq watcher.baseline then done () else deliver respond id watcher current

/-- Tells a subscriber of a change. -/
def update (respond : Respond ρ σ) (id : SubscriberId) : Run ρ σ Unit := do
  change (·.record (.updating id))
  match ← look (·.subscriber? id) with
  | some ⟨_, .watching watcher⟩ => updateWatcher respond id watcher
  | some ⟨_, .hosted _ reaction⟩ => respond reaction .notified
  | none => done ()

/-- Updates one entry of a list of subscribers, if it is live when its turn comes. -/
def visit (tell : SubscriberId → Run ρ σ Unit) (id : SubscriberId) : Run ρ σ Unit := do
  if ← look (·.isLive id) then holding id (tell id)

/-- Goes through the subscribers of a cell. `tell` is how one of them is told. -/
def notify (tell : SubscriberId → Run ρ σ Unit) (cell : CellId) : Run ρ σ Unit := do
  change fun s => s.withModel (·.updateSubscribers cell (·.filter s.isLive))
  let entries ← look fun s => (s.model.cell cell).subscribers
  each entries (visit tell)

/-- Writes a cell and notifies its subscribers, unless the value is the one that it holds. Comes back
with whether the value changed. -/
def setCell (tell : SubscriberId → Run ρ σ Unit) (cell : CellId) (value : Value) : Run ρ σ Bool := do
  let current ← look fun s => (s.model.cell cell).value
  if current.strictEq value then done false
  else do
    change fun s => (s.withModel (·.setCellValue cell value)).record (.storedCell cell value)
    writing (notify tell cell)
    done true

/-- Stores a plain key, which notifies nobody. -/
def putPlain (object : ObjectId) (key : String) (value : Value) : Run ρ σ Bool := do
  change fun s =>
    (s.withModel (·.putPlain object key value)).record (.storedPlain object key value)
  done true

/-- Writes a key of an object: through its cell if it is reactive, and otherwise as a plain key, which
notifies nobody. Comes back with whether the value changed. -/
def setKey (tell : SubscriberId → Run ρ σ Unit) (object : ObjectId) (key : String) (value : Value) :
    Run ρ σ Bool := do
  match ← look (·.model.slot? object key) with
  | some (.reactive cell) => setCell tell cell value
  | some (.plain current) =>
    if current.strictEq value then done false else putPlain object key value
  | none => putPlain object key value

/-- The container that a path leads to. Its parents are read like any other path. -/
def container (path : Path) (root : Value) : Run ρ σ ObjectId := do
  let reading ← look fun s => s.model.followKeys path.text path.parents root
  change fun s => s.subscribeCollector reading.cells
  match reading.outcome with
  | .error e => raise e
  | .ok (.object id) => done id
  | .ok _ => raise (.pathResolution path.text path.last)

/-- Writes the value at a path. Comes back with whether it changed. -/
def assign (tell : SubscriberId → Run ρ σ Unit) (path : Path) (root value : Value) :
    Run ρ σ Bool := do
  let object ← writing (container path root)
  setKey tell object path.last value

/-- Makes a watcher. It sits in the collector slot while its path is followed for the first time, and so
is subscribed to every cell on the way; the value there is its first baseline. If the path does not
resolve the watcher is let go, and the entries that it has made are dead. -/
def watch (root : Value) (path : Path) (policy : BaselinePolicy) (reaction : Reaction ρ) :
    Run ρ σ SubscriberId := do
  let id ← changeGet (·.addSubscriber (.watching { root, path, policy, reaction }))
  let reading ← look fun s => s.model.follow path root
  match ← attempt (collecting (some id) (resolve path root)) with
  | .ok value => do
    change fun s => (s.updateWatcher id fun watcher => { watcher with baseline := value }).record
      (.made id reading.cells value)
    done id
  | .error e => do
    change (·.release id)
    propagate e

/-- Does what a listener does with a text that was typed. -/
def hear (respond : Respond ρ σ) (text : String) (listener : Listener ρ) : Run ρ σ Unit :=
  match listener with
  | .assign root path => do
    let _ ← assign (update respond) path root (.string text)
    done ()
  | .hosted reaction => respond reaction (.typed text)

/-- Takes over a value that was typed, and runs the listeners that the node has by then, up to the first
that fails. -/
def input (respond : Respond ρ σ) (node : NodeId) (text : String) : Run ρ σ Unit := do
  change (·.withView (·.typeOver node text))
  let listeners ← look fun s => (s.view.node node).listeners
  each listeners (hear respond text)

end Run

end DataBinding
