import DataBinding.Model.Value
import DataBinding.Path

/-!
# The model

The model holds every object and every property cell. An object is a keyed list of slots. A slot is
reactive, backed by a cell that lists its subscribers, or plain. Observing a JSON document makes each
of its objects, at every depth, an object whose slots are all reactive; keys that are added later are
plain.

Reading follows a path from a root value and says which cells it went through. Whether those reads
subscribe anybody is decided by the reader.
-/

set_option autoImplicit false

namespace DataBinding

/-- What an object holds under a key. -/
inductive Slot where
  | reactive (cell : CellId)
  | plain (value : Value)
  deriving Inhabited

/-- The value of a reactive property, and everyone who is told when it changes, oldest first. -/
structure Cell where
  value : Value := .null
  subscribers : List SubscriberId := []
  deriving Inhabited

/-- All objects and cells, and how many arrays there have been. -/
structure Model where
  objects : Array (List (String × Slot)) := #[]
  cells : Array Cell := #[]
  arrays : Nat := 0
  deriving Inhabited

/-- What following a path comes to: the cells read on the way, and the value or the failure. -/
structure Reading where
  cells : List CellId
  outcome : Except Error Value

namespace Model

/-- The slots of an object. -/
def fields (m : Model) (id : ObjectId) : List (String × Slot) := m.objects.getD id.index []

/-- A cell. -/
def cell (m : Model) (id : CellId) : Cell := m.cells.getD id.index {}

/-- The slot of an object under a key. -/
def slot? (m : Model) (id : ObjectId) (key : String) : Option Slot := Keyed.get? key (m.fields id)

/-- The cell behind a key, if the key is reactive. -/
def cellAt? (m : Model) (id : ObjectId) (key : String) : Option CellId :=
  match m.slot? id key with
  | some (.reactive cell) => some cell
  | _ => none

/-- The value in a slot. -/
def slotValue (m : Model) : Slot → Value
  | .reactive cell => (m.cell cell).value
  | .plain value => value

/-- The value of an object under a key. -/
def get? (m : Model) (id : ObjectId) (key : String) : Option Value :=
  (m.slot? id key).map m.slotValue

/-- The keys and values of an object, in the order of its keys. -/
def entries (m : Model) (id : ObjectId) : List (String × Value) :=
  (m.fields id).map fun (key, slot) => (key, m.slotValue slot)

/-- Adds an object that has no keys. -/
def newObject (m : Model) : Value × Model :=
  (.object ⟨m.objects.size⟩, { m with objects := m.objects.push [] })

/-- Replaces the value of a cell. -/
def setCellValue (m : Model) (id : CellId) (value : Value) : Model :=
  { m with cells := m.cells.modify id.index fun cell => { cell with value } }

/-- Changes the subscribers of a cell. -/
def updateSubscribers (m : Model) (id : CellId) (f : List SubscriberId → List SubscriberId) : Model :=
  { m with cells := m.cells.modify id.index fun cell =>
      { cell with subscribers := f cell.subscribers } }

/-- Adds a subscriber at the end of a cell's list. -/
def subscribe (m : Model) (id : CellId) (subscriber : SubscriberId) : Model :=
  m.updateSubscribers id (· ++ [subscriber])

/-- Stores a value in a plain slot, which is added if it is not there. -/
def putPlain (m : Model) (id : ObjectId) (key : String) (value : Value) : Model :=
  { m with objects := m.objects.modify id.index (Keyed.put key (.plain value)) }

mutual

/-- The value of a document: its objects become new objects of the model, and its outermost arrays new
arrays. -/
def observe : Json → Model → Value × Model
  | .null, m => (.null, m)
  | .bool value, m => (.bool value, m)
  | .number value, m => (.number value.toDouble, m)
  | .string text, m => (.string text, m)
  | .array items, m => (.array ⟨m.arrays⟩ items, { m with arrays := m.arrays + 1 })
  | .object members, m =>
    let (fields, m) := observeMembers members m
    (.object ⟨m.objects.size⟩, { m with objects := m.objects.push fields })

/-- The slots of a document's members, each with a new cell that nobody is subscribed to. -/
def observeMembers : List (String × Json) → Model → List (String × Slot) × Model
  | [], m => ([], m)
  | (key, json) :: rest, m =>
    let (value, m) := observe json m
    let cell : CellId := ⟨m.cells.size⟩
    let (fields, m) := observeMembers rest { m with cells := m.cells.push { value } }
    ((key, .reactive cell) :: fields, m)

end

/-- Follows keys from a value. The text is the path that an error names. -/
def followKeys (m : Model) (text : String) : List String → Value → Reading
  | [], value => ⟨[], .ok value⟩
  | key :: rest, .object id =>
    match m.slot? id key with
    | none => ⟨[], .error (.pathResolution text key)⟩
    | some (.plain value) => m.followKeys text rest value
    | some (.reactive cell) =>
      let onward := m.followKeys text rest (m.cell cell).value
      ⟨cell :: onward.cells, onward.outcome⟩
  | key :: _, _ => ⟨[], .error (.pathResolution text key)⟩

/-- Follows a path from a value. -/
def follow (m : Model) (path : Path) (root : Value) : Reading :=
  m.followKeys path.text path.segments root

/-- The value at a path, read without subscribing anybody. -/
def peek (m : Model) (path : Path) (root : Value) : Except Error Value := (m.follow path root).outcome

end Model

end DataBinding
