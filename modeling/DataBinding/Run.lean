import DataBinding.Store

/-!
# Runs

A run takes a store and comes back with a result or an error, and with the store as it is then: an error
rolls nothing back. A run may also not come back at all, because reactions call each other without end
or a value that contains itself is to be written out; then it has no outcome.
-/

set_option autoImplicit false

namespace DataBinding

/-- An operation on a store. -/
def Run (ρ σ α : Type) : Type := Store ρ σ → Option (Except Error α × Store ρ σ)

namespace Run

variable {ρ σ α β : Type}

/-- Comes back at once with a result. -/
def done (a : α) : Run ρ σ α := fun s => some (.ok a, s)

/-- Runs one operation and then, unless it failed, the next. -/
def andThen (run : Run ρ σ α) (next : α → Run ρ σ β) : Run ρ σ β := fun s =>
  match run s with
  | none => none
  | some (.error e, s') => some (.error e, s')
  | some (.ok a, s') => next a s'

instance : Monad (Run ρ σ) where
  pure := done
  bind := andThen

/-- Never comes back. -/
def diverge : Run ρ σ α := fun _ => none

/-- The result of looking at the store. -/
def look (f : Store ρ σ → α) : Run ρ σ α := fun s => some (.ok (f s), s)

/-- Changes the store. -/
def change (f : Store ρ σ → Store ρ σ) : Run ρ σ Unit := fun s => some (.ok (), f s)

/-- Changes the store and comes back with a result. -/
def changeGet (f : Store ρ σ → α × Store ρ σ) : Run ρ σ α := fun s => some (.ok (f s).1, (f s).2)

/-- Fails with an error that another operation failed with. -/
def propagate (e : Error) : Run ρ σ α := fun s => some (.error e, s)

/-- Fails with an error of its own, which the journal shows. -/
def raise (e : Error) : Run ρ σ α := fun s => some (.error e, s.record (.raised e))

/-- Comes back with a result that is at hand, or fails with an error of its own. -/
def orRaise : Except Error α → Run ρ σ α
  | .ok a => done a
  | .error e => raise e

/-- Comes back with a value if there is one. -/
def demand : Option α → Run ρ σ α
  | some a => done a
  | none => diverge

/-- Runs an operation and comes back with its result or its error. -/
def attempt (run : Run ρ σ α) : Run ρ σ (Except Error α) := fun s =>
  (run s).map fun (result, s') => (.ok result, s')

/-- Runs a write, and writes into the journal that it failed if it did. -/
def writing (run : Run ρ σ α) : Run ρ σ α := fun s =>
  match run s with
  | some (.error e, s') => some (.error e, s'.record (.writeFailed e))
  | outcome => outcome

/-- Runs an operation for each item in order, up to the first that fails. -/
def each (items : List α) (f : α → Run ρ σ Unit) : Run ρ σ Unit :=
  match items with
  | [] => done ()
  | item :: rest => andThen (f item) fun _ => each rest f

/-- Holds a subscriber while an operation runs, also if it fails. -/
def holding (id : SubscriberId) (run : Run ρ σ α) : Run ρ σ α := fun s =>
  (run (s.retain id)).map fun (result, s') => (result, s'.release id)

/-- Runs an operation with the collector slot filled as given, and then puts back what was in it, also
if the operation fails. -/
def collecting (slot : Option SubscriberId) (run : Run ρ σ α) : Run ρ σ α := fun s =>
  (run { s with collector := slot }).map fun (result, s') =>
    (result, { s' with collector := s.collector })

end Run

end DataBinding
