import DataBinding.Proofs.Model.Containment
import DataBinding.Proofs.ViewModel.PlainAndReactive

/-!
# Copies of values

A value is copied out of the model as a document, and observing a document makes a new value of it. Going from a
document to a value and back writes the numbers outside arrays anew and changes nothing else. Going from a value
to its document, to a new value and to its document again changes nothing at all, whatever has been written to the
value: the numbers of a document that was copied out are written the way they will be written again.
-/

set_option autoImplicit false

namespace DataBinding

variable {ρ σ : Type}

namespace Model

variable {m : Model} {value : Value} {json : Json}

/-- The document of a value has no number that would be written differently when it is read. -/
theorem normalize_of_toJson? {depth : Nat} (h : m.toJson? depth value = some json) : json.normalize = json := by
  induction depth generalizing value json with
  | zero =>
    cases value with
    | number d =>
      cases h
      exact Json.normalize_ofDouble d
    | object => cases h
    | _ =>
      cases h
      rfl
  | succ depth ih =>
    cases value with
    | number d =>
      cases h
      exact Json.normalize_ofDouble d
    | object o =>
      obtain ⟨members, hmembers, rfl⟩ := Option.map_eq_some_iff.1 h
      refine Json.normalize_eq_self_iff.2 fun n hn => ?_
      obtain ⟨entry, hentry, hnumber⟩ := Json.hasNumber_object.1 hn
      obtain ⟨source, -, hsource⟩ := mem_of_mapM hmembers entry hentry
      obtain ⟨found, hfound, rfl⟩ := Option.map_eq_some_iff.1 hsource
      exact Json.normalize_eq_self_iff.1 (ih hfound) n hnumber
    | _ =>
      cases h
      rfl

end Model

/-- A run copies a value out exactly if the model has a document for it. -/
theorem Run.toJson_eq_iff {value : Value} {s : Store ρ σ} {json : Json} :
    Run.toJson value s = some (.ok json, s) ↔ s.model.json? value = some json := by
  rw [Run.toJson_apply]
  cases s.model.json? value with
  | none => exact ⟨fun h => (nomatch h), fun h => (nomatch h)⟩
  | some found => simp

/-- Observes a document, and copies the new value out again. -/
def Script.recopy (json : Json) : Script ρ σ Json := do
  let value ← Script.perform (.observe json)
  Script.perform (.toJson value)

/-- A document that is observed and copied out again comes back in its normal form. -/
theorem Script.recopy_comes_back (host : Host ρ σ) (depth : Nat) (json : Json) (s : Store ρ σ) :
    (Script.recopy json).run host depth s =
      some (.ok json.normalize, { s with model := (Model.observe json s.model).2 }) :=
  Script.Ends.runWith ((ViewModel.ends_observe host depth json s).bind
    (ViewModel.ends_toJson host depth (ViewModel.observe_json? json s.model)))

/-- A document that is observed and copied out again has the same keys in the same order, the same arrays, and
every number outside arrays as its double is written. So it is the same document exactly if its numbers are written
that way, as integers below `2 ^ 53` are. A value has a document at any point of any run exactly if no object
that it is or contains contains itself, however the objects have come there and whatever their numbers are; and
that document is the same when it is observed, at any other point, and copied out again. -/
theorem recopy_returns (host : Host ρ σ) (depth : Nat) :
    (∀ (json : Json) (s : Store ρ σ), (Script.recopy json).run host depth s =
      some (.ok json.normalize, { s with model := (Model.observe json s.model).2 })) ∧
    (∀ json : Json, json.normalize = json ↔
      ∀ n, json.HasNumber n → JsonNumber.ofDouble? n.toDouble = some n) ∧
    (∀ n : Int, n.natAbs < Nat.pow 2 53 → JsonNumber.ofDouble? (JsonNumber.int n).toDouble = some (.int n)) ∧
    ∀ (value : Value) (s : Store ρ σ),
      (s.model.LooplessAt value ↔ ∃ json, Run.toJson value s = some (.ok json, s)) ∧
      ∀ json, Run.toJson value s = some (.ok json, s) → ∀ t : Store ρ σ, ∃ t',
        (Script.recopy json).run host depth t = some (.ok json, t') := by
  refine ⟨Script.recopy_comes_back host depth, fun json => Json.normalize_eq_self_iff, fun n => JsonNumber.ofDouble?_int,
    fun value s => ⟨?_, fun json hcopied t => ?_⟩⟩
  · simp only [Run.toJson_eq_iff, Model.looplessAt_iff_json?, Option.isSome_iff_exists]
  · have hnormal := Model.normalize_of_toJson? (Run.toJson_eq_iff.1 hcopied)
    have hback := Script.recopy_comes_back host depth json t
    rw [hnormal] at hback
    exact ⟨_, hback⟩

/-- A document with an integer that is no double, and with numbers that nobody reads in an array. -/
def ledger : Json :=
  .object [("big", .number (.int 9007199254740993)), ("small", .number (.int (-7))),
    ("list", .array [.object [("n", .number (.int 9007199254740993))]]), ("inner", .object [])]

/-- The ledger, with a NaN under a key that came late and the inner object under another one as well. -/
def amendedLedger : Store Unit Unit :=
  { model := ((Model.observe ledger {}).2.putPlain ⟨1⟩ "late" (.number .nan)).putPlain ⟨1⟩ "twin" (.object ⟨0⟩)
    host := () }

/-- The amended ledger as JSON text. -/
def amendedText : String :=
  "\x7b\"big\":9007199254740992.0,\"small\":-7,\"list\":[\x7b\"n\":9007199254740993\x7d]," ++
    "\"inner\":\x7b\x7d,\"late\":null,\"twin\":\x7b\x7d\x7d"

/-- The amended ledger is written out as text, and its document comes back from another store. -/
theorem recopy_returns_amended : ∃ json, amendedLedger.model.LooplessAt (.object ⟨1⟩) ∧
    Run.toJson (.object ⟨1⟩) amendedLedger = some (.ok json, amendedLedger) ∧
    String.ofList json.write = amendedText ∧
    (∃ t', (Script.recopy json).run ⟨fun _ _ => pure ()⟩ 1 ({ host := () } : Store Unit Unit) =
      some (.ok json, t')) ∧ (Json.number (.int (-7))).normalize = .number (.int (-7)) := by
  obtain ⟨-, hnormal, hint, hvalues⟩ := recopy_returns (⟨fun _ _ => pure ()⟩ : Host Unit Unit) 1
  obtain ⟨hloopless, hagain⟩ := hvalues (.object ⟨1⟩) amendedLedger
  have htext : (amendedLedger.model.json? (.object ⟨1⟩)).map (fun json => String.ofList json.write) =
      some amendedText := by decide +kernel
  obtain ⟨json, hjson, hwrite⟩ := Option.map_eq_some_iff.1 htext
  have hcopied := Run.toJson_eq_iff.2 hjson
  refine ⟨json, hloopless.2 ⟨_, hcopied⟩, hcopied, hwrite, hagain _ hcopied _, (hnormal _).2 ?_⟩
  rintro n ⟨⟩
  exact hint (-7) (by decide)

end DataBinding
