import DataBinding.Proofs.Model.Containment
import DataBinding.Proofs.Runs.Keeps

/-!
# Two ways of writing a value

An array or an object is shown as JSON. Its text is written entry by entry, straight from the model; its document
is a copy that is taken first and may be written later. Both ways come to the same text, at every depth and
whatever is under the keys, and neither subscribes anybody.
-/

set_option autoImplicit false

namespace DataBinding

variable {ρ σ : Type}

namespace Model

variable {m : Model}

/-- The text of one member of an object. -/
def writeMember (member : String × Json) : List Char := Json.quote member.1 ++ ':' :: member.2.write

/-- Members that are written one by one and separated by commas are written as members are. -/
theorem commaSeparated_members (members : List (String × Json)) :
    commaSeparated (members.map writeMember) = Json.writeMembers members := by
  induction members with
  | nil => rfl
  | cons member rest ih =>
    obtain ⟨key, json⟩ := member
    cases rest with
    | nil => rfl
    | cons next rest =>
      rw [List.map_cons] at ih
      rw [List.map_cons, List.map_cons, commaSeparated, ih, Json.writeMembers, writeMember, List.append_assoc,
        List.cons_append]

/-- The text that is written entry by entry is the text of the document. -/
theorem encode?_eq (depth : Nat) (value : Value) : m.encode? depth value = (m.toJson? depth value).map Json.write := by
  induction depth generalizing value with
  | zero => cases value <;> rfl
  | succ depth ih =>
    cases value with
    | object id =>
      have hentry : (fun entry : String × Value =>
          (m.encode? depth entry.2).map fun text => Json.quote entry.1 ++ ':' :: text) =
          fun entry => ((m.toJson? depth entry.2).map fun json => (entry.1, json)).map writeMember := by
        funext entry
        rw [ih, Option.map_map, Option.map_map]
        rfl
      rw [encode?, toJson?, hentry, mapM_map_option, Option.map_map, Option.map_map]
      refine congrArg (Option.map · _) (funext fun members => ?_)
      simp only [Function.comp_apply, Json.write, commaSeparated_members]
    | _ => rfl

/-- What is shown of an array or an object is the text of its document. -/
theorem display?_eq {value : Value} (h : (∃ id items, value = .array id items) ∨ ∃ id, value = .object id) :
    m.display? value = (m.json? value).map Json.write := by
  rcases h with ⟨id, items, rfl⟩ | ⟨id, rfl⟩
  · exact encode?_eq m.depth _
  · exact encode?_eq m.depth _

/-- What has a document can be shown. -/
theorem display?_isSome {value : Value} (h : (m.json? value).isSome) : (m.display? value).isSome := by
  cases value with
  | bool b => cases b <;> rfl
  | array id items =>
    rw [display?_eq (.inl ⟨id, items, rfl⟩), Option.isSome_map]
    exact h
  | object id =>
    rw [display?_eq (.inr ⟨id, rfl⟩), Option.isSome_map]
    exact h
  | _ => rfl

end Model

/-- Whatever is in the collector slot, and whatever has been written to the model: an array, or an object that
neither is nor contains an object that contains itself, has a document, what is shown of it is the compact text of
that document, and both come back to the store as it was, with the same subscribers in every list. Any other object
has no document and cannot be shown. -/
theorem shown_as_copied (s : Store ρ σ) (value : Value) :
    ((∃ id items, value = .array id items) ∨ (∃ id, value = .object id ∧ s.model.LooplessAt value) →
      ∃ json, Run.toJson value s = some (.ok json, s) ∧ Run.display value s = some (.ok json.compact, s)) ∧
    ((∃ id, value = .object id) → ¬ s.model.LooplessAt value →
      Run.toJson value s = none ∧ Run.display value s = none) := by
  refine ⟨fun h => ?_, fun hobject hloop => ?_⟩
  · have hcontainer : (∃ id items, value = .array id items) ∨ ∃ id, value = .object id :=
      h.imp_right fun ⟨id, hid, _⟩ => ⟨id, hid⟩
    have hloopless : s.model.LooplessAt value := by
      rcases h with ⟨id, items, rfl⟩ | ⟨-, -, hloopless⟩
      · exact s.model.looplessAt_leaf rfl
      · exact hloopless
    obtain ⟨json, hjson⟩ := Option.isSome_iff_exists.1 (Model.looplessAt_iff_json?.1 hloopless)
    refine ⟨json, ?_, ?_⟩
    · rw [Run.toJson_apply, hjson]
      rfl
    · rw [Run.display_apply, Model.display?_eq hcontainer, hjson]
      rfl
  · have hnone : s.model.json? value = none :=
      Option.not_isSome_iff_eq_none.1 fun hsome => hloop (Model.looplessAt_iff_json?.2 hsome)
    rw [Run.toJson_apply, Run.display_apply, Model.display?_eq (.inr hobject), hnone]
    exact ⟨rfl, rfl⟩

/-! An object that was written to, while somebody listens in. -/

/-- A document with a quoted key, an object in an array and an object under a key. -/
def inventory : Json :=
  .object [("\"a\"", .array [.object [("n", .number (.int 9007199254740993))]]), ("b", .object [("c", .null)])]

/-- The inventory, with a NaN and a number under keys that came late, and a subscriber in the collector slot. -/
def overheardInventory : Store Unit Unit where
  model := ((Model.observe inventory {}).2.putPlain ⟨1⟩ "late" (.number .nan)).putPlain ⟨0⟩ "late" (.number (.ofInt (-3)))
  subscribers := #[⟨1, .hosted true ()⟩]
  collector := some ⟨0⟩
  host := ()

/-- The inventory as JSON text. -/
def inventoryText : String :=
  "\x7b\"\\\"a\\\"\":[\x7b\"n\":9007199254740993\x7d],\"b\":\x7b\"c\":null,\"late\":-3\x7d,\"late\":null\x7d"

/-- The inventory is shown as it is copied, and the subscriber in the slot is not told of anything in it; a tracked
read of a key in it subscribes it. -/
theorem shown_as_copied_overheard :
    (∃ json, Run.toJson (.object ⟨1⟩) overheardInventory = some (.ok json, overheardInventory) ∧
      Run.display (.object ⟨1⟩) overheardInventory = some (.ok json.compact, overheardInventory) ∧
      json.compact = inventoryText) ∧
    (overheardInventory.model.cell ⟨2⟩).subscribers = [] ∧
    (Run.perform (fun _ _ => Run.diverge) 0 (.readKey ⟨1⟩ "b") overheardInventory).map
      (fun (_, s) => (s.model.cell ⟨2⟩).subscribers) = some [⟨0⟩] := by
  have hjson : (overheardInventory.model.json? (.object ⟨1⟩)).map Json.compact = some inventoryText := by decide +kernel
  obtain ⟨found, hfound, htext⟩ := Option.map_eq_some_iff.1 hjson
  have hloopless : overheardInventory.model.LooplessAt (.object ⟨1⟩) :=
    Model.looplessAt_iff_json?.2 (Option.isSome_iff_exists.2 ⟨found, hfound⟩)
  obtain ⟨json, hcopied, hshown⟩ :=
    (shown_as_copied overheardInventory (.object ⟨1⟩)).1 (.inr ⟨⟨1⟩, rfl, hloopless⟩)
  refine ⟨⟨json, hcopied, hshown, ?_⟩, by decide +kernel, by decide +kernel⟩
  rw [Run.toJson_apply, hfound] at hcopied
  cases hcopied
  exact htext

end DataBinding
