import DataBinding.Proofs.Mirroring.Leaves
import DataBinding.Proofs.Runs.Models
import DataBinding.Proofs.Runs.Supervision
import DataBinding.Proofs.Runs.Writes
import DataBinding.Proofs.Watching.NoLostUpdate

/-!
# Cells are for life

Whatever a host does, objects keep their keys in their order, and each key keeps the cell behind it. A key that
was not there when its object was made has no cell: it is read without subscribing anybody, and written without
telling anybody. What is observed has a new cell behind each key, at every depth, and nobody is subscribed to it.
-/

set_option autoImplicit false

namespace DataBinding

variable {ρ σ α : Type}

/-! ## Keys without a cell -/

namespace Model

variable {m : Model} {id : ObjectId} {key text : String} {root value : Value}

/-- A key without a cell adds nothing to what is read on the way. -/
theorem cells_of_plain {keys : List String} (hfound : (m.followKeys text keys root).outcome = .ok (.object id))
    (hplain : m.cellAt? id key = none) (hvalue : m.get? id key = some value) (rest : List String) :
    (m.followKeys text (keys ++ key :: rest) root).cells =
      (m.followKeys text keys root).cells ++ (m.followKeys text rest value).cells := by
  obtain ⟨slot, hslot, rfl⟩ := Option.map_eq_some_iff.1 hvalue
  rw [followKeys_append hfound]
  cases slot with
  | reactive cell => exact absurd hslot (cellAt?_eq_none_iff.1 hplain cell)
  | plain value => rw [followKeys_plain hslot]; rfl

/-- An object of a document, at any depth, becomes a new object with the same keys. -/
theorem observe_object {json : Json} {keys : List String} {members : List (String × Json)}
    (hfound : Json.followKeys text keys json = .ok (.object members)) (m : Model) :
    ∃ id, ¬ m.Has (.object id) ∧ (observe json m).2.Has (.object id) ∧
      ((observe json m).2.followKeys text keys (observe json m).1).outcome = .ok (.object id) ∧
      (observe json m).2.keys id = members.map Prod.fst := by
  obtain ⟨parts, hholds, hnews⟩ := observe_holds json m
  have hfollow := hholds.followKeys text keys
  rw [Json.followKeys_normalize, hfound] at hfollow
  obtain ⟨e, hjson, -⟩ | ⟨found, value, hjson, hmodel, here, hsub, hfound'⟩ := sameOutcome_iff.1 hfollow
  · cases hjson
  · cases hjson
    obtain ⟨id, below, rfl, rfl, hall⟩ := hfound'
    have hmem : Part.object id ∈ parts := hsub.subset List.mem_cons_self
    exact ⟨id, hnews.new _ hmem, hnews.has _ hmem, hmodel, hall.keys.trans (Json.keys_normalizeMembers members)⟩

/-- Behind each key of an object that is observed there is a new cell, to which nobody is subscribed. -/
theorem observe_cells (json : Json) (m : Model) (hnew : ¬ m.Has (.object id))
    (hkey : key ∈ (observe json m).2.keys id) :
    ∃ cell, (observe json m).2.cellAt? id key = some cell ∧ ¬ m.Has (.cell cell) ∧
      (observe json m).2.Has (.cell cell) ∧ ((observe json m).2.cell cell).subscribers = [] := by
  obtain ⟨slot, hslot⟩ := Option.isSome_iff_exists.1 (slot?_isSome_iff.2 hkey)
  obtain ⟨cell, rfl, hfresh, hhas⟩ := observe_madeReactive json m id hnew _ (Keyed.mem_of_get? hslot)
  refine ⟨cell, cellAt?_eq_some_iff.2 hslot, hfresh, hhas, ?_⟩
  rw [subscribers_observe, subscribers_of_le (Nat.le_of_not_lt hfresh)]

end Model

/-- The subscribing of the collector leaves the keys of objects alone. -/
theorem Store.slot?_subscribeCollector (s : Store ρ σ) (cells : List CellId) (id : ObjectId) (key : String) :
    (s.subscribeCollector cells).model.slot? id key = s.model.slot? id key := by
  unfold subscribeCollector
  split
  · rfl
  · exact (Model.Alike.subscribeAll s.model cells _).slot? id key

namespace Run

variable {s : Store ρ σ} {id : ObjectId} {key : String} {path : Path} {root : Value}

/-- Reading a key without a cell changes nothing, whoever is in the collector slot. -/
theorem readKey_plain (hplain : s.model.cellAt? id key = none) (respond : Respond ρ σ) (depth : Nat) :
    perform respond depth (.readKey id key) s = some (.ok (s.model.get? id key), s) := by
  have hnobody : s.subscribeCollector [] = s := by
    unfold Store.subscribeCollector
    split <;> rfl
  change some (_, s.subscribeCollector (s.model.cellAt? id key).toList) = _
  rw [hplain, Option.toList_none, hnobody]

/-- Writing a key without a cell through a path tells nobody. -/
theorem assign_plain (hfound : (s.model.followKeys path.text path.parents root).outcome = .ok (.object id))
    (hplain : s.model.cellAt? id path.last = none) (value : Value) :
    ∃ outcome, ∀ tell : SubscriberId → Run ρ σ Unit, assign tell path root value s = some outcome := by
  have hplain' : (s.subscribeCollector (s.model.followKeys path.text path.parents root).cells).model.cellAt? id
      path.last = none := by
    unfold Model.cellAt? at hplain ⊢
    rwa [Store.slot?_subscribeCollector]
  have hwrite := fun tell : SubscriberId → Run ρ σ Unit =>
    (assign_container hfound value).trans (setKey_plain hplain' tell value)
  split at hwrite
  · exact ⟨_, hwrite⟩
  · exact ⟨_, hwrite⟩

end Run

/-! ## Along whole runs -/

/-- Keys endure every change of a model. -/
theorem Model.endures : ModelDiscipline Model.Endures where
  refl := .refl
  trans := .trans
  subscribers := .updateSubscribers
  observed m json := .of_within (Model.observe_within json m)
  newObject m := .of_within (.pushObject m [])
  putPlain _ _ _ value hplain := .putPlain (Model.cellAt?_eq_none_iff.2 hplain) value
  setCellValue := .setCellValue

/-- Every change of a model leaves reactive keys with cells of their own. -/
theorem Model.stays_owned : ModelDiscipline fun m m' => m.Owned → m'.Owned where
  refl _ := id
  trans h₁ h₂ h := h₂ (h₁ h)
  subscribers _ cell f h := h.updateSubscribers cell f
  observed _ json h := Model.observe_owned json h
  newObject m h := h.pushObject (Model.spare_nil m)
  putPlain _ object key value _ h := h.putPlain object key value
  setCellValue _ cell value h := h.setCellValue cell value

namespace ModelDiscipline

variable {R : Model → Model → Prop}

/-- A relation between models holds from the start of a run to each store that it goes through, and from there
to its end. -/
theorem goesThrough (hR : ModelDiscipline R) {host : Host ρ σ} {depth : Nat} {script : Script ρ σ α}
    {s t s' : Store ρ σ} {result : Except Error α} (hthrough : script.GoesThrough host depth s t)
    (hrun : script.run host depth s = some (result, s')) : R s.model t.model ∧ R t.model s'.model :=
  Script.related_of_goesThrough (hR.host (ρ := ρ) (σ := σ)).toDiscipline
    (fun s cell value => hR.setCellValue s.model cell value)
    (fun _ _ hop respond depth s => hR.host.byHand hop respond depth s)
    (host.asks_of_all fun _ => trivial) (script.asks_of_all fun _ => trivial) hthrough hrun

/-- Whoever checks a relation between models at each operation of a run, at whatever depth of nested reactions,
never has occasion to do anything else. -/
theorem supervised (hR : ModelDiscipline R) (host : Host ρ σ) (depth : Nat) (script : Script ρ σ α)
    (s : Store ρ σ) (instead : (op : Op ρ σ) → Run ρ σ op.Answer) :
    script.runSupervised (fun u u' => R s.model u.model ∧ R u.model u'.model) instead host depth s =
      script.run host depth s := by
  have hstep : ∀ {u u' : Store ρ σ}, R s.model u.model → R u.model u'.model →
      R s.model u.model ∧ R u.model u'.model := fun h h' => ⟨h, h'⟩
  refine Script.run_supervised (P := fun u => R s.model u.model) (Q := fun _ => True) ⟨?_, ?_, ?_, ?_, ?_⟩ ?_
    (host.asks_of_all fun _ => trivial) instead (script.asks_of_all fun _ => trivial) depth (hR.refl s.model)
  · exact fun h => hR.trans h.1 h.2
  · exact fun h => hstep h (hR.refl _)
  · exact fun h h' => hstep h.1 (hR.trans h.2 h'.2)
  · exact fun hsteps h => hstep h (hR.step hsteps)
  · exact fun cell value h => hstep h (hR.setCellValue _ cell value)
  · exact fun op _ hop respond depth u result u' hrun h => hstep h (hR.host.byHand hop respond depth u _ _ hrun)

end ModelDiscipline

/-- Whatever a host does, in each operation and at each store that a run goes through, objects keep their keys in
their order with new keys after them, and each key keeps the cell behind it or has none; and if each reactive key
has a cell of its own this stays so. A key that an object does not have never gets a cell, and a plain key stays
plain. A key without a cell is read without any change to the store, adds no cell to what a path reads, and is
written in the same way whatever telling a subscriber would do. Each object of a document that is observed, at
any depth and at any time, becomes a new object with the same keys, and behind each of them there is a new cell
to which nobody is subscribed. -/
theorem cells_for_life (host : Host ρ σ) (depth : Nat) :
    (∀ (op : Op ρ σ) {s s' : Store ρ σ} {result : Except Error op.Answer},
      Run.perform (host.respond depth) depth op s = some (result, s') →
      s.model.Endures s'.model ∧ (s.model.Owned → s'.model.Owned)) ∧
    (∀ {α : Type} (script : Script ρ σ α) (s : Store ρ σ),
      (∀ instead, script.runSupervised (fun u u' => s.model.Endures u.model ∧ u.model.Endures u'.model) instead
        host depth s = script.run host depth s) ∧
      ∀ {t s' : Store ρ σ} {result : Except Error α}, script.GoesThrough host depth s t →
        script.run host depth s = some (result, s') → s.model.Endures t.model ∧ t.model.Endures s'.model ∧
          (s.model.Owned → t.model.Owned ∧ s'.model.Owned)) ∧
    (∀ {m m' : Model}, m.Endures m' → ∀ {id : ObjectId} {key : String}, m.Has (.object id) →
      (key ∉ m.keys id → m'.cellAt? id key = none) ∧
      ∀ {value}, m.slot? id key = some (.plain value) → ∃ value', m'.slot? id key = some (.plain value')) ∧
    (∀ {s : Store ρ σ} {id : ObjectId} {key : String}, s.model.cellAt? id key = none →
      Run.perform (host.respond depth) depth (.readKey id key) s = some (.ok (s.model.get? id key), s) ∧
      (∀ {text : String} {keys : List String} {root value : Value},
        (s.model.followKeys text keys root).outcome = .ok (.object id) → s.model.get? id key = some value →
        ∀ rest, (s.model.followKeys text (keys ++ key :: rest) root).cells =
          (s.model.followKeys text keys root).cells ++ (s.model.followKeys text rest value).cells) ∧
      (∀ (tell : SubscriberId → Run ρ σ Unit) (value : Value), Run.setKey tell id key value s =
        if (s.model.get? id key).any (·.strictEq value) then some (.ok false, s)
        else some (.ok true, s.storePlain id key value)) ∧
      ∀ {path : Path} {root : Value}, path.last = key →
        (s.model.followKeys path.text path.parents root).outcome = .ok (.object id) →
        ∀ value, ∃ outcome, ∀ tell : SubscriberId → Run ρ σ Unit, Run.assign tell path root value s = some outcome) ∧
    Model.Owned {} ∧
    ∀ (json : Json) (s : Store ρ σ), ∃ value t,
      Run.perform (host.respond depth) depth (.observe json) s = some (.ok value, t) ∧
      (∀ {text : String} {keys : List String} {members : List (String × Json)},
        Json.followKeys text keys json = .ok (.object members) →
        ∃ id, ¬ s.model.Has (.object id) ∧ t.model.Has (.object id) ∧
          (t.model.followKeys text keys value).outcome = .ok (.object id) ∧
          t.model.keys id = members.map Prod.fst) ∧
      ∀ {id : ObjectId} {key : String}, ¬ s.model.Has (.object id) → key ∈ t.model.keys id →
        ∃ cell, t.model.cellAt? id key = some cell ∧ ¬ s.model.Has (.cell cell) ∧ t.model.Has (.cell cell) ∧
          (t.model.cell cell).subscribers = [] := by
  refine ⟨fun op _ _ _ hrun => ?_, fun script s => ⟨fun instead => ?_, fun hthrough hrun => ?_⟩,
    fun hendures _ _ hid => ⟨fun hkey => ?_, hendures.plain hid⟩, fun hplain => ⟨?_, ?_, ?_, ?_⟩,
    Model.owned_empty, fun json s => ⟨_, _, rfl, ?_, ?_⟩⟩
  · exact ⟨Model.endures.host.perform host depth op _ _ _ hrun,
      Model.stays_owned.host.perform host depth op _ _ _ hrun⟩
  · exact Model.endures.supervised host depth script s instead
  · obtain ⟨hbefore, hafter⟩ := Model.endures.goesThrough hthrough hrun
    obtain ⟨hbefore', hafter'⟩ := Model.stays_owned.goesThrough hthrough hrun
    exact ⟨hbefore, hafter, fun howned => ⟨hbefore' howned, hafter' (hbefore' howned)⟩⟩
  · rw [hendures.cellAt? hid, Model.cellAt?_eq_none_iff]
    intro cell hslot
    exact hkey (Model.slot?_isSome_iff.1 (by rw [hslot]; rfl))
  · exact Run.readKey_plain hplain _ depth
  · exact fun hfound hvalue rest => Model.cells_of_plain hfound hplain hvalue rest
  · exact fun tell value => Run.setKey_plain hplain tell value
  · rintro path root rfl hfound value
    exact Run.assign_plain hfound hplain value
  · exact fun hfound => Model.observe_object hfound s.model
  · exact fun hnew hkey => Model.observe_cells json s.model hnew hkey

/-! A key that a reaction adds in the middle of a cycle. -/

/-- A host whose reaction adds a key next to the one that has changed, and then writes it again. -/
def annotating : Host Unit Unit where
  script _ _ := do
    let _ ← Script.perform (.assign ⟨["user"], "note"⟩ (.object ⟨1⟩) (.string "seen"))
    let _ ← Script.perform (.assign ⟨["user"], "note"⟩ (.object ⟨1⟩) .null)

/-- A user with a name. -/
def userData : Store Unit Unit :=
  Store.observing (.object [("user", .object [("name", .string "Ann")])]) {} ()

/-- The name is watched and then written. -/
def renameUser : Script Unit Unit Bool := do
  let _ ← Script.perform (.watch (.object ⟨1⟩) ⟨["user"], "name"⟩ .refresh ())
  Script.perform (.assign ⟨["user"], "name"⟩ (.object ⟨1⟩) (.string "Bob"))

/-- The name keeps its cell, and the new key comes after it and has none; it is written without telling anybody. -/
theorem cells_for_life_annotating : ∃ s', renameUser.run annotating 2 userData = some (.ok true, s') ∧
    userData.model.Endures s'.model ∧ s'.model.Owned ∧ s'.model.keys ⟨0⟩ = ["name", "note"] ∧
    s'.model.cellAt? ⟨0⟩ "name" = some ⟨0⟩ ∧ s'.model.cellAt? ⟨0⟩ "note" = none ∧
    ∀ (tell : SubscriberId → Run Unit Unit Unit) (value : Value), Run.setKey tell ⟨0⟩ "note" value s' =
      if (s'.model.get? ⟨0⟩ "note").any (·.strictEq value) then some (.ok false, s')
      else some (.ok true, s'.storePlain ⟨0⟩ "note" value) := by
  let run := renameUser.run annotating 2 userData
  have hdone : run.isSome = true := by decide +kernel
  have hresult : ∀ outcome ∈ run, outcome.1.toOption = some true ∧
      outcome.2.model.keys ⟨0⟩ = ["name", "note"] := by decide +kernel
  obtain ⟨⟨result, s'⟩, hrun⟩ := Option.isSome_iff_exists.1 hdone
  obtain ⟨hok, hkeys⟩ := hresult _ hrun
  obtain rfl : result = .ok true := by
    cases result with
    | ok changed => exact congrArg Except.ok (Option.some.inj hok)
    | error e => cases hok
  obtain ⟨-, hscripts, hlate, hplain, hempty, -⟩ := cells_for_life annotating 2
  obtain ⟨-, hendures, howned⟩ := (hscripts renameUser userData).2 (.inl rfl) hrun
  have hhas : userData.model.Has (.object ⟨0⟩) :=
    show 0 < userData.model.objects.size by decide +kernel
  have hnew : "note" ∉ userData.model.keys ⟨0⟩ := by decide +kernel
  have hnote := (hlate hendures hhas).1 hnew
  have hname : s'.model.cellAt? ⟨0⟩ "name" = some ⟨0⟩ := (hendures.cellAt? hhas "name").trans (by decide +kernel)
  exact ⟨s', hrun, hendures, (howned (Model.observe_owned _ hempty)).2, hkeys, hname, hnote, (hplain hnote).2.2.1⟩

end DataBinding
