import DataBinding.Proofs.Model.Lookups
import DataBinding.Proofs.Runs.Writes

/-!
# What a write through a path does

A write through a path finds the object that the parents lead to and writes the last key of it. If there is no
such object, or the value is there already, nothing changes. Otherwise, as long as those who are told leave the
model alone, the path leads to the value afterwards, every path that does not read the written key leads where it
led, and only the list of the written cell may have lost entries. This holds because a path without cycles does
not read the key on its way to the object.
-/

set_option autoImplicit false

namespace DataBinding

variable {ρ σ : Type}

namespace Run

variable {s s' : Store ρ σ} {tell : SubscriberId → Run ρ σ Unit} {id : ObjectId} {key : String} {value root : Value}
  {path : Path}

/-! ## Cycles in which nobody changes the model -/

/-- Each turn that comes back leaves the model as it finds it, up to the first that fails. -/
def TurnsLeaveModel (tell : SubscriberId → Run ρ σ Unit) : List SubscriberId → Store ρ σ → Prop
  | [], _ => True
  | id :: rest, s => ∀ result s', visit tell id s = some (result, s') →
    s'.model = s.model ∧ (result = .ok () → TurnsLeaveModel tell rest s')

/-- A loop over turns that leave the model alone leaves it alone. -/
theorem model_of_turns {ids : List SubscriberId} {result : Except Error Unit} (hturns : TurnsLeaveModel tell ids s)
    (h : each ids (visit tell) s = some (result, s')) : s'.model = s.model := by
  induction ids generalizing s with
  | nil =>
    cases h
    rfl
  | cons id rest ih =>
    obtain ⟨e, hvisit, -⟩ | ⟨⟨⟩, s₁, hvisit, hrun⟩ := bind_cases h
    · exact (hturns _ _ hvisit).1
    · obtain ⟨hmodel, hrest⟩ := hturns _ _ hvisit
      exact (ih (hrest rfl) hrun).trans hmodel

/-- Nobody who is told of a value that is stored under a key changes the model. -/
def CycleLeavesModel (tell : SubscriberId → Run ρ σ Unit) (id : ObjectId) (key : String) (value : Value)
    (s : Store ρ σ) : Prop :=
  ∀ cell, s.model.cellAt? id key = some cell →
    TurnsLeaveModel tell ((s.cycleStart cell value).model.cell cell).subscribers (s.cycleStart cell value)

/-- What such a write leaves: the model with the value stored, and no entry of another list lost or added. -/
theorem alike_of_setKey {result : Except Error Bool} (hother : ∀ current, s.model.get? id key = some current →
      current.strictEq value = false) (hcycle : CycleLeavesModel tell id key value s)
    (h : setKey tell id key value s = some (result, s')) :
    result ≠ .ok false ∧ (s.model.store id key value).Alike s'.model ∧
      ∀ cell, s.model.cellAt? id key ≠ some cell →
        (s'.model.cell cell).subscribers = (s.model.cell cell).subscribers := by
  cases hcell : s.model.cellAt? id key with
  | none =>
    rw [setKey_storeKey hother, hcell] at h
    have hmodel := s.model_storeKey id key value
    cases h
    refine ⟨(fun heq => by cases heq), ?_, fun cell _ => ?_⟩
    · rw [hmodel]
      exact .refl _
    · rw [hmodel, Model.store_plain hcell]
      rfl
  | some written =>
    have hslot := Model.cellAt?_eq_some_iff.1 hcell
    have hget : s.model.get? id key = some (s.model.cell written).value := by
      unfold Model.get?
      rw [hslot]
      rfl
    rw [setKey_reactive hslot] at h
    rcases Store.setCell_cases h with ⟨hsame, -⟩ | ⟨outcome, s₁, heach, hend⟩
    · rw [hother _ hget] at hsame
      cases hsame
    · have hmodel : s'.model = (s.cycleStart written value).model := by
        have hturns := model_of_turns (hcycle written hcell) heach
        rcases hend with ⟨-, -, rfl⟩ | ⟨e, -, rfl⟩
        · exact hturns
        · exact hturns
      refine ⟨?_, ?_, fun cell hne => ?_⟩
      · rintro rfl
        rcases hend with ⟨-, heq, -⟩ | ⟨e, heq, -⟩ <;> cases heq
      · rw [hmodel, Model.store_reactive hcell]
        exact .updateSubscribers _ written _
      · have hcells : written ≠ cell := fun heq => hne (heq ▸ rfl)
        rw [hmodel]
        change (((s.model.setCellValue written value).updateSubscribers written _).cell cell).subscribers = _
        rw [Model.cell_updateSubscribers, if_neg fun heq => hcells heq.1, Model.cell_setCellValue,
          if_neg fun heq => hcells heq.1]

/-! ## Paths -/

/-- Resolving a path comes back with the value there, or with the error of following it. -/
theorem resolve_result (path : Path) (root : Value) (s : Store ρ σ) :
    (resolve path root s).map Prod.fst = some (s.model.peek path root) := by
  unfold resolve
  rw [look_bind, change_bind]
  unfold Model.peek
  cases (s.model.follow path root).outcome <;> rfl

/-- A write without a container fails at the first segment that is asked of no object, or of one without it. -/
theorem assign_nowhere (hidle : s.collector = none)
    (hnowhere : ∀ id, (s.model.followKeys path.text path.parents root).outcome ≠ .ok (.object id)) :
    ∃ before segment after found, path.segments = before ++ segment :: after ∧
      (s.model.followKeys path.text before root).outcome = .ok found ∧
      ((∀ id, found ≠ .object id) ∨ after ≠ [] ∧ ∃ id, found = .object id ∧ s.model.get? id segment = none) ∧
      ∀ (tell : SubscriberId → Run ρ σ Unit) (value : Value), assign tell path root value s =
        some (.error (.pathResolution path.text segment),
          (s.record (.raised (.pathResolution path.text segment))).record
            (.writeFailed (.pathResolution path.text segment))) := by
  cases hparents : (s.model.followKeys path.text path.parents root).outcome with
  | ok found =>
    have hleaf : ∀ id, found ≠ .object id := fun id heq => hnowhere id (by rw [hparents, heq])
    exact ⟨path.parents, path.last, [], found, rfl, hparents, .inl hleaf,
      fun tell value => assign_leaf hidle hparents hleaf value⟩
  | error e =>
    obtain ⟨before, segment, after, found, heq, rfl, hfound, hmissing⟩ := Model.followKeys_error hparents
    refine ⟨before, segment, after ++ [path.last], found, ?_, hfound, ?_,
      fun tell value => assign_error hidle hparents value⟩
    · unfold Path.segments
      rw [heq, List.append_assoc, List.cons_append]
    · cases found with
      | object id => exact .inr ⟨by simp, id, rfl, hmissing id rfl⟩
      | _ => exact .inl fun _ heq => by cases heq

/-- Storing a value that is strictly equal to the one under the key does nothing, whether the key is
reactive or plain. -/
theorem setKey_same {current : Value} (hget : s.model.get? id key = some current)
    (hsame : current.strictEq value = true) : setKey tell id key value s = some (.ok false, s) := by
  obtain ⟨slot, hslot, rfl⟩ := Option.map_eq_some_iff.1 hget
  cases slot with
  | plain found => exact setKey_plain_same hslot hsame
  | reactive cell =>
    rw [setKey_reactive hslot]
    exact setCell_same hsame

end Run

/-- In a model without cycles, in which each reactive key has a cell of its own, and with nobody in the collector
slot: a write through a path whose parents lead to no object fails, and names the path and the first segment that
is asked of something else than an object, or, before the last one, of an object without it; apart from the
journal nothing changes. If the value is there already nothing changes at all. Otherwise, if nobody who is told
changes the model, then whatever the write comes back with, the path leads to the value, every path that does not
read the written key comes to the value or the error that it came to, and only the list of the written cell is
another one. -/
theorem path_write {s : Store ρ σ} {path : Path} {root : Value} (hidle : s.collector = none)
    (hacyclic : s.model.Acyclic) (howned : s.model.Owned) (value : Value) :
    ((∀ id, (s.model.followKeys path.text path.parents root).outcome ≠ .ok (.object id)) →
      ∃ before segment after found, path.segments = before ++ segment :: after ∧
        (s.model.followKeys path.text before root).outcome = .ok found ∧
        ((∀ id, found ≠ .object id) ∨ after ≠ [] ∧ ∃ id, found = .object id ∧ s.model.get? id segment = none) ∧
        ∀ tell : SubscriberId → Run ρ σ Unit, Run.assign tell path root value s =
          some (.error (.pathResolution path.text segment),
            (s.record (.raised (.pathResolution path.text segment))).record
              (.writeFailed (.pathResolution path.text segment)))) ∧
    ∀ {id : ObjectId}, (s.model.followKeys path.text path.parents root).outcome = .ok (.object id) →
      s.model.Has (.object id) →
      (∀ {current}, s.model.get? id path.last = some current → current.strictEq value = true →
        ∀ tell : SubscriberId → Run ρ σ Unit, Run.assign tell path root value s = some (.ok false, s)) ∧
      ((∀ current, s.model.get? id path.last = some current → current.strictEq value = false) →
        ∀ {tell : SubscriberId → Run ρ σ Unit} {result : Except Error Bool} {s' : Store ρ σ},
          Run.CycleLeavesModel tell id path.last value s → Run.assign tell path root value s = some (result, s') →
          result ≠ .ok false ∧
          (Run.resolve path root s').map Prod.fst = some (.ok value) ∧
          (∀ (other : Path) (start : Value), (id, path.last) ∉ s.model.lookups other.segments start →
            (Run.resolve other start s').map Prod.fst = (Run.resolve other start s).map Prod.fst) ∧
          ∀ cell, s.model.cellAt? id path.last ≠ some cell →
            (s'.model.cell cell).subscribers = (s.model.cell cell).subscribers) := by
  refine ⟨fun hnowhere => ?_, fun {id} hfound hhas => ⟨fun hget hsame tell => ?_, ?_⟩⟩
  · obtain ⟨before, segment, after, found, hsegments, hbefore, hcase, hfails⟩ := Run.assign_nowhere hidle hnowhere
    exact ⟨before, segment, after, found, hsegments, hbefore, hcase, fun tell => hfails tell value⟩
  · rw [Run.assign_found hidle hfound]
    exact Run.setKey_same hget hsame
  · intro hother tell result s' hcycle hrun
    rw [Run.assign_found hidle hfound] at hrun
    obtain ⟨hresult, halike, hlists⟩ := Run.alike_of_setKey hother hcycle hrun
    refine ⟨hresult, ?_, fun other start hnot => ?_, hlists⟩
    · rw [Run.resolve_result, halike.peek]
      exact congrArg some (Model.followKeys_stored howned hhas hacyclic hfound)
    · rw [Run.resolve_result, Run.resolve_result, halike.peek]
      exact congrArg some (Model.followKeys_store howned hhas hnot)

/-! A write whose only subscriber fails. -/

/-- A host that wants no value. -/
def refusing : Host Unit Unit where
  script _ _ := .fail .notReactive

/-- A user whose name is watched. -/
def watchedName : Store Unit Unit where
  model := (Model.observe (.object [("user", .object [("name", .string "Ann")])]) {}).2.subscribe ⟨0⟩ ⟨0⟩
  subscribers := #[⟨1, .watching {
    root := .object ⟨1⟩, path := ⟨["user"], "name"⟩, policy := .refresh, reaction := .hosted (),
    baseline := .string "Ann" }⟩]
  host := ()

/-- The write comes back with the error, the name is the new one, and the user is where it was. -/
theorem path_write_refused : ∃ s',
    Run.assign (Run.update (refusing.respond 1)) ⟨["user"], "name"⟩ (.object ⟨1⟩) (.string "Bob") watchedName =
      some (.error .notReactive, s') ∧
    (Run.resolve ⟨["user"], "name"⟩ (.object ⟨1⟩) s').map Prod.fst = some (.ok (.string "Bob")) ∧
    (Run.resolve ⟨[], "user"⟩ (.object ⟨1⟩) s').map Prod.fst = some (.ok (.object ⟨0⟩)) := by
  let tell : SubscriberId → Run Unit Unit Unit := Run.update (refusing.respond 1)
  have halike := Model.Alike.updateSubscribers
    (Model.observe (.object [("user", .object [("name", .string "Ann")])]) {}).2 ⟨0⟩ (· ++ [⟨0⟩])
  have hacyclic : watchedName.model.Acyclic := by
    intro id text keys hkeys
    rw [show watchedName.model.followKeys text keys (.object id) = _ from halike.followKeys text keys _]
    exact Model.acyclic_observe _ id text keys hkeys
  have howned : watchedName.model.Owned := (Model.observe_owned _ Model.owned_empty).updateSubscribers _ _
  have hhas : watchedName.model.Has (.object ⟨0⟩) := show 0 < watchedName.model.objects.size by decide +kernel
  have hname : watchedName.model.get? ⟨0⟩ "name" = some (.string "Ann") := rfl
  have hother : ∀ current, watchedName.model.get? ⟨0⟩ "name" = some current →
      current.strictEq (.string "Bob") = false := by
    intro current hget
    obtain rfl := Option.some.inj (hname.symm.trans hget)
    decide
  have hcycle : Run.CycleLeavesModel tell ⟨0⟩ "name" (.string "Bob") watchedName := by
    intro cell hcell
    obtain rfl : cell = ⟨0⟩ := Option.some.inj (hcell.symm.trans rfl)
    have hturn : ∃ u, Run.visit tell ⟨0⟩ (watchedName.cycleStart ⟨0⟩ (.string "Bob")) = some (.error .notReactive, u) ∧
        u.model = (watchedName.cycleStart ⟨0⟩ (.string "Bob")).model := ⟨_, rfl, rfl⟩
    obtain ⟨u, hvisit, hmodel⟩ := hturn
    intro result s' hrun
    cases hvisit.symm.trans hrun
    exact ⟨hmodel, fun heq => by cases heq⟩
  have hrun : ∃ s', Run.assign tell ⟨["user"], "name"⟩ (.object ⟨1⟩) (.string "Bob") watchedName =
      some (.error .notReactive, s') := ⟨_, rfl⟩
  obtain ⟨s', hrun⟩ := hrun
  obtain ⟨-, hwrite⟩ := @path_write Unit Unit watchedName ⟨["user"], "name"⟩ (.object ⟨1⟩) rfl hacyclic howned
    (.string "Bob")
  obtain ⟨-, hvalue, hothers, -⟩ := (hwrite rfl hhas).2 hother hcycle hrun
  refine ⟨s', hrun, hvalue, (hothers ⟨[], "user"⟩ (.object ⟨1⟩) ?_).trans rfl⟩
  decide +kernel

end DataBinding
