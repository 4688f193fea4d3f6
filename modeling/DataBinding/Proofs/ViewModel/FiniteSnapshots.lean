import DataBinding.Proofs.Model.Encoding
import DataBinding.Proofs.Runs.CellsForLife
import DataBinding.Proofs.Runs.Guarded
import DataBinding.ViewModel

/-!
# Writes that keep snapshots finite

A value can be written out unless objects contain themselves. Whether a write closes such a loop depends on what is
written and where: it does exactly if the object that is written into is the value, or is contained in it. So a
run in which no write does this leaves every value of the model such that its document, its text and the snapshot
of a view model come back, at its end and at every store that it goes through.
-/

set_option autoImplicit false

namespace DataBinding

variable {ρ σ : Type}

/-! ## Writing values out -/

/-- Any value is displayed if no object contains itself. -/
theorem Run.display_comes_back {t : Store ρ σ} (h : t.model.Loopless) (value : Value) :
    ∃ text, Run.display value t = some (.ok text, t) := by
  obtain ⟨text, htext⟩ := Option.isSome_iff_exists.1 (Model.display?_isSome (Model.loopless_iff_json?.1 h value))
  refine ⟨String.ofList text, ?_⟩
  rw [display_apply, htext]
  rfl

/-- Any value is copied out if no object contains itself. -/
theorem Run.toJson_comes_back {t : Store ρ σ} (h : t.model.Loopless) (value : Value) :
    ∃ json, Run.toJson value t = some (.ok json, t) := by
  obtain ⟨json, hjson⟩ := Option.isSome_iff_exists.1 (Model.loopless_iff_json?.1 h value)
  refine ⟨json, ?_⟩
  rw [toJson_apply, hjson]
  rfl

/-- Observed data has a snapshot if no object contains itself. -/
theorem ViewModel.snapshot_comes_back {t : Store ρ σ} (h : t.model.Loopless) {vm : ViewModel} {model : Value}
    (hdata : vm.data = .reactive model) (host : Host ρ σ) (depth : Nat) :
    ∃ json, vm.snapshot.run host depth t = some (.ok json, t) := by
  obtain ⟨json, hjson⟩ := Run.toJson_comes_back h model
  have hop : Run.perform (host.respond depth) depth (.toJson model) t = some (.ok json, t) := hjson
  refine ⟨json, ?_⟩
  rw [ViewModel.snapshot_reactive hdata]
  exact Script.runWith_ask _ hop

/-- In a document that has just been observed, every key has a cell of its own, and no object contains itself. -/
theorem Store.orderly_observing (json : Json) (view : View ρ) (state : σ) :
    (Store.observing json view state).model.Orderly :=
  Model.durable_orderly.observed ⟨Model.owned_empty, Model.loopless_empty⟩ json

/-- Where each reactive key has a cell of its own and no object contains itself, storing a value under a key of an
object keeps it so exactly if the object is neither the value nor contained in it, over any number of cells and
plain fields; and no object contains itself exactly if every value has a document. A write of a key stores the
value first, and so does a write through a path or a view model, with what the path leads to. So in every run of
any script with any host that starts where a document has been observed, or in any such model, and in which no
write of the script or of a nested reaction stores a value in an object that it is or contains, the document, the
text and the snapshot of every value come back, at the end of the run and at every store that it goes through. -/
theorem finite_snapshots (host : Host ρ σ) (depth : Nat) :
    (∀ {m : Model} {id : ObjectId} {key : String} {value : Value}, m.Owned → m.Loopless → m.Has (.object id) →
      ((m.store id key value).Loopless ↔ ¬ m.Includes value id)) ∧
    (∀ {m : Model}, m.Loopless ↔ ∀ value, (m.json? value).isSome) ∧
    (∀ {s : Store ρ σ} {id : ObjectId} {key : String} {value : Value},
      (s.storeKey id key value).model = s.model.store id key value ∧
      ((∀ current, s.model.get? id key = some current → current.strictEq value = false) →
        ∀ tell, Run.setKey tell id key value s =
          (do Run.tellOf tell (s.model.cellAt? id key); Run.done true : Run ρ σ Bool) (s.storeKey id key value)) ∧
      ∀ {path : Path} {root : Value}, path.last = key →
        (s.model.followKeys path.text path.parents root).outcome = .ok (.object id) →
        (∀ tell, Run.assign tell path root value s = Run.setKey tell id key value
          (s.subscribeCollector (s.model.followKeys path.text path.parents root).cells)) ∧
        ∀ {vm : ViewModel} {text : String}, vm.data = .reactive root → Path.parse text = .ok path →
          vm.set text value = (do return (← Script.perform (.assign path root value), vm) :
            Script ρ σ (Bool × ViewModel))) ∧
    (∀ (json : Json) (view : View ρ) (state : σ), (Store.observing json view state).model.Orderly) ∧
    ∀ {α : Type} {script : Script ρ σ α} {s s' : Store ρ σ} {result : Except Error α}, s.model.Orderly →
      script.runGuarded host depth s = some (result, s') →
      script.run host depth s = some (result, s') ∧
      ∀ t, t = s' ∨ script.GoesThrough host depth s t → t.model.Loopless ∧ ∀ value,
        (∃ json, Run.toJson value t = some (.ok json, t)) ∧ (∃ text, Run.display value t = some (.ok text, t)) ∧
        ∀ vm : ViewModel, vm.data = .reactive value → ∃ json, vm.snapshot.run host depth t = some (.ok json, t) := by
  refine ⟨fun howned hloopless hid => hloopless.store_iff howned hid, Model.loopless_iff_json?,
    fun {s id key value} => ⟨s.model_storeKey id key value, Run.setKey_storeKey, ?_⟩,
    Store.orderly_observing, fun horderly hguarded => ?_⟩
  · rintro path root rfl hfound
    exact ⟨fun tell => Run.assign_container hfound value,
      fun hdata hparse => ViewModel.set_reactive hdata hparse value⟩
  · obtain ⟨hrun, hend⟩ := Script.run_of_runGuarded horderly hguarded
    refine ⟨hrun, fun t ht => ?_⟩
    have hloopless : t.model.Loopless := by
      rcases ht with rfl | hthrough
      · exact hend.loopless
      · exact (Script.orderly_of_goesThrough horderly hguarded hthrough).loopless
    exact ⟨hloopless, fun value => ⟨Run.toJson_comes_back hloopless value, Run.display_comes_back hloopless value,
      fun vm hdata => ViewModel.snapshot_comes_back hloopless hdata host depth⟩⟩

/-! A branch that is moved, and shared on the way. -/

/-- A host that does nothing of its own. -/
def idleHost : Host Unit Unit where
  script _ _ := pure ()

/-- Two branches of one document. -/
def twoBranches : Store Unit Unit :=
  Store.observing (.object [("left", .object [("x", .bool true)]), ("right", .object [])]) {} ()

/-- The left branch is put under a new key of the right one as well. -/
def shareBranch : Script Unit Unit Bool := Script.perform (.setKey ⟨1⟩ "twin" (.object ⟨0⟩))

/-- Nothing in the left branch leads to the right one. -/
theorem shareBranch_closes_no_loop :
    (.setKey ⟨1⟩ "twin" (.object ⟨0⟩) : Op Unit Unit).ClosesNoLoop twoBranches.model := by
  rintro id value ⟨rfl, rfl⟩ ⟨first, hfirst, hway⟩
  obtain rfl := Value.object.inj hfirst
  have hleaves : ∀ entry ∈ twoBranches.model.entries ⟨0⟩, entry.2.object? = none := by decide +kernel
  rcases hway.cases_head with heq | ⟨next, ⟨key, hentry⟩, -⟩
  · cases heq
  · cases hleaves _ hentry

/-- The branch is shared, the root still has a snapshot, and a loop is closed only by what leads back. -/
theorem finite_snapshots_shared : ∃ s', shareBranch.run idleHost 1 twoBranches = some (.ok true, s') ∧
    s'.model.Loopless ∧ (∃ json, Run.toJson (.object ⟨2⟩) s' = some (.ok json, s')) ∧
    ¬ (s'.model.store ⟨0⟩ "back" (.object ⟨1⟩)).Loopless := by
  have hwrite : Run.guarded (idleHost.guarded 1) 1 (.setKey ⟨1⟩ "twin" (.object ⟨0⟩)) twoBranches =
      some (.ok true, twoBranches.storePlain ⟨1⟩ "twin" (.object ⟨0⟩)) :=
    (Run.guarded_eq shareBranch_closes_no_loop).trans rfl
  have hguarded : shareBranch.runGuarded idleHost 1 twoBranches =
      some (.ok true, twoBranches.storePlain ⟨1⟩ "twin" (.object ⟨0⟩)) := Script.runWith_ask _ hwrite
  obtain ⟨hiff, -, -, hstart, hruns⟩ := finite_snapshots idleHost 1
  obtain ⟨hrun, hafter⟩ := hruns (hstart _ _ _) hguarded
  obtain ⟨hloopless, hvalues⟩ := hafter _ (.inl rfl)
  refine ⟨_, hrun, hloopless, (hvalues (.object ⟨2⟩)).1, fun hbad => ?_⟩
  have howned := ((hstart _ _ _).owned.putPlain ⟨1⟩ "twin" (.object ⟨0⟩) :
    (twoBranches.storePlain ⟨1⟩ "twin" (.object ⟨0⟩)).model.Owned)
  have hhas : (twoBranches.storePlain ⟨1⟩ "twin" (.object ⟨0⟩)).model.Has (.object ⟨0⟩) :=
    show 0 < (twoBranches.storePlain ⟨1⟩ "twin" (.object ⟨0⟩)).model.objects.size by decide +kernel
  have htwin : ("twin", Value.object ⟨0⟩) ∈
      (twoBranches.storePlain ⟨1⟩ "twin" (.object ⟨0⟩)).model.entries ⟨1⟩ := List.mem_singleton.2 rfl
  exact (hiff howned hloopless hhas).1 hbad ⟨⟨1⟩, rfl, .single ⟨"twin", htwin⟩⟩

end DataBinding
