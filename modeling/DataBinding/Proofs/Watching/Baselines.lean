import DataBinding.Proofs.Watching.Changes

/-!
# Baselines over whole runs

The main statement puts together what holds of every run and what holds of writes that nobody interferes with.
In every run the record of every watcher fits what was delivered to it (`Store.Told`), and an update that fails or
finds nothing new leaves it as it is. A watcher that has just been made at the end of a path to a cell is
`Store.Poised`, so during writes to the cell it is called with the changes that its policy asks for.

That reactions write nothing is not enough for this: `calls_tampered_with` shows four operations that write
nothing, and change what another watcher is called with. A watcher that is disposed or let go of before its turn
is not called, and a frozen one takes whatever it is told once more for another change.
-/

set_option autoImplicit false

namespace DataBinding

variable {ρ σ : Type}

/-- A watcher that has just been made is poised at the cell that its path leads to. -/
theorem Store.poised_of_watch {s s₀ : Store ρ σ} (htold : s.Told) (hknown : s.Known) (hsound : s.model.Sound)
    (hacyclic : s.model.Acyclic) {root : Value} {path : Path} {cell : CellId}
    (htarget : s.model.target? path root = some cell) {policy : BaselinePolicy} {reaction : Reaction ρ}
    {id : SubscriberId} (hwatch : Run.watch root path policy reaction s = some (.ok id, s₀)) :
    ∃ w, w.policy = policy ∧ w.baseline = (s.model.cell cell).value ∧ s₀.Poised s.model id w cell ∧
      (s₀.model.cell cell).value = (s.model.cell cell).value ∧ s₀.deliveries id = [] := by
  have hinside := Model.lt_size_of_target? hsound htarget
  have honce := hacyclic.count_follow htarget
  have hfollow := Model.follow_of_target? htarget
  rw [hfollow] at honce
  rw [Run.watch_ok policy reaction hfollow] at hwatch
  cases hwatch
  have honward := Model.onward_foldl_subscribe
    ((s.model.followKeys path.text path.parents root).cells ++ [cell]) s.nextSubscriber s.model
  refine ⟨{ root, path, policy, reaction, baseline := (s.model.cell cell).value }, rfl, rfl,
    ⟨⟨hsound, htarget, hacyclic.not_mem_trail htarget⟩, ⟨0, ?_, rfl⟩, ?_, honward.mono fun _ hp => hp.elim⟩,
    honward.value hinside not_false, ?_⟩
  · simp [enroll, nextSubscriber]
  · -- Nobody has had the handle before, and the path has led through the cell once.
    have hnobody : s.nextSubscriber ∉ s.entries cell := fun hmem =>
      Nat.lt_irrefl _ (hknown.entries hmem)
    have hentries := Model.subscribers_foldl_subscribe
      ((s.model.followKeys path.text path.parents root).cells ++ [cell]) s.nextSubscriber s.model hinside
    unfold entries enroll
    rw [hentries, List.count_append, List.count_replicate_self, honce]
    exact congrArg (· + 1) (List.count_eq_zero.2 hnobody)
  · rw [deliveries_enroll fun _ heq => by cases heq]
    exact htold.unknown (Nat.le_refl _)

/-- Whatever a host does, before and after each operation at any depth the counter of every watcher that was
made is the number of its calls, and its baseline is the value of the last call, or the value from its making if
there was none or the watcher is frozen. No call of a refreshing watcher is with a value strictly equal to the
one before, and none of a frozen one with a value strictly equal to that from its making. A supervisor who
would do something else where this fails does nothing else. An update that cannot resolve the path, or that finds
the value of the baseline, changes nothing but the journal; any other moves the baseline and the counter before
the reaction starts.

A watcher made in a model without cycles, at the end of a path to a cell, is called during writes to the
cell with the written values that change the cell, if it refreshes, and with those of them that differ from the
value from its making, if it is frozen. For this all reactions have to leave the watcher alone, writes to the
model included, and nobody else may fail when told. -/
theorem baselines_throughout (host : Host ρ σ) (depth : Nat) :
    (∀ {α : Type} (script : Script ρ σ α) (json : Json) (view : View ρ) (state : σ)
      (instead : (op : Op ρ σ) → Run ρ σ op.Answer),
      script.runSupervised (fun _ s' => s'.Told) instead host depth (Store.observing json view state) =
        script.run host depth (Store.observing json view state)) ∧
    (∀ {s : Store ρ σ} {id : SubscriberId} {w : Watcher ρ}, s.watcher? id = some w → w.disposed = false →
      (∀ e, s.model.peek w.path w.root = .error e → Run.update (host.respond depth) id s =
        some (.error e, (s.record (.updating id)).record (.raised e))) ∧
      ∀ value, s.model.peek w.path w.root = .ok value →
        (value.strictEq w.baseline = true →
          Run.update (host.respond depth) id s = some (.ok (), s.lookedAt id value)) ∧
        (value.strictEq w.baseline = false → Run.update (host.respond depth) id s =
          Run.react (host.respond depth) w.reaction value (s.deliverTo id value))) ∧
    (∀ {s s₀ s' : Store ρ σ} {root : Value} {path : Path} {policy : BaselinePolicy} {reaction : Reaction ρ}
      {cell : CellId} {id : SubscriberId} {values : List Value}, s.Told → s.Known → s.model.Sound →
      s.model.Acyclic → s.model.target? path root = some cell →
      Run.watch root path policy reaction s = some (.ok id, s₀) →
      Respond.Keeps (Store.LeavesAlone id) (host.respond depth) → host.Writes depth id cell values s₀ s' →
      s'.deliveries id = policy.calls (s.model.cell cell).value (s.model.cell cell).value values) := by
  refine ⟨fun script json view state instead => ?_, fun hw hactive => ⟨fun e hfailed => ?_,
    fun value hfound => ⟨fun hsame => ?_, fun hother => ?_⟩⟩, ?_⟩
  · exact Script.run_supervised Store.told_supervisable
      (fun _ _ hhand respond depth s => Store.told_byHand hhand respond depth s)
      (host.asks_of_all fun _ => trivial) instead (script.asks_of_all fun _ => trivial) depth
      (Store.told_observing json view state)
  · exact Run.update_failed hw hactive hfailed
  · exact Run.update_agreed hw hactive hfound hsame
  · exact Run.update_delivered hw hactive hfound hother
  · intro s s₀ s' root path policy reaction cell id values htold hknown hsound hacyclic htarget hwatch
      hrespond hwrites
    obtain ⟨w, rfl, hbaseline, hpoised, hvalue, hnone⟩ :=
      Store.poised_of_watch htold hknown hsound hacyclic htarget hwatch
    -- When the watcher is made it has met all changes so far.
    have hmet : w.baseline = w.policy.baseline (s.model.cell cell).value (s₀.model.cell cell).value := by
      rw [hvalue, hbaseline]
      cases w.policy <;> rfl
    rw [hwrites.deliveries hrespond hpoised hmet, hnone, hvalue, List.nil_append]

/-- A document with one property. -/
def unwatched : Store Bool Unit := Store.observing (.object [("x", .string "first")]) {} ()

/-! A watcher that fails, before one that recruits others. -/

/-- A host of which one reaction makes another watcher, and the other fails when a draft is delivered. -/
def fickle : Host Bool Unit where
  script recruits stimulus :=
    match recruits, stimulus with
    | true, .delivered _ => do
      let _ ← Script.perform (.watch (.object ⟨0⟩) ⟨[], "x"⟩ .refresh true)
    | false, .delivered value => if value.strictEq (.string "draft") then .fail .notReactive else pure ()
    | _, _ => pure ()

/-- Reactions of this host leave all watchers alone. -/
theorem fickle_leavesAlone (id : SubscriberId) (depth : Nat) :
    Respond.Keeps (Store.LeavesAlone id) (fickle.respond depth) := by
  intro recruits stimulus s result s' h
  cases depth with
  | zero => cases h
  | succ depth =>
    cases stimulus with
    | delivered value =>
      cases recruits with
      | true =>
        have h : (Script.ask _ _).runWith (Run.perform (fickle.respond depth) depth) s = some (result, s') := h
        unfold Script.runWith at h
        split at h
        · cases h
        · next answer s₁ hwatch =>
          have halone : s.LeavesAlone id s₁ := Run.leavesAlone_watch _ _ _ _ _ _ hwatch
          cases answer with
          | ok other =>
            cases h
            exact halone
          | error e =>
            cases h
            exact halone.trans (Store.leavesAlone_record fun _ heq => by cases heq)
      | false =>
        have h : (if value.strictEq (.string "draft") then .fail .notReactive else pure () :
          Script Bool Unit Unit).runWith (Run.perform (fickle.respond depth) depth) s = some (result, s') := h
        split at h
        · cases h
          exact Store.leavesAlone_record fun _ heq => by cases heq
        · cases h
          exact .refl s
    | _ =>
      cases recruits <;> (cases h; exact .refl s)

/-- A text is written into the property. -/
def fickleWrite (text : String) : Run Bool Unit Bool :=
  Run.perform (fickle.respond 3) 3 (.setCell ⟨0⟩ (.string text))

/-- The store once a text is written. -/
def afterWrite (text : String) (s : Store Bool Unit) : Store Bool Unit := ((fickleWrite text s).map (·.2)).getD s

/-- A text written through the fickle host is a write in which nobody but the watcher may fail. -/
theorem fickle_writes {text : String} {values : List Value} {s s' : Store Bool Unit} (hidle : s.collector = none)
    (hdone : (fickleWrite text s).isSome = true)
    (hothers : Run.othersSucceed (Run.update (fickle.respond 3)) ⟨0⟩
      ((s.cycleStart ⟨0⟩ (.string text)).entries ⟨0⟩) (s.cycleStart ⟨0⟩ (.string text)) = true)
    (hrest : fickle.Writes 3 ⟨0⟩ ⟨0⟩ values (afterWrite text s) s') :
    fickle.Writes 3 ⟨0⟩ ⟨0⟩ (.string text :: values) s s' := by
  obtain ⟨⟨answer, s₁⟩, hrun⟩ := Option.isSome_iff_exists.1 hdone
  have hafter : afterWrite text s = s₁ := by
    unfold afterWrite
    rw [hrun]
    rfl
  rw [hafter] at hrest
  exact .written hidle rfl hrun (fun _ => hothers) hrest

/-- The store in which the property is watched by the watcher that fails. -/
def watchedOnce : Store Bool Unit :=
  unwatched.enroll 1 {
    root := .object ⟨0⟩, path := ⟨[], "x"⟩, policy := .frozen, reaction := .hosted false,
    baseline := .string "first" } [⟨0⟩] (.made ⟨0⟩ [⟨0⟩] (.string "first"))

/-- The store in which it is watched by the other one, too. -/
def watchedTwice : Store Bool Unit :=
  watchedOnce.enroll 1 {
    root := .object ⟨0⟩, path := ⟨[], "x"⟩, policy := .refresh, reaction := .hosted true,
    baseline := .string "first" } [⟨0⟩] (.made ⟨1⟩ [⟨0⟩] (.string "first"))

/-- Four texts are written. The third is there already, and the second is the one that the frozen watcher was
made with. The first write fails, because that watcher does. -/
theorem baselines_throughout_fickle : ∃ s',
    Run.watch (.object ⟨0⟩) ⟨[], "x"⟩ .frozen (.hosted false) unwatched = some (.ok ⟨0⟩, watchedOnce) ∧
    fickle.Writes 3 ⟨0⟩ ⟨0⟩ [.string "draft", .string "first", .string "first", .string "final"] watchedOnce s' ∧
    s'.deliveries ⟨0⟩ = [.string "draft", .string "final"] ∧
    Run.update (fickle.respond 3) ⟨0⟩ watchedOnce = some (.ok (), watchedOnce.lookedAt ⟨0⟩ (.string "first")) := by
  have hwatch : Run.watch (.object ⟨0⟩) ⟨[], "x"⟩ .frozen (.hosted false) unwatched =
      some (.ok ⟨0⟩, watchedOnce) := Run.watch_ok .frozen _ rfl
  have hsecond : Run.watch (.object ⟨0⟩) ⟨[], "x"⟩ .refresh (.hosted true) watchedOnce =
      some (.ok ⟨1⟩, watchedTwice) := Run.watch_ok .refresh _ rfl
  have hwrites : fickle.Writes 3 ⟨0⟩ ⟨0⟩
      [.string "draft", .string "first", .string "first", .string "final"] watchedOnce
      (afterWrite "final" (afterWrite "first" (afterWrite "first" (afterWrite "draft" watchedTwice)))) := by
    refine .meanwhile (Run.leavesAlone_watch _ _ _ _ _ _ hsecond) ?_
    refine fickle_writes rfl (by decide +kernel) (by decide +kernel) ?_
    refine fickle_writes (by decide +kernel) (by decide +kernel) (by decide +kernel) ?_
    refine fickle_writes (by decide +kernel) (by decide +kernel) (by decide +kernel) ?_
    exact fickle_writes (by decide +kernel) (by decide +kernel) (by decide +kernel) (.finished _)
  have hknown : unwatched.Known := .of_cells (by decide) (by decide)
  obtain ⟨-, hupdates, hcalls⟩ := baselines_throughout fickle 3
  have hcalled := hcalls (Store.told_observing _ _ _) hknown (Store.accounted_observing _ _ _).sound
    (Model.acyclic_observe _) rfl hwatch (fickle_leavesAlone ⟨0⟩ 3) hwrites
  have hfrozen : watchedOnce.watcher? ⟨0⟩ = some {
      root := .object ⟨0⟩, path := ⟨[], "x"⟩, policy := .frozen, reaction := .hosted false,
      baseline := .string "first" } := rfl
  have hagreed := ((hupdates hfrozen rfl).2 (.string "first") rfl).1 (by decide)
  exact ⟨_, hwatch, hwrites, hcalled, hagreed⟩

/-! Reactions that write nothing, and are not harmless. -/

/-- A host of which one reaction asks for an operation as soon as something is delivered. -/
def tampering (op : Op Bool Unit) : Host Bool Unit where
  script tampers stimulus :=
    match tampers, stimulus with
    | true, .delivered _ => do let _ ← Script.perform op
    | _, _ => pure ()

/-- A tampering host asks only for its one operation. -/
theorem tampering_asks (op : Op Bool Unit) : (tampering op).Asks (· = op) := by
  intro tampers stimulus
  cases tampers with
  | false => trivial
  | true =>
    cases stimulus with
    | delivered value =>
      refine ⟨rfl, fun answer => ?_⟩
      cases answer with
      | ok _ => trivial
      | error _ => trivial
    | _ => trivial

/-- Texts are written into the property one after the other. -/
def writeTexts : List String → Script Bool Unit Bool
  | [] => pure true
  | text :: rest => do
    let changed ← Script.perform (.setKey ⟨0⟩ "x" (.string text))
    let others ← writeTexts rest
    pure (changed && others)

/-- Two watchers of the property are made, of which the first tampers, and texts are written. All writes come
back, and the calls of the second watcher are not those of its policy. -/
def Upsets (op : Op Bool Unit) (policy : BaselinePolicy) (texts : List String) : Prop :=
  let script := do
    let _ ← Script.perform (.watch (.object ⟨0⟩) ⟨[], "x"⟩ .refresh true)
    let _ ← Script.perform (.watch (.object ⟨0⟩) ⟨[], "x"⟩ policy false)
    writeTexts texts
  ∃ s', script.run (tampering op) 3 unwatched = some (.ok true, s') ∧
    s'.deliveries ⟨1⟩ ≠ policy.calls (.string "first") (.string "first") (texts.map .string)

/-- A run that can be checked to come back with other texts than those expected. -/
theorem differs_of_run {run : Option (Except Error Bool × Store Bool Unit)} {expected : List Value}
    (h : (run.any fun outcome => outcome.1.toOption == some true &&
      (outcome.2.deliveries ⟨1⟩).map Value.string? != expected.map Value.string?) = true) :
    ∃ s', run = some (.ok true, s') ∧ s'.deliveries ⟨1⟩ ≠ expected := by
  cases run with
  | none => cases h
  | some outcome =>
    obtain ⟨result, s'⟩ := outcome
    obtain ⟨hresult, hcalls⟩ := Bool.and_eq_true_iff.1 h
    have hresult : result.toOption = some true := eq_of_beq hresult
    cases result with
    | error e => cases hresult
    | ok changed =>
      obtain rfl := Option.some.inj hresult
      exact ⟨s', rfl, fun heq => bne_iff_ne.1 hcalls (congrArg _ heq)⟩

/-- The second watcher is not called if the first disposes it or lets go of it. If it is frozen, it is called
twice if the first has the cell notified again, or puts it into the list of the cell once more. -/
theorem calls_tampered_with : unwatched.model.Acyclic ∧ (∀ op, (tampering op).Asks (· = op)) ∧
    Upsets (.dispose ⟨1⟩) .refresh ["new"] ∧ Upsets (.release ⟨1⟩) .refresh ["new"] ∧
    Upsets (.notify ⟨0⟩) .frozen ["new"] ∧ Upsets (.subscribe ⟨0⟩ ⟨1⟩) .frozen ["new", "newer"] :=
  ⟨Model.acyclic_observe _, tampering_asks, differs_of_run (by decide +kernel), differs_of_run (by decide +kernel),
    differs_of_run (by decide +kernel), differs_of_run (by decide +kernel)⟩

end DataBinding
