import DataBinding.Proofs.Runs.OperationCascades
import DataBinding.Proofs.Runs.Writes
import DataBinding.Proofs.Watching.Disposal
import DataBinding.Proofs.Watching.Kept
import DataBinding.ViewModel

/-!
# After a view model is disposed

Disposing a view model disposes its watchers and lets go of them, and changes nothing else. So its bindings
are silent from then on, and the nodes that only they show something on stay as they are. The listeners are
still there: what is typed over a value is still written into the model.
-/

set_option autoImplicit false

namespace DataBinding

variable {ρ σ α : Type}

/-! ## Disposing all watchers -/

namespace Store

variable {s : Store ρ σ} {id : SubscriberId}

/-- The store once watchers are stopped for ever and let go of. -/
def retire (s : Store ρ σ) (ids : List SubscriberId) : Store ρ σ :=
  ids.foldl (fun s id => (s.dispose id).release id) s

/-- Watchers are disposed, and let go of, and nothing else happens. -/
structure Retired (s : Store ρ σ) (ids : List SubscriberId) (s' : Store ρ σ) : Prop where
  model : s'.model = s.model
  view : s'.view = s.view
  collector : s'.collector = s.collector
  host : s'.host = s.host
  journal : s'.journal = s.journal
  watcher : ∀ id, s'.watcher? id =
    if id ∈ ids then (s.watcher? id).map ({ · with disposed := true }) else s.watcher? id

/-- To retire watchers disposes them and changes nothing else that is seen. -/
theorem retired_retire (ids : List SubscriberId) (s : Store ρ σ) : s.Retired ids (s.retire ids) := by
  induction ids generalizing s with
  | nil => exact ⟨rfl, rfl, rfl, rfl, rfl, fun id => by rw [if_neg List.not_mem_nil]; rfl⟩
  | cons first rest ih =>
    have hrest := ih ((s.dispose first).release first)
    refine ⟨hrest.model, hrest.view, hrest.collector, hrest.host, hrest.journal, fun id => ?_⟩
    have hwatcher := hrest.watcher id
    rw [watcher?_release, watcher?_dispose] at hwatcher
    refine hwatcher.trans ?_
    by_cases hfirst : first = id
    · subst hfirst
      rw [if_pos rfl, if_pos List.mem_cons_self]
      split
      · cases s.watcher? first <;> rfl
      · rfl
    · simp only [if_neg hfirst, List.mem_cons, Ne.symm hfirst, false_or]

/-- A watcher among those retired is disposed. -/
theorem Retired.isDisposed {ids : List SubscriberId} {s' : Store ρ σ} {w : Watcher ρ}
    (h : s.Retired ids s') (hid : id ∈ ids) (hw : s.watcher? id = some w) : s'.IsDisposed id := by
  refine ⟨{ w with disposed := true }, ?_, rfl⟩
  rw [h.watcher, if_pos hid, hw]
  rfl

/-- What is shown by those who remain is within a scope. -/
theorem Retired.showsWithin {ids : List SubscriberId} {s' : Store ρ σ} {scope : Scope}
    (h : s.Retired ids s') (hrest : ∀ id w, s.watcher? id = some w → w.disposed = false → id ∉ ids →
      ∀ node ∈ w.reaction.node?, scope.writes node) : s'.ShowsWithin scope := by
  intro id w hw hactive node hnode
  rw [h.watcher] at hw
  split at hw
  · obtain ⟨v, -, rfl⟩ := Option.map_eq_some_iff.1 hw
    cases hactive
  · next hid => exact hrest id w hw hactive hid node hnode

end Store

namespace ViewModel

/-- To dispose all watchers retires them. -/
theorem disposeAll_ends (respond : Respond ρ σ) (depth : Nat) (ids : List SubscriberId) (s : Store ρ σ) :
    (disposeAll ids).Ends (Run.perform respond depth) s (.ok ()) (s.retire ids) := by
  induction ids generalizing s with
  | nil => exact Script.ends_done _ s
  | cons id rest ih =>
    have hdispose : (Script.perform (.dispose id) : Script ρ σ Unit).Ends (Run.perform respond depth) s
        (.ok ()) (s.dispose id) := Script.ends_perform rfl
    have hrelease : (Script.perform (.release id) : Script ρ σ Unit).Ends (Run.perform respond depth)
        (s.dispose id) (.ok ()) ((s.dispose id).release id) := Script.ends_perform rfl
    exact hdispose.bind (hrelease.bind (ih _))

/-- Disposing a view model always comes back. -/
theorem dispose_run (vm : ViewModel) (host : Host ρ σ) (depth : Nat) (s : Store ρ σ) :
    vm.dispose.run host depth s = some (.ok { vm with watchers := [] }, s.retire vm.watchers) :=
  ((disposeAll_ends (host.respond depth) depth vm.watchers s).bind (Script.ends_done _ _)).runWith

end ViewModel

/-! ## What runs leave alone -/

/-- The scope of all nodes but one, with what may be typed over values. -/
def Scope.allBut (node : NodeId) (types : NodeId → String → Prop) : Scope := ⟨(· ≠ node), types⟩

/-- If no operation counts, every script passes errors on. -/
theorem Script.passesOn_nothing (script : Script ρ σ α) : script.PassesOn fun _ => False := by
  induction script with
  | done result => trivial
  | ask op next ih => exact ⟨False.elim, ih⟩

variable {host : Host ρ σ} {scope : Scope} {s s' : Store ρ σ}

/-- A script spares what is outside a scope, if nobody shows something there and no reaction asks for
anything that writes there. -/
theorem Script.spares_run (hhost : host.Asks (·.Within scope)) {script : Script ρ σ α}
    (hscript : script.Asks (·.Within scope)) (hshows : s.ShowsWithin scope) {depth : Nat}
    {result : Except Error α} (hrun : script.run host depth s = some (result, s')) :
    s.view.Spares scope s'.view := by
  have hpass : host.PassesOn fun _ => False := fun reaction stimulus => Script.passesOn_nothing _
  have hcascade := Script.cascades_runWith (fun op hop s => host.cascades_perform hhost hpass depth hop s)
    hscript script.passesOn_nothing s hshows result s' hrun
  exact hcascade.spares

/-- What an input does to the node whose value is typed over, if nobody else shows anything there. -/
theorem Run.typed_input {node : NodeId} {types : NodeId → String → Prop} {text : String} {depth : Nat}
    {result : Except Error Unit} (hhost : host.Asks (·.Within (.allBut node types)))
    (hshows : s.ShowsWithin (.allBut node types)) (hnode : node.index < s.view.nodes.size)
    (hrun : Run.input (host.respond depth) node text s = some (result, s')) :
    ∃ value, s'.view.node node = { s.view.node node with value } ∧ (value = text ∨ types node value) := by
  have hpass : host.PassesOn fun _ => False := fun reaction stimulus => Script.passesOn_nothing _
  have hrespond := host.cascades_respond hhost hpass depth
  let typed := s.withView (·.typeOver node text)
  have heach : Run.each (typed.view.node node).listeners (Run.hear (host.respond depth) text) typed =
      some (result, s') := hrun
  have hshown : typed.ShowsWithin (.allBut node types) := hshows
  have hcascade : Cascade (.allBut node types) (fun _ => False) host typed (failure? result) s' :=
    Run.cascades_each _ (fun listener _ s => Run.cascades_hear hrespond text listener) hshown _ _ heach
  have hlt : node.index < typed.view.nodes.size := by
    simpa [typed, Store.withView, View.typeOver] using hnode
  obtain ⟨value, hvalue, htyped⟩ := hcascade.spares.node hlt fun hne => hne rfl
  have hover : typed.view.node node = { s.view.node node with value := text } := by
    change (s.view.typeOver node text).node node = _
    rw [View.typeOver, View.node_update, if_pos ⟨rfl, hnode⟩]
  rw [hover] at hvalue htyped
  exact ⟨value, hvalue, htyped⟩

/-! ## Inputs -/

/-- What is typed over a value whose first listener writes a cell is in the cell already, or it is stored
there before anything else happens. -/
theorem Run.stored_of_input {node : NodeId} {text : String} {root : Value} {path : Path} {cell : CellId}
    {rest : List (Listener ρ)} {depth : Nat} {result : Except Error Unit} (hidle : s.collector = none)
    (hlisteners : (s.view.node node).listeners = .assign root path :: rest)
    (htarget : s.model.target? path root = some cell)
    (hrun : Run.input (host.respond depth) node text s = some (result, s')) :
    (s.model.cell cell).value.strictEq (.string text) = true ∨
      ((s.withView (·.typeOver node text)).storeCell cell (.string text)).Kept s' := by
  let typed := s.withView (·.typeOver node text)
  have htyped : (typed.view.node node).listeners = .assign root path :: rest := by
    change ((s.view.typeOver node text).node node).listeners = _
    rw [View.typeOver, View.node_update]
    split <;> exact hlisteners
  have heach : Run.each (typed.view.node node).listeners (Run.hear (host.respond depth) text) typed =
      some (result, s') := hrun
  rw [htyped] at heach
  cases hsame : (s.model.cell cell).value.strictEq (.string text) with
  | true => exact .inl rfl
  | false =>
    refine .inr ?_
    have hkept : Respond.Keeps Store.Kept (host.respond depth) := Store.kept.respond host depth
    have hdiscipline : Discipline (Store.Kept : Store ρ σ → Store ρ σ → Prop) := Store.kept.toDiscipline
    have hassign : Run.assign (Run.update (host.respond depth)) path root (.string text) typed =
        (do Run.writing (Run.notify (Run.update (host.respond depth)) cell); Run.done true : Run ρ σ Bool)
          (typed.storeCell cell (.string text)) :=
      (Run.assign_eq_setCell (s := typed) hidle htarget _).trans (Run.setCell_other (s := typed) hsame)
    -- The other listeners come after the cycle.
    have hstored := Run.bind_congr (Run.bind_congr hassign fun _ => Run.done ())
      fun _ => Run.each rest (Run.hear (host.respond depth) text)
    have heach : _ = some (result, s') := hstored.symm.trans heach
    have hcycle : ∀ s, Run.Keeps Store.Kept s
        (Run.writing (Run.notify (Run.update (host.respond depth)) cell)) := fun s =>
      Run.keeps_writing hdiscipline
        (Run.keeps_notify hdiscipline (fun id _ => Run.keeps_update hdiscipline hkept id) cell)
    refine Run.keeps_bind hdiscipline (Run.keeps_bind hdiscipline (Run.keeps_bind hdiscipline (hcycle _)
      fun _ _ _ => Run.keeps_done hdiscipline true) fun _ _ _ => Run.keeps_done hdiscipline ())
      (fun _ _ _ => Run.keeps_each hdiscipline _ fun listener _ s => ?_) _ _ heach
    exact Run.keeps_hear Store.kept.toWriteDiscipline hkept text listener

/-! ## Silence -/

/-- Whatever a host does, and at whatever store a run of it has come to, nothing of a watcher that is disposed
there changes until the end of the run, and nothing is delivered to it. A cycle of notifications drops such a
watcher from the list of the cell before it tells anybody, and unless the host itself puts the watcher there
it is not in that list when the cycle has come back, nor ever after. Disposing a view model always comes back,
with all its watchers disposed, and with the model, the view and the journal as they were. From then on no run
changes a node that only those watchers show something on, apart from what is typed over its value. And
what is typed over a value that has a listener is still stored in the model, and the value is what was typed
until something else is typed over it. -/
theorem disposed_for_good (host : Host ρ σ) (depth : Nat) :
    (∀ {α : Type} {script : Script ρ σ α} {s t s' : Store ρ σ} {result : Except Error α},
      script.GoesThrough host depth s t → script.run host depth s = some (result, s') →
      ∀ id, t.IsDisposed id → t.Silent id s') ∧
    (∀ {id : SubscriberId} {cell : CellId} {s : Store ρ σ}, s.IsDisposed id →
      id ∉ (s.prune cell).entries cell ∧
      ∀ {t : Store ρ σ} {result : Except Error Unit}, host.Asks (·.NeverEnlists id) →
        s.collector ≠ some id → Run.notify (Run.update (host.respond depth)) cell s = some (result, t) →
        id ∉ t.entries cell ∧ ∀ {α : Type} {script : Script ρ σ α} {u s' : Store ρ σ}
          {result : Except Error α}, script.Asks (·.NeverEnlists id) → script.GoesThrough host depth u t →
          script.run host depth u = some (result, s') → id ∉ s'.entries cell) ∧
    (∀ (vm : ViewModel) (s : Store ρ σ), ∃ t,
      vm.dispose.run host depth s = some (.ok { vm with watchers := [] }, t) ∧ s.Retired vm.watchers t ∧
      (∀ {id : SubscriberId} {w : Watcher ρ}, id ∈ vm.watchers → s.watcher? id = some w → t.IsDisposed id) ∧
      ∀ {node : NodeId} {types : NodeId → String → Prop}, node.index < s.view.nodes.size →
        (∀ id w, s.watcher? id = some w → w.disposed = false → w.reaction.node? = some node →
          id ∈ vm.watchers) → host.Asks (·.Within (.allBut node types)) →
        ∀ {α : Type} {script : Script ρ σ α} {s' : Store ρ σ} {result : Except Error α},
          script.Asks (·.Within (.allBut node types)) → script.run host depth t = some (result, s') →
          ∃ value, s'.view.node node = { s.view.node node with value } ∧
            (value = (s.view.node node).value ∨ types node value)) ∧
    (∀ {s s' : Store ρ σ} {node : NodeId} {text : String} {root : Value} {path : Path} {cell : CellId}
      {rest : List (Listener ρ)} {result : Except Error Unit}, s.collector = none →
      (s.view.node node).listeners = .assign root path :: rest → s.model.target? path root = some cell →
      Run.input (host.respond depth) node text s = some (result, s') →
      ((s.model.cell cell).value.strictEq (.string text) = true ∨
        ((s.withView (·.typeOver node text)).storeCell cell (.string text)).Kept s') ∧
      ∀ {types : NodeId → String → Prop}, host.Asks (·.Within (.allBut node types)) →
        s.ShowsWithin (.allBut node types) → node.index < s.view.nodes.size →
        ∃ value, s'.view.node node = { s.view.node node with value } ∧
          (value = text ∨ types node value)) := by
  refine ⟨fun hthrough hrun _ hdisposed => Script.silent_of_goesThrough hthrough hrun hdisposed,
    fun hdisposed => ⟨Store.not_mem_prune hdisposed _, fun hhost hslot hnotify => ?_⟩, fun vm s => ?_,
    fun hidle hlisteners htarget hrun => ⟨Run.stored_of_input hidle hlisteners htarget hrun,
      fun hhost hshows hnode => Run.typed_input hhost hshows hnode hrun⟩⟩
  · have habsent := Store.absent_of_notify (Host.staysAbsent hhost _ depth) hdisposed hslot hnotify
    refine ⟨habsent.entry, fun hscript hthrough hrun => ?_⟩
    exact (Script.absent_of_goesThrough hhost hscript hthrough hrun habsent).entry
  · have hretired := Store.retired_retire vm.watchers s
    refine ⟨_, vm.dispose_run host depth s, hretired, fun hid hw => hretired.isDisposed hid hw,
      fun {node types} hnode hshown hhost {_ _ _ _} hscript hrun => ?_⟩
    -- Of the watchers that are left, none shows anything on the node.
    have hshows : (s.retire vm.watchers).ShowsWithin (.allBut node types) := by
      refine hretired.showsWithin fun id w hw hactive hid other hshows => ?_
      rintro rfl
      exact hid (hshown id w hw hactive hshows)
    have hspares := Script.spares_run hhost hscript hshows hrun
    rw [hretired.view] at hspares
    exact hspares.node hnode fun hne => hne rfl

/-! A watcher that is disposed while its turn is still to come. -/

/-- A host of which one reaction disposes the second watcher. -/
def silencing : Host Bool Unit where
  script silences stimulus :=
    match silences, stimulus with
    | true, .delivered _ => Script.perform (.dispose ⟨1⟩)
    | _, _ => pure ()

/-- A watcher of one property. -/
def rival (silences : Bool) : Watcher Bool where
  root := .object ⟨0⟩
  path := ⟨[], "x"⟩
  policy := .refresh
  reaction := .hosted silences

/-- Two watchers of one property. The reaction of the first disposes the second. -/
def rivals : Store Bool Unit where
  model := {
    objects := #[[("x", .reactive ⟨0⟩)]]
    cells := #[{ subscribers := [⟨0⟩, ⟨1⟩] }] }
  subscribers := #[⟨1, .watching (rival true)⟩, ⟨1, .watching (rival false)⟩]
  host := ()

/-- The property is written. -/
def writeX : Script Bool Unit Bool := Script.perform (.setKey ⟨0⟩ "x" (.string "new"))

/-- The store in which the second watcher is disposed: the first has received the value. -/
def rivalsAtDisposal : Store Bool Unit :=
  (((rivals.cycleStart ⟨0⟩ (.string "new")).retain ⟨0⟩).deliverTo ⟨0⟩ (.string "new")).dispose ⟨1⟩

/-- The run comes by that store, in the middle of the cycle. -/
theorem writeX_goesThrough : writeX.GoesThrough silencing 2 rivals rivalsAtDisposal := by
  have hruns : (writeX.run silencing 2 rivals).isSome = true := by decide +kernel
  refine .inr fun heq => ?_
  have hstops : writeX.runSupervised (fun u u' => u ≠ rivalsAtDisposal ∧ u' ≠ rivalsAtDisposal)
      (fun _ => Run.diverge) silencing 2 rivals = none := by
    let respond := silencing.supervised (fun u u' => u ≠ rivalsAtDisposal ∧ u' ≠ rivalsAtDisposal)
      (fun _ => Run.diverge) 2
    have hreact : respond true (.delivered (.string "new"))
        (((rivals.cycleStart ⟨0⟩ (.string "new")).retain ⟨0⟩).deliverTo ⟨0⟩ (.string "new")) = none :=
      Script.runWith_ask_none _ (Run.supervised_waiting rfl)
    have hupdate : Run.update respond ⟨0⟩ ((rivals.cycleStart ⟨0⟩ (.string "new")).retain ⟨0⟩) = none :=
      (Run.update_delivered (w := rival true) rfl rfl rfl rfl).trans hreact
    have hvisit : Run.visit (Run.update respond) ⟨0⟩ (rivals.cycleStart ⟨0⟩ (.string "new")) = none := by
      rw [Run.visit_live (by decide), hupdate]
      rfl
    have hnotify : Run.notify (Run.update respond) ⟨0⟩ (rivals.storeCell ⟨0⟩ (.string "new")) = none := by
      change (Run.visit (Run.update respond) ⟨0⟩ >>= fun _ =>
        Run.each [⟨1⟩] (Run.visit (Run.update respond))) (rivals.cycleStart ⟨0⟩ (.string "new")) = none
      rw [Run.bind_apply, hvisit]
    have hwrite : Run.setKey (Run.update respond) ⟨0⟩ "x" (.string "new") rivals = none := by
      have hslot : rivals.model.slot? ⟨0⟩ "x" = some (.reactive ⟨0⟩) := rfl
      rw [Run.setKey_reactive hslot, Run.setCell_other rfl, Run.bind_apply]
      unfold Run.writing
      rw [hnotify]
    exact Script.runWith_ask_none _ (Run.supervised_none hwrite)
  rw [← heq, hstops] at hruns
  cases hruns

/-- The second watcher is still in the list when it is disposed, and is not told. -/
theorem disposed_for_good_in_cycle : ∃ s', writeX.run silencing 2 rivals = some (.ok true, s') ∧
    rivalsAtDisposal.IsDisposed ⟨1⟩ ∧ rivalsAtDisposal.entries ⟨0⟩ = [⟨0⟩, ⟨1⟩] ∧
    rivalsAtDisposal.Silent ⟨1⟩ s' := by
  let run := writeX.run silencing 2 rivals
  have hdone : run.isSome = true := by decide +kernel
  have hresult : ∀ outcome ∈ run, outcome.1.toOption = some true := by decide +kernel
  obtain ⟨⟨result, s'⟩, hrun⟩ := Option.isSome_iff_exists.1 hdone
  have hok : result = .ok true := by
    have h := hresult _ hrun
    cases result with
    | ok changed => exact congrArg Except.ok (Option.some.inj h)
    | error e => cases h
  subst hok
  have hdisposed : rivalsAtDisposal.IsDisposed ⟨1⟩ := ⟨{ rival false with disposed := true }, rfl, rfl⟩
  exact ⟨s', hrun, hdisposed, by decide +kernel,
    (disposed_for_good silencing 2).1 writeX_goesThrough hrun ⟨1⟩ hdisposed⟩

end DataBinding
