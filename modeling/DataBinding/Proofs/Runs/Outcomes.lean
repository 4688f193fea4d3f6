import DataBinding.Proofs.Model.Onward
import DataBinding.Proofs.Runs.Discipline
import DataBinding.Proofs.Watching.Evolution

/-!
# What runs come back with

A discipline says what a run leaves as it is, if it comes back. Here it is shown that runs come back, and with
what. `Script.Ends` says that a script comes to an end, and in which store: unlike the run of a whole
script it does not write the last error into the journal, so that scripts which go on with an error can
be put together.

With the collector slot empty nobody is subscribed on the way to a container, and a write through a path is a
write of a key. The update of a watcher comes to one of four things, and each has its equation.
-/

set_option autoImplicit false

namespace DataBinding

variable {ρ σ α β : Type}

/-! ## Scripts -/

namespace Script

variable {carryOut : (op : Op ρ σ) → Run ρ σ op.Answer}

/-- A script that is carried out from a store comes to an end: with this result, in this store. -/
def Ends (carryOut : (op : Op ρ σ) → Run ρ σ op.Answer) :
    Script ρ σ α → Store ρ σ → Except Error α → Store ρ σ → Prop
  | .done outcome, s, result, s' => result = outcome ∧ s' = s
  | .ask op next, s, result, s' =>
    ∃ answer s₁, carryOut op s = some (answer, s₁) ∧ Ends carryOut (next answer) s₁ result s'

variable {s s₁ s' : Store ρ σ} {script : Script ρ σ α} {result : Except Error α}

/-- A script that is done ends at once. -/
theorem ends_done (outcome : Except Error α) (s : Store ρ σ) :
    (Script.done outcome).Ends carryOut s outcome s := ⟨rfl, rfl⟩

/-- A script of one operation ends with the answer to it. -/
theorem ends_perform {op : Op ρ σ} {answer : Except Error op.Answer}
    (h : carryOut op s = some (answer, s')) : (perform op).Ends carryOut s answer s' :=
  ⟨answer, s', h, ends_done answer s'⟩

/-- A script that goes on after another one ends where that leads it. -/
theorem Ends.chain (h : script.Ends carryOut s result s₁) {next : Except Error α → Script ρ σ β}
    {result' : Except Error β} (hnext : (next result).Ends carryOut s₁ result' s') :
    (script.chain next).Ends carryOut s result' s' := by
  induction script generalizing s with
  | done outcome =>
    obtain ⟨rfl, rfl⟩ := h
    exact hnext
  | ask op more ih =>
    obtain ⟨answer, s₂, hop, hmore⟩ := h
    exact ⟨answer, s₂, hop, ih answer hmore⟩

/-- A script that goes on with a result. -/
theorem Ends.bind {a : α} (h : script.Ends carryOut s (.ok a) s₁) {next : α → Script ρ σ β}
    {result' : Except Error β} (hnext : (next a).Ends carryOut s₁ result' s') :
    (script >>= next).Ends carryOut s result' s' :=
  Ends.chain h hnext

/-- A script that ends where its first part fails. -/
theorem Ends.bind_error {e : Error} (h : script.Ends carryOut s (.error e) s')
    (next : α → Script ρ σ β) : (script >>= next).Ends carryOut s (.error e) s' :=
  Ends.chain h (ends_done (.error e) s')

/-- An attempt ends with the result or the error of the script. -/
theorem Ends.attempt (h : script.Ends carryOut s result s') :
    script.attempt.Ends carryOut s (.ok result) s' :=
  Ends.chain h (ends_done (.ok result) s')

/-- A script that ends with a result is a run that comes back with it. -/
theorem Ends.runWith {a : α} (h : script.Ends carryOut s (.ok a) s') :
    script.runWith carryOut s = some (.ok a, s') := by
  induction script generalizing s with
  | done outcome =>
    obtain ⟨rfl, rfl⟩ := h
    rfl
  | ask op next ih =>
    obtain ⟨answer, s₁, hop, hnext⟩ := h
    rw [runWith_ask next hop]
    exact ih answer hnext

/-- A script that starts with an operation came back with the error of that, or went on with its answer. -/
theorem perform_cases {op : Op ρ σ} {next : op.Answer → Script ρ σ α}
    (h : (perform op >>= next).runWith carryOut s = some (result, s')) :
    (∃ e s₁, carryOut op s = some (.error e, s₁) ∧ result = .error e ∧ s' = s₁.record (.raised e)) ∨
      ∃ a s₁, carryOut op s = some (.ok a, s₁) ∧ (next a).runWith carryOut s₁ = some (result, s') := by
  cases hop : carryOut op s with
  | none =>
    have hnone : (perform op >>= next).runWith carryOut s = none := runWith_ask_none _ hop
    rw [hnone] at h
    cases h
  | some outcome =>
    obtain ⟨answer, s₁⟩ := outcome
    have hsome : (perform op >>= next).runWith carryOut s = _ := runWith_ask _ hop
    rw [hsome] at h
    cases answer with
    | error e =>
      cases h
      exact .inl ⟨e, s₁, rfl, rfl, rfl⟩
    | ok a => exact .inr ⟨a, s₁, rfl, h⟩

end Script

/-! ## Loops -/

namespace Run

/-- A loop does what it does for the first item, and goes on with the rest. -/
theorem each_cons (item : α) (rest : List α) (f : α → Run ρ σ Unit) :
    each (item :: rest) f = f item >>= fun _ => each rest f := rfl

/-- A loop over some items and others is one loop after the other. -/
theorem each_append {s : Store ρ σ} (items rest : List α) (f : α → Run ρ σ Unit) :
    each (items ++ rest) f s = (each items f >>= fun _ => each rest f) s := by
  induction items generalizing s with
  | nil => rfl
  | cons item items ih =>
    rw [List.cons_append, each_cons, each_cons, bind_apply, bind_apply, bind_apply]
    cases f item s with
    | none => rfl
    | some outcome =>
      obtain ⟨result, s'⟩ := outcome
      cases result with
      | error e => rfl
      | ok _ => exact ih

/-- A loop comes back if its first part does, and the rest does from there. -/
theorem each_append_ok {s s₁ : Store ρ σ} {items rest : List α} {f : α → Run ρ σ Unit}
    {outcome : Option (Except Error Unit × Store ρ σ)} (hitems : each items f s = some (.ok (), s₁))
    (hrest : each rest f s₁ = outcome) : each (items ++ rest) f s = outcome := by
  rw [each_append, bind_apply, hitems]
  exact hrest

/-- A loop goes on after a first item that came back with a result. -/
theorem each_cons_of_ok {s s₁ : Store ρ σ} {item : α} {rest : List α} {f : α → Run ρ σ Unit}
    {outcome : Option (Except Error Unit × Store ρ σ)} (hitem : f item s = some (.ok (), s₁))
    (hrest : each rest f s₁ = outcome) : each (item :: rest) f s = outcome := by
  rw [each_cons, bind_apply, hitem]
  exact hrest

end Run

/-! ## Updates -/

/-- The store once a watcher has looked at its path. -/
def Store.lookedAt (s : Store ρ σ) (id : SubscriberId) (value : Value) : Store ρ σ :=
  (s.record (.updating id)).record (.resolved id value)

/-- The store once a watcher has received a value, before its reaction starts. -/
def Store.deliverTo (s : Store ρ σ) (id : SubscriberId) (value : Value) : Store ρ σ :=
  ((s.lookedAt id value).updateWatcher id (·.receive value)).record (.delivered id value)

namespace Run

variable {respond : Respond ρ σ} {s : Store ρ σ} {id : SubscriberId} {w : Watcher ρ} {value : Value}

/-- Updating a watcher notes it, and then looks at its path. -/
theorem update_watcher (hw : s.watcher? id = some w) :
    update respond id s = updateWatcher respond id w (s.record (.updating id)) := by
  obtain ⟨handles, hentry⟩ := Store.exists_entry (s := s.record (.updating id)) hw
  unfold update
  rw [change_bind, look_bind, hentry]

/-- A watcher that is disposed does nothing. -/
theorem update_disposed (hw : s.watcher? id = some w) (hdisposed : w.disposed = true) :
    update respond id s = some (.ok (), s.record (.updating id)) := by
  rw [update_watcher hw]
  unfold updateWatcher
  rw [if_pos hdisposed]
  rfl

/-- A watcher whose path does not resolve fails. -/
theorem update_failed (hw : s.watcher? id = some w) (hactive : w.disposed = false) {e : Error}
    (hfailed : s.model.peek w.path w.root = .error e) :
    update respond id s = some (.error e, (s.record (.updating id)).record (.raised e)) := by
  have hfailed : (s.record (.updating id)).model.peek w.path w.root = .error e := hfailed
  rw [update_watcher hw]
  unfold updateWatcher
  rw [if_neg (by rw [hactive]; exact Bool.false_ne_true), peek_bind, hfailed]
  rfl

/-- A watcher that knows the value at its path does nothing. -/
theorem update_agreed (hw : s.watcher? id = some w) (hactive : w.disposed = false)
    (hfound : s.model.peek w.path w.root = .ok value) (hsame : value.strictEq w.baseline = true) :
    update respond id s = some (.ok (), s.lookedAt id value) := by
  have hfound : (s.record (.updating id)).model.peek w.path w.root = .ok value := hfound
  rw [update_watcher hw]
  unfold updateWatcher
  rw [if_neg (by rw [hactive]; exact Bool.false_ne_true), peek_bind, hfound, orRaise_ok_bind, change_bind,
    if_pos hsame]
  rfl

/-- A watcher that finds another value receives it, and reacts. -/
theorem update_delivered (hw : s.watcher? id = some w) (hactive : w.disposed = false)
    (hfound : s.model.peek w.path w.root = .ok value) (hother : value.strictEq w.baseline = false) :
    update respond id s = react respond w.reaction value (s.deliverTo id value) := by
  have hfound : (s.record (.updating id)).model.peek w.path w.root = .ok value := hfound
  rw [update_watcher hw]
  unfold updateWatcher
  rw [if_neg (by rw [hactive]; exact Bool.false_ne_true), peek_bind, hfound, orRaise_ok_bind, change_bind,
    if_neg (by rw [hother]; exact Bool.false_ne_true)]
  rfl

/-- Showing a value sets the value of the node to the text that it is displayed as. -/
theorem react_showValue (respond : Respond ρ σ) (target : NodeId) (value : Value) (s : Store ρ σ) :
    react respond (.showValue target) value s = (s.model.display? value).map fun text =>
      (.ok (), (s.withView (·.setValue target (String.ofList text))).record (.wroteValue target)) := by
  change (display value >>= fun text => setValue target text) s = _
  rw [bind_apply, display_apply]
  cases s.model.display? value <;> rfl

/-- Showing a text renders the template with the values there are, and raises an error if that fails. -/
theorem react_showText (respond : Respond ρ σ) (target : NodeId) (template : Template) (root value : Value)
    (s : Store ρ σ) :
    react respond (.showText target template root) value s =
      (s.model.render? template root).map fun
        | .ok text => (.ok (), (s.withView (·.setText target text)).record (.wroteText target))
        | .error e => (.error e, s.record (.raised e)) := by
  change (render template root >>= fun text => setText target text) s = _
  unfold render
  rw [bind_apply, look_bind]
  cases s.model.render? template root with
  | none => rfl
  | some outcome => cases outcome <;> rfl

end Run

/-! ## Writes -/

/-- Nobody subscribes if the collector slot is empty. -/
theorem Store.subscribeCollector_none {s : Store ρ σ} (h : s.collector = none) (cells : List CellId) :
    s.subscribeCollector cells = s := by
  unfold Store.subscribeCollector
  rw [h]

namespace Run

variable {s : Store ρ σ} {tell : SubscriberId → Run ρ σ Unit} {path : Path} {root : Value}

/-- A write through a path stores the value in the container of the path. -/
theorem assign_of_container_ok {id : ObjectId} {s' : Store ρ σ}
    (h : container path root s = some (.ok id, s')) (value : Value) :
    assign tell path root value s = setKey tell id path.last value s' := by
  unfold assign
  rw [bind_apply]
  unfold writing
  rw [h]

/-- A write through a path without a container fails, and the journal says so. -/
theorem assign_of_container_error {e : Error} {s' : Store ρ σ}
    (h : container path root s = some (.error e, s')) (value : Value) :
    assign tell path root value s = some (.error e, s'.record (.writeFailed e)) := by
  unfold assign
  rw [bind_apply]
  unfold writing
  rw [h]

/-- A write through a path subscribes whoever is in the collector slot to what it reads on the way to the
container, and is then a write of a key. -/
theorem assign_container {id : ObjectId}
    (h : (s.model.followKeys path.text path.parents root).outcome = .ok (.object id)) (value : Value) :
    assign tell path root value s = setKey tell id path.last value
      (s.subscribeCollector (s.model.followKeys path.text path.parents root).cells) := by
  refine assign_of_container_ok ?_ value
  unfold container
  rw [look_bind, change_bind, h]
  rfl

/-- A path leads to an object, and a write through the path is a write of a key of the object. -/
theorem assign_found (hidle : s.collector = none) {id : ObjectId}
    (h : (s.model.followKeys path.text path.parents root).outcome = .ok (.object id)) (value : Value) :
    assign tell path root value s = setKey tell id path.last value s := by
  rw [assign_container h, Store.subscribeCollector_none hidle]

/-- Without an object at the end of the parents there is no container. -/
theorem container_of_error {e : Error}
    (h : (s.model.followKeys path.text path.parents root).outcome = .error e) :
    container path root s = some (.error e,
      (s.subscribeCollector (s.model.followKeys path.text path.parents root).cells).record (.raised e)) := by
  unfold container
  rw [look_bind, change_bind, h]
  rfl

/-- A path whose parents lead to anything but an object has no container, and the error names the last key. -/
theorem container_of_leaf {found : Value}
    (h : (s.model.followKeys path.text path.parents root).outcome = .ok found)
    (hleaf : ∀ id, found ≠ .object id) :
    container path root s = some (.error (.pathResolution path.text path.last),
      (s.subscribeCollector (s.model.followKeys path.text path.parents root).cells).record
        (.raised (.pathResolution path.text path.last))) := by
  unfold container
  rw [look_bind, change_bind, h]
  cases found with
  | object id => exact absurd rfl (hleaf id)
  | _ => rfl

/-- A path leads nowhere, and a write through it fails. -/
theorem assign_error (hidle : s.collector = none) {e : Error}
    (h : (s.model.followKeys path.text path.parents root).outcome = .error e) (value : Value) :
    assign tell path root value s = some (.error e, (s.record (.raised e)).record (.writeFailed e)) := by
  have hcontainer := container_of_error h
  rw [Store.subscribeCollector_none hidle] at hcontainer
  exact assign_of_container_error hcontainer value

/-- A path leads to a leaf, and a write through it fails. -/
theorem assign_leaf (hidle : s.collector = none) {found : Value}
    (h : (s.model.followKeys path.text path.parents root).outcome = .ok found)
    (hleaf : ∀ id, found ≠ .object id) (value : Value) :
    assign tell path root value s = some (.error (.pathResolution path.text path.last),
      (s.record (.raised (.pathResolution path.text path.last))).record
        (.writeFailed (.pathResolution path.text path.last))) := by
  have hcontainer := container_of_leaf h hleaf
  rw [Store.subscribeCollector_none hidle] at hcontainer
  exact assign_of_container_error hcontainer value

/-- A value for a reactive key goes into its cell. -/
theorem setKey_reactive {id : ObjectId} {key : String} {cell : CellId}
    (h : s.model.slot? id key = some (.reactive cell)) (value : Value) :
    setKey tell id key value s = setCell tell cell value s := by
  unfold setKey
  rw [look_bind, h]

/-- A value for a missing key becomes a plain one. -/
theorem setKey_missing {id : ObjectId} {key : String} (h : s.model.slot? id key = none)
    (value : Value) : setKey tell id key value s = putPlain id key value s := by
  unfold setKey
  rw [look_bind, h]

/-- Storing a value that is strictly equal to the plain one there does nothing. -/
theorem setKey_plain_same {id : ObjectId} {key : String} {current value : Value}
    (h : s.model.slot? id key = some (.plain current)) (hsame : current.strictEq value = true) :
    setKey tell id key value s = some (.ok false, s) := by
  unfold setKey
  rw [look_bind, h]
  simp only [hsame, if_true, done_apply]

/-- Storing another value under a plain key replaces it. -/
theorem setKey_plain_other {id : ObjectId} {key : String} {current value : Value}
    (h : s.model.slot? id key = some (.plain current)) (hother : current.strictEq value = false) :
    setKey tell id key value s = putPlain id key value s := by
  unfold setKey
  rw [look_bind, h]
  simp only [hother, Bool.false_eq_true, if_false]

/-- Storing a value that is strictly equal to the one in the cell does nothing, and tells nobody. -/
theorem setCell_same {cell : CellId} {value : Value}
    (h : (s.model.cell cell).value.strictEq value = true) :
    setCell tell cell value s = some (.ok false, s) := by
  unfold setCell
  rw [look_bind, if_pos h]
  rfl

/-- A cycle over an empty list tells nobody. -/
theorem notify_quiet {cell : CellId} (hquiet : (s.model.cell cell).subscribers = []) :
    notify tell cell s =
      some (.ok (), s.withModel (·.updateSubscribers cell (·.filter s.isLive))) := by
  have hempty : ((s.model.updateSubscribers cell (·.filter s.isLive)).cell cell).subscribers = [] := by
    rw [Model.cell_updateSubscribers]
    split
    · rw [hquiet, List.filter_nil]
    · exact hquiet
  unfold notify
  rw [change_bind, look_bind]
  unfold Store.withModel
  rw [hempty]
  rfl

/-- A cell that nobody is subscribed to takes another value, and that is all. -/
theorem setCell_quiet {cell : CellId} {value : Value}
    (h : (s.model.cell cell).value.strictEq value = false)
    (hquiet : (s.model.cell cell).subscribers = []) :
    setCell tell cell value s = some (.ok true, (s.storeCell cell value).withModel
      (·.updateSubscribers cell (·.filter (s.storeCell cell value).isLive))) := by
  have hquiet' : ((s.storeCell cell value).model.cell cell).subscribers = [] := by
    change ((s.model.setCellValue cell value).cell cell).subscribers = []
    rw [Model.cell_setCellValue]
    split <;> exact hquiet
  unfold setCell
  rw [look_bind, if_neg (by rw [h]; exact Bool.false_ne_true), change_bind, bind_apply]
  unfold writing
  rw [show notify tell cell ((s.withModel (·.setCellValue cell value)).record (.storedCell cell value)) =
    _ from notify_quiet hquiet']
  rfl

end Run

end DataBinding
