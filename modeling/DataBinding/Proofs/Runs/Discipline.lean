import DataBinding.Proofs.Runs.Keeps
import DataBinding.ViewModel

/-!
# Operations consist of steps

Whatever relation holds along steps, and along the write of a cell together with the notify cycle that
it starts, holds along every operation, every script and every reaction of every host. A write is taken
whole: what a relation says between the storing of a value and the end of the cycle is up to the
relation. `WriteDiscipline.of_storing` is the simple case, in which storing is a step like any other.
-/

set_option autoImplicit false

namespace DataBinding

/-- Every reaction of a host keeps a relation. -/
def Respond.Keeps {ρ σ : Type} (R : Store ρ σ → Store ρ σ → Prop) (respond : Respond ρ σ) : Prop :=
  ∀ reaction stimulus s, Run.Keeps R s (respond reaction stimulus)

/-- A discipline that also holds along writes of cells. -/
structure WriteDiscipline {ρ σ : Type} (R : Store ρ σ → Store ρ σ → Prop) : Prop
    extends Discipline R where
  write : ∀ {respond : Respond ρ σ}, Respond.Keeps R respond → ∀ s cell value,
    Run.Keeps R s (Run.setCell (Run.update respond) cell value)

/-- A discipline that holds along everything that a host can do. -/
structure HostDiscipline {ρ σ : Type} (R : Store ρ σ → Store ρ σ → Prop) : Prop
    extends WriteDiscipline R where
  subscribed : ∀ s cell id, R s (s.withModel (·.subscribe cell id))
  collected : ∀ s slot, R s { s with collector := slot }
  activated : ∀ s id active, R s (s.setActive id active)

namespace Run

variable {ρ σ α : Type}

/-! ## Making a watcher -/

/-- What was pushed last is what a change at the old size changes. -/
theorem modify_push_size {γ : Type} (xs : Array γ) (x : γ) (f : γ → γ) :
    (xs.push x).modify xs.size f = xs.push (f x) := by
  apply Array.ext
  · simp
  · intro i h₁ h₂
    simp only [Array.size_modify, Array.size_push] at h₁
    by_cases hi : i = xs.size
    · subst hi
      simp [Array.getElem_modify]
    · have hlt : i < xs.size := by omega
      simp [Array.getElem_modify, Array.getElem_push, hlt, Ne.symm hi]

/-- A watcher of a path that is found is enrolled with one handle, with the value there as its baseline. -/
theorem watch_ok {s : Store ρ σ} {root : Value} {path : Path} (policy : BaselinePolicy)
    (reaction : Reaction ρ) {cells : List CellId} {value : Value}
    (h : s.model.follow path root = ⟨cells, .ok value⟩) :
    watch root path policy reaction s =
      some (.ok s.nextSubscriber, s.enroll 1 { root, path, policy, reaction, baseline := value }
        cells (.made s.nextSubscriber cells value)) := by
  unfold watch
  rw [changeGet_bind, look_bind, attempt_bind]
  simp only [Store.addSubscriber, h, collecting, resolve, look_bind, change_bind, orRaise,
    done_apply, Option.map_some, Option.bind_some, Store.subscribeCollector, Store.withModel,
    Store.updateWatcher, Store.updateSubscriber, Store.record, modify_push_size, Store.enroll,
    Store.nextSubscriber]

/-- A watcher of a path that is not found leaves entries in the lists that it has read, and nobody holds it. -/
theorem watch_error {s : Store ρ σ} {root : Value} {path : Path} (policy : BaselinePolicy)
    (reaction : Reaction ρ) {cells : List CellId} {e : Error}
    (h : s.model.follow path root = ⟨cells, .error e⟩) :
    watch root path policy reaction s =
      some (.error e, s.enroll 0 { root, path, policy, reaction } cells (.raised e)) := by
  unfold watch
  rw [changeGet_bind, look_bind, attempt_bind]
  simp only [Store.addSubscriber, h, collecting, resolve, look_bind, change_bind, orRaise, raise,
    propagate, Option.map_some, Option.bind_some, Store.subscribeCollector, Store.withModel,
    Store.release, Store.updateSubscriber, Store.record, modify_push_size, Store.enroll,
    Store.nextSubscriber, Nat.sub_self]

/-! ## The turn of an entry -/

/-- An entry of a list that is live is held while it is told. -/
theorem visit_live {s : Store ρ σ} {id : SubscriberId} (hlive : s.isLive id = true)
    (tell : SubscriberId → Run ρ σ Unit) :
    visit tell id s = (tell id (s.retain id)).map fun (result, s') => (result, s'.release id) := by
  unfold visit
  rw [look_bind, hlive]
  rfl

/-- The turn of an entry that is live comes back as the telling does, which is done while it is held. -/
theorem told_of_visit {s s' : Store ρ σ} {id : SubscriberId} {tell : SubscriberId → Run ρ σ Unit}
    {result : Except Error Unit} (hlive : s.isLive id = true) (h : visit tell id s = some (result, s')) :
    ∃ s₁, tell id (s.retain id) = some (result, s₁) ∧ s' = s₁.release id := by
  rw [visit_live hlive] at h
  obtain ⟨⟨outcome, s₁⟩, htell, heq⟩ := Option.map_eq_some_iff.1 h
  obtain ⟨rfl, rfl⟩ := Prod.mk.inj heq
  exact ⟨s₁, htell, rfl⟩

/-- An entry that is not live is passed over. -/
theorem visit_dead {s : Store ρ σ} {id : SubscriberId} (hlive : s.isLive id = false)
    (tell : SubscriberId → Run ρ σ Unit) : visit tell id s = some (.ok (), s) := by
  unfold visit
  rw [look_bind, hlive]
  rfl

section Operations

variable {R : Store ρ σ → Store ρ σ → Prop} {s : Store ρ σ}

/-- Making a watcher keeps a discipline: it comes to one of two steps. -/
theorem keeps_watch (hR : Discipline R) (root : Value) (path : Path) (policy : BaselinePolicy)
    (reaction : Reaction ρ) : Keeps R s (watch root path policy reaction) := by
  intro result s' h
  cases hfollow : s.model.follow path root with
  | mk cells outcome =>
    cases outcome with
    | ok value =>
      rw [watch_ok policy reaction hfollow] at h
      cases h
      exact hR.step (.made s root path policy reaction cells value hfollow)
    | error e =>
      rw [watch_error policy reaction hfollow] at h
      cases h
      exact hR.step (.abandoned s root path policy reaction cells e hfollow)

/-! ## Reading and showing -/

/-- Looking at a path without subscribing comes to a look at the model. -/
theorem peek_bind {β : Type} (path : Path) (root : Value) (next : Value → Run ρ σ β)
    (s : Store ρ σ) :
    (peek path root >>= next) s = (orRaise (s.model.peek path root) >>= next) s := rfl

/-- Looking at a path is no step, and raises an error at most. -/
theorem keeps_peek (hR : Discipline R) (path : Path) (root : Value) :
    Keeps R s (peek path root) :=
  keeps_look_bind (keeps_orRaise hR _)

/-- Displaying a value is no step. -/
theorem keeps_display (hR : Discipline R) (value : Value) : Keeps R s (display value) :=
  keeps_look_bind (keeps_demand hR _)

/-- Writing out a value is no step. -/
theorem keeps_toJson (hR : Discipline R) (value : Value) : Keeps R s (toJson value) :=
  keeps_look_bind (keeps_demand hR _)

/-- Rendering is no step, and raises an error at most. -/
theorem keeps_render (hR : Discipline R) (template : Template) (root : Value) :
    Keeps R s (render template root) :=
  keeps_look_bind (keeps_bind hR (keeps_demand hR _) fun outcome _ _ => keeps_orRaise hR outcome)

/-- Resolving a path is the step in which the collector subscribes. -/
theorem keeps_resolve (hR : Discipline R) (path : Path) (root : Value) :
    Keeps R s (resolve path root) :=
  keeps_look_bind (keeps_change_bind hR (hR.step (.tracked s _)) (keeps_orRaise hR _))

/-- Setting a text is a step of the view. -/
theorem keeps_setText (hR : Discipline R) (node : NodeId) (text : String) :
    Keeps R s (setText node text) :=
  keeps_change (hR.step (.textWritten s node text))

/-- Setting the value of a node is a step of the view. -/
theorem keeps_setValue (hR : Discipline R) (node : NodeId) (value : String) :
    Keeps R s (setValue node value) :=
  keeps_change (hR.step (.valueWritten s node value))

/-! ## Telling subscribers -/

variable {respond : Respond ρ σ}

/-- A reaction keeps a discipline if the host does, since showing something is a step. -/
theorem keeps_react (hR : Discipline R) (hrespond : Respond.Keeps R respond)
    (reaction : Reaction ρ) (value : Value) : Keeps R s (react respond reaction value) := by
  cases reaction with
  | showValue node =>
    exact keeps_bind hR (keeps_display hR value) fun text _ _ => keeps_setValue hR node text
  | showText node template root =>
    exact keeps_bind hR (keeps_render hR template root) fun text _ _ => keeps_setText hR node text
  | hosted reaction => exact hrespond reaction _ s

/-- Updating a watcher keeps a discipline: it looks at its path, and reacts if the value is another one. -/
theorem keeps_updateWatcher (hR : Discipline R) (hrespond : Respond.Keeps R respond)
    {id : SubscriberId} {watcher : Watcher ρ} (hwatcher : s.watcher? id = some watcher) :
    Keeps R s (updateWatcher respond id watcher) := by
  unfold updateWatcher
  split
  · exact keeps_done hR ()
  · next hactive =>
    have hactive : watcher.disposed = false := by simpa using hactive
    intro result s' h
    rw [peek_bind] at h
    cases hfound : s.model.peek watcher.path watcher.root with
    | error e =>
      rw [hfound, orRaise_error_bind] at h
      cases h
      exact hR.step (.noted s _ rfl)
    | ok value =>
      rw [hfound, orRaise_ok_bind, change_bind] at h
      split at h
      · next hsame =>
        cases h
        exact hR.step (.agreed s id watcher value hwatcher hactive hfound hsame)
      · next hother =>
        have hother : value.strictEq watcher.baseline = false := by simpa using hother
        have hstep := hR.step (.delivered s id watcher value hwatcher hactive hfound hother)
        exact hR.trans hstep (keeps_react hR hrespond watcher.reaction value _ _ h)

/-- Updating a subscriber keeps a discipline if the host does. -/
theorem keeps_update (hR : Discipline R) (hrespond : Respond.Keeps R respond) (id : SubscriberId) :
    Keeps R s (update respond id) := by
  refine keeps_change_bind hR (hR.step (.noted s _ rfl)) (keeps_look_bind ?_)
  split
  · next handles watcher hsubscriber =>
    refine keeps_updateWatcher hR hrespond ?_
    unfold Store.watcher?
    rw [hsubscriber]
  · next handles active reaction hsubscriber => exact hrespond reaction .notified _
  · exact keeps_done hR ()

/-- The turn of an entry keeps a discipline if telling does. -/
theorem keeps_visit (hR : Discipline R) {tell : SubscriberId → Run ρ σ Unit}
    (htell : ∀ id s, Keeps R s (tell id)) (id : SubscriberId) : Keeps R s (visit tell id) := by
  refine keeps_look_bind ?_
  split
  · exact keeps_holding hR (htell id _)
  · exact keeps_done hR ()

/-- A cycle keeps a discipline if telling does: dropping the entries that are not live is a step. -/
theorem keeps_notify (hR : Discipline R) {tell : SubscriberId → Run ρ σ Unit}
    (htell : ∀ id s, Keeps R s (tell id)) (cell : CellId) : Keeps R s (notify tell cell) := by
  refine keeps_change_bind hR (hR.step (.pruned s cell)) (keeps_look_bind ?_)
  exact keeps_each hR _ fun id _ _ => keeps_visit hR htell id

/-! ## Writing -/

/-- The write of a cell keeps a relation that the storing itself keeps. -/
theorem keeps_setCell (hR : Discipline R) {tell : SubscriberId → Run ρ σ Unit}
    (htell : ∀ id s, Keeps R s (tell id)) {cell : CellId} {value : Value}
    (hstore : R s (s.storeCell cell value)) : Keeps R s (setCell tell cell value) := by
  refine keeps_look_bind ?_
  split
  · exact keeps_done hR false
  · refine keeps_change_bind hR hstore ?_
    exact keeps_bind hR (keeps_writing hR (keeps_notify hR htell cell)) fun _ _ _ =>
      keeps_done hR true

/-- Storing a plain value is a step. -/
theorem keeps_putPlain (hR : Discipline R) {object : ObjectId} {key : String} {value : Value}
    (hplain : ∀ cell, s.model.slot? object key ≠ some (.reactive cell)) :
    Keeps R s (putPlain object key value) :=
  keeps_change_bind hR (hR.step (.storedPlain s object key value hplain)) (keeps_done hR true)

/-- Storing a value under a key keeps a discipline, through its cell or as a plain value. -/
theorem keeps_setKey (hR : WriteDiscipline R) (hrespond : Respond.Keeps R respond)
    (object : ObjectId) (key : String) (value : Value) :
    Keeps R s (setKey (update respond) object key value) := by
  refine keeps_look_bind ?_
  split
  · next cell _ => exact hR.write hrespond s cell value
  · next current hslot =>
    split
    · exact keeps_done hR.toDiscipline false
    · exact keeps_putPlain hR.toDiscipline fun cell h => by rw [hslot] at h; cases h
  · next hslot => exact keeps_putPlain hR.toDiscipline fun cell h => by rw [hslot] at h; cases h

/-- Finding the container of a path keeps a discipline. -/
theorem keeps_container (hR : Discipline R) (path : Path) (root : Value) :
    Keeps R s (container path root) := by
  refine keeps_look_bind (keeps_change_bind hR (hR.step (.tracked s _)) ?_)
  split
  · exact keeps_raise hR _
  · exact keeps_done hR _
  · exact keeps_raise hR _

/-- Writing through a path keeps a discipline: it finds the container and stores there. -/
theorem keeps_assign (hR : WriteDiscipline R) (hrespond : Respond.Keeps R respond) (path : Path)
    (root value : Value) : Keeps R s (assign (update respond) path root value) :=
  keeps_bind hR.toDiscipline (keeps_writing hR.toDiscipline (keeps_container hR.toDiscipline path root))
    fun object _ _ => keeps_setKey hR hrespond object path.last value

/-- What a listener does with an input keeps a discipline. -/
theorem keeps_hear (hR : WriteDiscipline R) (hrespond : Respond.Keeps R respond) (text : String)
    (listener : Listener ρ) : Keeps R s (hear respond text listener) := by
  cases listener with
  | assign root path =>
    exact keeps_bind hR.toDiscipline (keeps_assign hR hrespond path root _) fun _ _ _ =>
      keeps_done hR.toDiscipline ()
  | hosted reaction => exact hrespond reaction _ s

/-- An input keeps a discipline: the value is typed, and the listeners hear it in turn. -/
theorem keeps_input (hR : WriteDiscipline R) (hrespond : Respond.Keeps R respond) (node : NodeId)
    (text : String) : Keeps R s (input respond node text) := by
  refine keeps_change_bind hR.toDiscipline (hR.step (.typed s node text)) (keeps_look_bind ?_)
  exact keeps_each hR.toDiscipline _ fun listener _ _ => keeps_hear hR hrespond text listener

/-! ## Compiling -/

/-- Binding a path keeps a discipline. -/
theorem keeps_bindPath (hR : Discipline R) (binder : BinderId) (path : Path)
    (reaction : Reaction ρ) : Keeps R s (bind binder path reaction) := by
  refine keeps_look_bind (keeps_bind hR (keeps_watch hR _ _ _ _) fun id s₁ _ => ?_)
  exact keeps_change_bind hR (hR.step (.watcherKept s₁ binder id)) (keeps_done hR id)

/-- Binding a value keeps a discipline. -/
theorem keeps_bindValue (hR : Discipline R) (binder : BinderId) (node : NodeId)
    (expression : String) : Keeps R s (bindValue binder node expression) := by
  refine keeps_bind hR (keeps_orRaise hR _) fun path s₁ _ => keeps_look_bind ?_
  refine keeps_bind hR (keeps_bindPath hR binder path _) fun _ s₂ _ => ?_
  refine keeps_change_bind hR (hR.step (.listened s₂ node _)) ?_
  refine keeps_bind hR (keeps_peek hR path _) fun value _ _ => ?_
  exact keeps_bind hR (keeps_display hR value) fun text _ _ => keeps_setValue hR node text

/-- Binding a text keeps a discipline. -/
theorem keeps_bindText (hR : Discipline R) (binder : BinderId) (node : NodeId)
    (expression : String) : Keeps R s (bindText binder node expression) := by
  refine keeps_look_bind (keeps_bind hR (keeps_orRaise hR _) fun template _ _ => ?_)
  refine keeps_bind hR (keeps_each hR _ fun path _ _ => ?_) fun _ _ _ => ?_
  · exact keeps_bind hR (keeps_bindPath hR binder path _) fun _ _ _ => keeps_done hR ()
  · exact keeps_bind hR (keeps_render hR template _) fun text _ _ => keeps_setText hR node text

/-- Handling a directive keeps a discipline if the host does. -/
theorem keeps_handle (hR : Discipline R) (hrespond : Respond.Keeps R respond)
    (kind : DirectiveKind) (handler : Handler ρ) (binder : BinderId) (node : NodeId)
    (expression : String) : Keeps R s (handle respond kind handler binder node expression) := by
  refine keeps_change_bind hR (hR.step (.noted s _ rfl)) ?_
  cases handler with
  | bindValue => exact keeps_bindValue hR binder node expression
  | bindText => exact keeps_bindText hR binder node expression
  | hosted reaction => exact hrespond reaction _ _

/-- Compiling an attribute keeps a discipline if the host does. -/
theorem keeps_compileAttribute (hR : Discipline R) (hrespond : Respond.Keeps R respond)
    (directives : Directives ρ) (binder : BinderId) (marker : String) (node : NodeId)
    (entry : String × String) :
    Keeps R s (compileAttribute respond directives binder marker node entry) := by
  unfold compileAttribute
  split
  · exact keeps_done hR ()
  · exact keeps_bind hR (keeps_orRaise hR _) fun found _ _ =>
      keeps_handle hR hrespond found.1 found.2 binder node entry.2

/-- Compiling a text keeps a discipline if the host does. -/
theorem keeps_compileText (hR : Discipline R) (hrespond : Respond.Keeps R respond)
    (directives : Directives ρ) (binder : BinderId) (config : Config) (node : NodeId)
    (text : String) : Keeps R s (compileText respond directives binder config node text) := by
  unfold compileText
  split
  · exact keeps_bind hR (keeps_orRaise hR _) fun handler _ _ =>
      keeps_handle hR hrespond .text handler binder node _
  · exact keeps_done hR ()

/-- A walk through some levels of a tree keeps a discipline, by induction on the levels. -/
theorem keeps_compileNode (hR : Discipline R) (hrespond : Respond.Keeps R respond)
    (directives : Directives ρ) (binder : BinderId) (config : Config) (depth : Nat) (id : NodeId) :
    Keeps R s (compileNode respond directives binder config depth id) := by
  induction depth generalizing s id with
  | zero => exact keeps_diverge
  | succ depth ih =>
    refine keeps_look_bind ?_
    split
    · refine keeps_bind hR (keeps_each hR _ fun entry _ _ => ?_) fun _ _ _ => keeps_look_bind ?_
      · exact keeps_compileAttribute hR hrespond directives binder config.marker id entry
      · exact keeps_each hR _ fun child _ _ => ih child
    · exact keeps_compileText hR hrespond directives binder config id _
    · exact keeps_done hR ()

/-- Letting go of some subscribers is a step for each of them. -/
theorem releaseAll_related (hR : Discipline R) (ids : List SubscriberId) (s : Store ρ σ) :
    R s (ids.foldl Store.release s) := by
  induction ids generalizing s with
  | nil => exact hR.refl s
  | cons id rest ih => exact hR.trans (hR.step (.released s id)) (ih _)

/-- What a pass ends with, once the nodes are compiled. -/
theorem keeps_endOfPass (hR : Discipline R) (binder : BinderId) (outcome : Except Error Unit) :
    Keeps R s (do
      let watchers ← look fun s => (s.binder binder).watchers
      match outcome with
      | .ok _ => done watchers
      | .error e => do
        change fun s => watchers.foldl Store.release s
        propagate e : Run ρ σ (List SubscriberId)) := by
  refine keeps_look_bind ?_
  cases outcome with
  | ok _ => exact keeps_done hR _
  | error e =>
    intro result s' h
    cases h
    exact releaseAll_related hR _ s

/-- A pass keeps a discipline, whether its watchers stay or are let go. -/
theorem keeps_compile (hR : Discipline R) (hrespond : Respond.Keeps R respond) (depth : Nat)
    (root : Value) (config : Config) (directives : Directives ρ) (node : NodeId) :
    Keeps R s (compile respond depth root config directives node) := by
  have hbinder := hR.step (.binderAdded s root config)
  intro result s' h
  refine hR.trans hbinder ?_
  unfold compile at h
  rw [changeGet_bind, attempt_bind] at h
  obtain ⟨⟨outcome, s₁⟩, hnode, h⟩ := Option.bind_eq_some_iff.1 h
  refine hR.trans (keeps_compileNode hR hrespond directives _ config depth node _ _ hnode) ?_
  exact keeps_endOfPass hR _ outcome _ _ h

/-! ## Every operation -/

/-- Every operation keeps a relation, if those that a host does by hand do. -/
theorem keeps_perform (hR : WriteDiscipline R) (hrespond : Respond.Keeps R respond) (depth : Nat)
    (op : Op ρ σ) (hhand : op.isByHand = true → Keeps R s (perform respond depth op)) :
    Keeps R s (perform respond depth op) := by
  have hR' := hR.toDiscipline
  cases op with
  | look => exact keeps_look_bind (f := id) (keeps_done hR' _)
  | setHost host => exact keeps_change (hR.step (.hostSet s host))
  | observe json => exact keeps_changeGet (hR.step (.observed s json))
  | newObject => exact keeps_changeGet (hR.step (.newObject s))
  | resolve path root => exact keeps_resolve hR' path root
  | readKey object key => exact keeps_changeGet (hR.step (.tracked s _))
  | readCell cell => exact keeps_changeGet (hR.step (.tracked s [cell]))
  | display value => exact keeps_display hR' value
  | toJson value => exact keeps_toJson hR' value
  | inspect value => exact keeps_look_bind (keeps_demand hR' _)
  | render template root => exact keeps_render hR' template root
  | assign path root value => exact keeps_assign hR hrespond path root value
  | setKey object key value => exact keeps_setKey hR hrespond object key value
  | setCell cell value => exact hR.write hrespond s cell value
  | watch root path policy reaction => exact keeps_watch hR' root path policy _
  | bind binder path reaction => exact keeps_bindPath hR' binder path _
  | newSubscriber reaction => exact keeps_changeGet (hR.step (.hosted s reaction))
  | update subscriber => exact keeps_update hR' hrespond subscriber
  | dispose watcher => exact keeps_change (hR.step (.disposed s watcher))
  | retain subscriber => exact keeps_change (hR.step (.retained s subscriber))
  | release subscriber => exact keeps_change (hR.step (.released s subscriber))
  | setActive subscriber active => exact hhand rfl
  | subscribe cell subscriber => exact hhand rfl
  | notify cell => exact keeps_notify hR' (fun id s => keeps_update hR' hrespond id) cell
  | collect slot => exact hhand rfl
  | plant tree => exact keeps_changeGet (hR.step (.planted s tree))
  | tree node => exact keeps_look_bind (keeps_demand hR' _)
  | outline roots => exact keeps_look_bind (keeps_demand hR' _)
  | append parent child => exact keeps_change (hR.step (.appended s parent child))
  | setText node text => exact keeps_setText hR' node text
  | setValue node value => exact keeps_setValue hR' node value
  | setAttribute node name value => exact keeps_change (hR.step (.attributeSet s node name value))
  | listen node reaction => exact keeps_change (hR.step (.listened s node _))
  | input node text => exact keeps_input hR hrespond node text
  | compile root config directives node =>
    exact keeps_compile hR' hrespond depth root config directives node

end Operations

end Run

variable {ρ σ α : Type} {R : Store ρ σ → Store ρ σ → Prop}

/-- Where storing a value is a step like any other, writes need no argument of their own. -/
theorem WriteDiscipline.of_storing (hR : Discipline R)
    (hstore : ∀ s cell value, R s (s.storeCell cell value)) : WriteDiscipline R where
  toDiscipline := hR
  write hrespond s cell value :=
    Run.keeps_setCell hR (fun id _ => Run.keeps_update hR hrespond id) (hstore s cell value)

/-- A script that asks for an operation goes on with the answer. -/
theorem Script.runWith_ask {carryOut : (op : Op ρ σ) → Run ρ σ op.Answer} {op : Op ρ σ}
    (next : Except Error op.Answer → Script ρ σ α) {s s' : Store ρ σ} {answer : Except Error op.Answer}
    (h : carryOut op s = some (answer, s')) :
    (Script.ask op next).runWith carryOut s = (next answer).runWith carryOut s' := by
  simp only [runWith, h]

/-- A script does not come back if an operation that it asks for does not. -/
theorem Script.runWith_ask_none {carryOut : (op : Op ρ σ) → Run ρ σ op.Answer} {op : Op ρ σ}
    (next : Except Error op.Answer → Script ρ σ α) {s : Store ρ σ} (h : carryOut op s = none) :
    (Script.ask op next).runWith carryOut s = none := by
  simp only [runWith, h]

/-- Whatever a script asks for is of a kind. -/
def Script.Asks (P : Op ρ σ → Prop) : Script ρ σ α → Prop
  | .done _ => True
  | .ask op next => P op ∧ ∀ answer, (next answer).Asks P

/-- Whatever the scripts of a host ask for is of a kind. -/
def Host.Asks (P : Op ρ σ → Prop) (host : Host ρ σ) : Prop :=
  ∀ reaction stimulus, (host.script reaction stimulus).Asks P

/-- If every operation is of a kind, a script asks for that kind only. -/
theorem Script.asks_of_all {P : Op ρ σ → Prop} (h : ∀ op, P op) (script : Script ρ σ α) :
    script.Asks P := by
  induction script with
  | done result => trivial
  | ask op next ih => exact ⟨h op, ih⟩

/-- If every operation is of a kind, a host asks for that kind only. -/
theorem Host.asks_of_all {P : Op ρ σ → Prop} (h : ∀ op, P op) (host : Host ρ σ) : host.Asks P :=
  fun reaction stimulus => Script.asks_of_all h (host.script reaction stimulus)

section Restricted

variable {P : Op ρ σ → Prop}

/-- A script keeps a discipline if every operation that it may ask for does. -/
theorem Script.keeps_runWith (hR : Discipline R) {carryOut : (op : Op ρ σ) → Run ρ σ op.Answer}
    (hcarry : ∀ op, P op → ∀ s, Run.Keeps R s (carryOut op)) {script : Script ρ σ α}
    (hscript : script.Asks P) (s : Store ρ σ) : Run.Keeps R s (script.runWith carryOut) := by
  induction script generalizing s with
  | done result => exact Run.keeps_orRaise hR result
  | ask op next ih =>
    intro result s' h
    unfold runWith at h
    split at h
    · cases h
    · next answer s₁ hop =>
      exact hR.trans (hcarry op hscript.1 s answer s₁ hop) (ih answer (hscript.2 answer) s₁ result s' h)

/-- Reactions keep a discipline however deep they nest: by induction on the depth. -/
theorem Host.keeps_respond (hR : WriteDiscipline R)
    (hhand : ∀ op, P op → op.isByHand = true → ∀ respond depth s,
      Run.Keeps R s (Run.perform respond depth op))
    {host : Host ρ σ} (hhost : host.Asks P) (depth : Nat) : Respond.Keeps R (host.respond depth) := by
  induction depth with
  | zero =>
    intro reaction stimulus s
    exact Run.keeps_diverge
  | succ depth ih =>
    intro reaction stimulus s
    refine Script.keeps_runWith hR.toDiscipline (fun op hop s => ?_) (hhost reaction stimulus) s
    exact Run.keeps_perform hR ih depth op fun hop' => hhand op hop hop' _ _ _

end Restricted

/-- What a host does by hand keeps a discipline that allows for it. -/
theorem HostDiscipline.byHand (hR : HostDiscipline R) {op : Op ρ σ} (hop : op.isByHand = true)
    (respond : Respond ρ σ) (depth : Nat) (s : Store ρ σ) :
    Run.Keeps R s (Run.perform respond depth op) := by
  cases op with
  | subscribe cell subscriber => exact Run.keeps_change (hR.subscribed s cell subscriber)
  | collect slot => exact Run.keeps_change (hR.collected s slot)
  | setActive subscriber active => exact Run.keeps_change (hR.activated s subscriber active)
  | _ => cases hop

/-- Whatever a host's reactions do, they keep a discipline that allows for it. -/
theorem HostDiscipline.respond (hR : HostDiscipline R) (host : Host ρ σ) (depth : Nat) :
    Respond.Keeps R (host.respond depth) :=
  Host.keeps_respond hR.toWriteDiscipline (fun _ _ hop => hR.byHand hop)
    (host.asks_of_all fun _ => trivial) depth

/-- Every operation keeps a discipline that holds along everything a host can do, at every depth. -/
theorem HostDiscipline.perform (hR : HostDiscipline R) (host : Host ρ σ) (depth : Nat) (op : Op ρ σ)
    (s : Store ρ σ) : Run.Keeps R s (Run.perform (host.respond depth) depth op) :=
  Run.keeps_perform hR.toWriteDiscipline (hR.respond host depth) depth op fun hop => hR.byHand hop _ _ _

/-- Whatever a script does, with whatever host, it keeps a discipline. -/
theorem Script.keeps_run (hR : HostDiscipline R) (host : Host ρ σ) (depth : Nat)
    (script : Script ρ σ α) (s : Store ρ σ) : Run.Keeps R s (script.run host depth) :=
  Script.keeps_runWith hR.toDiscipline (fun _ _ => hR.perform host depth _)
    (script.asks_of_all fun _ => trivial) s

end DataBinding
