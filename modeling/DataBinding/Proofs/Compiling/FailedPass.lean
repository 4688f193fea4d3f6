import DataBinding.Proofs.Compiling.Order
import DataBinding.Proofs.Compiling.Walk
import DataBinding.Proofs.Runs.OverlookingOperations
import DataBinding.Proofs.Watching.NotifyCycle

/-!
# A pass that fails

A pass may fail in the middle of a handler, of an element or deep in the tree, and what it has done until
then stays done: watchers are subscribed, listeners are attached, texts are written. But nobody holds its
watchers any more. While the pass goes on, whoever it has made is held by its binder alone, once for each
time that the binder has it, or by nobody if its path did not resolve (`Underway`); and when it fails, the
binder lets go of all of them.

So they are gone. They are still in lists of cells, which is the only trace of them that is left in the
model, and every later run overlooks them there.
-/

set_option autoImplicit false

namespace DataBinding

variable {ρ σ α β : Type}

/-! ## Runs that keep a property -/

namespace Run

/-- Wherever a run gets to from a store with a property, the property holds there. What is asked of the
steps in between is less than a `Discipline` asks: a watcher that was just made and that its binder has not
taken hold of yet would not have the property. -/
def Stays (P : Store ρ σ → Prop) (run : Run ρ σ α) : Prop :=
  ∀ s, P s → ∀ result s', run s = some (result, s') → P s'

section Stays

variable {P : Store ρ σ → Prop}

/-- A run that is done stays where it is. -/
theorem stays_done (a : α) : Stays P (done a : Run ρ σ α) := by
  intro s hs result s' h
  cases h
  exact hs

/-- A run that does not come back gets nowhere. -/
theorem stays_diverge : Stays P (diverge : Run ρ σ α) := by
  intro s _ result s' h
  cases h

/-- A run that goes on stays in a property if both of its parts do. -/
theorem stays_bind {run : Run ρ σ α} {next : α → Run ρ σ β} (hrun : Stays P run)
    (hnext : ∀ a, Stays P (next a)) : Stays P (run >>= next) := by
  intro s hs result s' h
  obtain ⟨e, herror, -⟩ | ⟨a, s₁, hok, hrest⟩ := bind_cases h
  · exact hrun s hs _ _ herror
  · exact hnext a s₁ (hrun s hs _ _ hok) _ _ hrest

/-- A look stays where it is. -/
theorem stays_look_bind {f : Store ρ σ → α} {next : α → Run ρ σ β} (hnext : ∀ a, Stays P (next a)) :
    Stays P (look f >>= next) := fun s hs => hnext (f s) s hs

/-- A change stays in a property that it keeps. -/
theorem stays_change {f : Store ρ σ → Store ρ σ} (hf : ∀ s, P s → P (f s)) : Stays P (change f) := by
  intro s hs result s' h
  cases h
  exact hf s hs

/-- Going on with a result stays, and so does raising its error if that may be written down. -/
theorem stays_orRaise (hraise : ∀ s e, P s → P (s.record (.raised e))) (outcome : Except Error α) :
    Stays P (orRaise outcome : Run ρ σ α) := by
  cases outcome with
  | ok a => exact stays_done a
  | error e =>
    intro s hs result s' h
    cases h
    exact hraise s e hs

/-- Demanding a value stays where it is. -/
theorem stays_demand (value : Option α) : Stays P (demand value : Run ρ σ α) := by
  cases value with
  | some a => exact stays_done a
  | none => exact stays_diverge

/-- A loop stays in a property if it does for each item. -/
theorem stays_each {f : α → Run ρ σ Unit} (items : List α) (hf : ∀ item ∈ items, Stays P (f item)) :
    Stays P (each items f) := by
  induction items with
  | nil => exact stays_done ()
  | cons item rest ih =>
    obtain ⟨hfirst, hrest⟩ := List.forall_mem_cons.1 hf
    exact stays_bind hfirst fun _ => ih hrest

end Stays

end Run

/-! ## While a pass goes on -/

namespace Store

variable {s t t' : Store ρ σ} {binder : BinderId} {id : SubscriberId}

/-- Whether a subscriber was not there yet. -/
def isNewer (s : Store ρ σ) (id : SubscriberId) : Bool := s.subscribers.size ≤ id.index

/-- Whether a subscriber was made between two stores. -/
def madeBy (s s' : Store ρ σ) (id : SubscriberId) : Bool :=
  s.isNewer id && !s'.isNewer id

/-- A store that a pass which began in another one has come to. Whoever the pass has made is held by its
binder at most, and is the only one who has joined a list. -/
structure Underway (s : Store ρ σ) (binder : BinderId) (t : Store ρ σ) : Prop where
  bound : binder.index < t.binders.size
  model : t.model.without s.isNewer = s.model.without s.isNewer
  known : ∀ {cell id}, id ∈ t.entries cell → id.index < t.subscribers.size
  size_le : s.subscribers.size ≤ t.subscribers.size
  old : ∀ {id}, s.isNewer id = false → t.subscriber? id = s.subscriber? id
  held : ∀ {id subscriber}, s.isNewer id = true → t.subscriber? id = some subscriber →
    subscriber.handles ≤ (t.binder binder).watchers.count id
  own : ∀ id ∈ (t.binder binder).watchers, s.isNewer id = true
  collector : t.collector = s.collector
  host : t.host = s.host

/-- Whoever has no place among the subscribers is newer than they are. -/
theorem isNewer_of_le (hle : s.subscribers.size ≤ id.index) : s.isNewer id = true :=
  decide_eq_true hle

/-- A pass is underway once its binder is there: it has made nobody yet. -/
theorem underway_addBinder (hknown : s.Known) (root : Value) (config : Config) :
    Underway s (s.addBinder root config).1 (s.addBinder root config).2 := by
  have hfresh : ((s.addBinder root config).2.binder (s.addBinder root config).1).watchers = [] := by
    simp [binder, addBinder, Array.getD_eq_getD_getElem?]
  refine ⟨by simp [addBinder], rfl, hknown.entries, Nat.le_refl _, fun _ => rfl, ?_, ?_, rfl, rfl⟩
  · intro id subscriber hnew hsubscriber
    have hlt : id.index < s.subscribers.size := (Array.getElem?_eq_some_iff.1 hsubscriber).1
    have hnew : s.subscribers.size ≤ id.index := of_decide_eq_true hnew
    omega
  · intro id hid
    rw [hfresh] at hid
    cases hid

/-- Whatever leaves the model, the subscribers and the binders alone. -/
theorem Underway.of_same (h : Underway s binder t) (hmodel : t'.model = t.model)
    (hsubscribers : t'.subscribers = t.subscribers) (hbinders : t'.binders = t.binders)
    (hcollector : t'.collector = t.collector) (hhost : t'.host = t.host) : Underway s binder t' := by
  obtain ⟨model, view, subscribers, collector, binders, host, journal⟩ := t'
  obtain rfl : model = t.model := hmodel
  obtain rfl : subscribers = t.subscribers := hsubscribers
  obtain rfl : binders = t.binders := hbinders
  obtain rfl : collector = t.collector := hcollector
  obtain rfl : host = t.host := hhost
  exact ⟨h.bound, h.model, h.known, h.size_le, h.old, h.held, h.own, h.collector, h.host⟩

/-- A watcher is made that the binder holds, or nobody. -/
theorem Underway.enroll (h : Underway s binder t) (handles : Nat) (watcher : Watcher ρ)
    (cells : List CellId) (event : Event) (kept : List SubscriberId)
    (hmodel : t'.model = (t.enroll handles watcher cells event).model)
    (hsubscribers : t'.subscribers = t.subscribers.push ⟨handles, .watching watcher⟩)
    (hsize : t'.binders.size = t.binders.size)
    (hwatchers : (t'.binder binder).watchers = (t.binder binder).watchers ++ kept)
    (hhandles : handles ≤ kept.count t.nextSubscriber) (hkept : ∀ id ∈ kept, id = t.nextSubscriber)
    (hcollector : t'.collector = t.collector) (hhost : t'.host = t.host) : Underway s binder t' := by
  -- The new watcher is not one of those from before the pass, so its entries do not count.
  have hnew : s.isNewer t.nextSubscriber = true := isNewer_of_le h.size_le
  have hgrown : t'.subscribers.size = t.subscribers.size + 1 := by rw [hsubscribers, Array.size_push]
  constructor
  case bound => rw [hsize]; exact h.bound
  case model =>
    rw [hmodel]
    exact (Model.without_foldl_subscribe_gone hnew cells t.model).trans h.model
  case known =>
    intro cell id hid
    rw [hgrown]
    by_cases hnext : id = t.nextSubscriber
    · rw [hnext]
      exact Nat.lt_succ_self _
    · exact Nat.lt_succ_of_lt (h.known (mem_entries_subscribeAll hmodel hnext hid))
  case size_le =>
    have hle := h.size_le
    omega
  case old =>
    intro id hold
    rw [subscriber?_push hsubscribers, if_neg]
    · exact h.old hold
    · rintro rfl
      rw [hnew] at hold
      cases hold
  case held =>
    intro id subscriber hid hsubscriber
    rw [hwatchers, List.count_append]
    rw [subscriber?_push hsubscribers] at hsubscriber
    split at hsubscriber
    · next hnext =>
      cases hsubscriber
      rw [hnext]
      exact Nat.le_add_left_of_le hhandles
    · exact Nat.le_add_right_of_le (h.held hid hsubscriber)
  case own =>
    intro id hid
    rw [hwatchers] at hid
    rcases List.mem_append.1 hid with hid | hid
    · exact h.own id hid
    · rw [hkept id hid]
      exact hnew
  case collector => rw [hcollector]; exact h.collector
  case host => rw [hhost]; exact h.host

end Store

namespace Run

variable {s : Store ρ σ} {binder : BinderId} {respond : Respond ρ σ}

/-- Setting a text leaves a pass underway. -/
theorem stays_setText (node : NodeId) (text : String) :
    Stays (s.Underway binder) (setText node text : Run ρ σ Unit) :=
  stays_change fun _ h => h.of_same rfl rfl rfl rfl rfl

/-- Setting the value of a node leaves a pass underway. -/
theorem stays_setValue (node : NodeId) (value : String) :
    Stays (s.Underway binder) (setValue node value : Run ρ σ Unit) :=
  stays_change fun _ h => h.of_same rfl rfl rfl rfl rfl

/-- Raising an error leaves a pass underway. -/
theorem stays_raising (outcome : Except Error α) :
    Stays (s.Underway binder) (orRaise outcome : Run ρ σ α) :=
  stays_orRaise (fun _ _ h => h.of_same rfl rfl rfl rfl rfl) outcome

/-- Binding a path leaves a pass underway: the watcher that is made is held by the binder, or by nobody if
the path is not found. -/
theorem stays_bindPath (path : Path) (reaction : Reaction ρ) :
    Stays (s.Underway binder) (bind binder path reaction : Run ρ σ SubscriberId) := by
  intro t ht result t' h
  unfold bind at h
  rw [look_bind, bind_apply] at h
  cases hfollow : t.model.follow path (t.binder binder).root with
  | mk cells outcome =>
    cases outcome with
    | ok value =>
      rw [watch_ok _ _ hfollow] at h
      cases h
      refine ht.enroll 1 _ cells (.made t.nextSubscriber cells value) [t.nextSubscriber] rfl rfl ?_ ?_ ?_
        ?_ rfl rfl
      · simp [Store.keepWatcher, Store.enroll]
      · exact congrArg Binder.watchers (Store.binder_keepWatcher ht.bound _)
      · simp
      · exact fun id hid => List.mem_singleton.1 hid
    | error e =>
      rw [watch_error _ _ hfollow] at h
      cases h
      refine ht.enroll 0 _ cells (.raised e) [] rfl rfl rfl (List.append_nil _).symm (Nat.zero_le _)
        ?_ rfl rfl
      exact fun _ hid => absurd hid List.not_mem_nil

/-- Binding a value leaves a pass underway. -/
theorem stays_bindValue (node : NodeId) (expression : String) :
    Stays (s.Underway binder) (bindValue binder node expression : Run ρ σ Unit) := by
  refine stays_bind (stays_raising _) fun path => stays_look_bind fun settings => ?_
  refine stays_bind (stays_bindPath path _) fun _ => ?_
  refine stays_bind (stays_change fun _ h => h.of_same rfl rfl rfl rfl rfl) fun _ => ?_
  refine stays_bind (stays_look_bind fun _ => stays_raising _) fun value => ?_
  refine stays_bind (stays_look_bind fun _ => stays_demand _) fun text => stays_setValue node text

/-- Binding a text leaves a pass underway. -/
theorem stays_bindText (node : NodeId) (expression : String) :
    Stays (s.Underway binder) (bindText binder node expression : Run ρ σ Unit) := by
  refine stays_look_bind fun settings => stays_bind (stays_raising _) fun template => ?_
  refine stays_bind (stays_each _ fun path _ => ?_) fun _ => ?_
  · exact stays_bind (stays_bindPath path _) fun _ => stays_done ()
  · refine stays_bind (stays_look_bind fun _ => ?_) fun text => stays_setText node text
    exact stays_bind (stays_demand _) fun outcome => stays_raising outcome

/-- The handlers of the library leave a pass underway. -/
theorem stays_handle (kind : DirectiveKind) (node : NodeId) (expression : String) :
    Stays (s.Underway binder) (handle respond kind (builtIn kind) binder node expression) := by
  refine stays_bind (stays_change fun _ h => h.of_same rfl rfl rfl rfl rfl) fun _ => ?_
  cases kind with
  | model => exact stays_bindValue node expression
  | text => exact stays_bindText node expression

/-- Compiling an attribute leaves a pass underway. -/
theorem stays_compileAttribute (marker : String) (node : NodeId) (entry : String × String) :
    Stays (s.Underway binder) (compileAttribute respond {} binder marker node entry) := by
  unfold compileAttribute
  cases directiveName? marker entry.1 with
  | none => exact stays_done ()
  | some name =>
    simp only [lookup_builtIn]
    cases DirectiveKind.ofName? name with
    | none =>
      intro t ht result t' h
      cases h
      exact ht.of_same rfl rfl rfl rfl rfl
    | some kind => exact stays_handle kind node entry.2

/-- Compiling a text leaves a pass underway. -/
theorem stays_compileText (config : Config) (node : NodeId) (text : String) :
    Stays (s.Underway binder) (compileText respond {} binder config node text) := by
  unfold compileText
  split
  · have hhandle : Stays (s.Underway binder) (handle respond .text (builtIn .text) binder node
        (String.ofList (trim text.toList))) := stays_handle .text node _
    exact hhandle
  · exact stays_done ()

/-- A walk through some levels of a tree leaves a pass underway, by induction on the levels. -/
theorem stays_compileNode (config : Config) (depth : Nat) (node : NodeId) :
    Stays (s.Underway binder) (compileNode respond {} binder config depth node) := by
  induction depth generalizing node with
  | zero => exact stays_diverge
  | succ depth ih =>
    refine stays_look_bind fun found => ?_
    split
    · refine stays_bind (stays_each _ fun entry _ => stays_compileAttribute _ node entry) fun _ => ?_
      exact stays_look_bind fun children => stays_each _ fun child _ => ih child
    · exact stays_compileText config node _
    · exact stays_done ()

end Run

/-! ## Letting go -/

namespace Store

variable {s t s' : Store ρ σ}

/-- Letting go changes nothing but subscribers. -/
theorem releaseAll_eq (ids : List SubscriberId) (t : Store ρ σ) :
    ids.foldl Store.release t = { t with subscribers := (ids.foldl Store.release t).subscribers } := by
  induction ids generalizing t with
  | nil => rfl
  | cons id rest ih => exact ih (t.release id)

/-- Letting go of subscribers removes none of them. -/
theorem size_releaseAll (ids : List SubscriberId) (t : Store ρ σ) :
    (ids.foldl Store.release t).subscribers.size = t.subscribers.size := by
  induction ids generalizing t with
  | nil => rfl
  | cons id rest ih =>
    rw [List.foldl_cons, ih]
    exact Array.size_modify

/-- Whoever is let go of several times has so many fewer who hold it. -/
theorem subscriber?_releaseAll (ids : List SubscriberId) (t : Store ρ σ) (id : SubscriberId) :
    (ids.foldl Store.release t).subscriber? id = (t.subscriber? id).map fun subscriber =>
      { subscriber with handles := subscriber.handles - ids.count id } := by
  induction ids generalizing t with
  | nil => simp
  | cons first rest ih =>
    rw [List.foldl_cons, ih, release, subscriber?_updateSubscriber, List.count_cons]
    by_cases hfirst : first = id
    · rw [if_pos hfirst, if_pos (beq_iff_eq.2 hfirst), Option.map_map]
      refine congrArg (Option.map · _) (funext fun subscriber => ?_)
      simp only [Function.comp_apply, Nat.sub_sub, Nat.add_comm]
    · rw [if_neg hfirst, if_neg fun h => hfirst (beq_iff_eq.1 h), Nat.add_zero]

/-- What a failed pass leaves behind. Those that it made are gone, and but for their entries in lists of
cells the model is what it was before; so are the older subscribers, the slot and the host. -/
structure CalledOff (s s' : Store ρ σ) : Prop where
  ridOf : s'.RidOf (s.madeBy s')
  model : s'.model.without (s.madeBy s') = s.model
  subscriber : ∀ {id}, s.isNewer id = false → s'.subscriber? id = s.subscriber? id
  collector : s'.collector = s.collector
  host : s'.host = s.host

/-- Those who were made between two stores have the places that were added. -/
theorem madeBy_iff {id : SubscriberId} :
    s.madeBy s' id = true ↔ s.subscribers.size ≤ id.index ∧ id.index < s'.subscribers.size := by
  simp [madeBy, isNewer]

/-- A pass underway is called off by letting go of the watchers of its binder: nobody else holds them. -/
theorem Underway.calledOff {binder : BinderId} (hknown : s.Known) (h : s.Underway binder t) :
    s.CalledOff ((t.binder binder).watchers.foldl Store.release t) := by
  have hsame := releaseAll_eq (t.binder binder).watchers t
  have hsize := size_releaseAll (t.binder binder).watchers t
  have hsubscriber := subscriber?_releaseAll (t.binder binder).watchers t
  generalize (t.binder binder).watchers.foldl Store.release t = s' at hsame hsize hsubscriber ⊢
  have hmodel : s'.model = t.model := by rw [hsame]
  have hcollector : s'.collector = t.collector := by rw [hsame]
  have hhost : s'.host = t.host := by rw [hsame]
  refine ⟨⟨?_, ?_⟩, ?_, ?_, hcollector.trans h.collector, hhost.trans h.host⟩
  · -- held by the binder at most, and the binder has let go of it each time that it held it
    intro id hid
    obtain ⟨hle, hlt⟩ := madeBy_iff.1 hid
    have hthere : t.subscriber? id = some t.subscribers[id.index] := Array.getElem?_eq_getElem (hsize ▸ hlt)
    have hheld := h.held (isNewer_of_le hle) hthere
    refine ⟨t.subscribers[id.index].role, ?_⟩
    rw [hsubscriber, hthere, Option.map_some, Nat.sub_eq_zero_of_le hheld]
  · intro id hslot
    have hlt := hknown.collector ((hcollector.trans h.collector) ▸ hslot)
    refine Bool.eq_false_iff.2 fun hid => ?_
    exact absurd (madeBy_iff.1 hid).1 (Nat.not_le_of_lt hlt)
  · -- whoever has an entry has been made, so of the newer ones the pass has made all
    have hmade : t.model.without (s.madeBy s') = t.model.without s.isNewer := by
      refine Model.without_congr fun cell id hid => ?_
      have hlt : ¬s'.subscribers.size ≤ id.index := Nat.not_le_of_lt (hsize ▸ h.known hid)
      unfold madeBy
      rw [show s'.isNewer id = false from decide_eq_false hlt, Bool.not_false, Bool.and_true]
    have hbefore : s.model.without s.isNewer = s.model :=
      Model.without_eq_self fun cell id hid => decide_eq_false (Nat.not_le_of_lt (hknown.entries hid))
    rw [hmodel, hmade, h.model, hbefore]
  · intro id hold
    have hcount : (t.binder binder).watchers.count id = 0 := by
      refine List.count_eq_zero.2 fun hmem => ?_
      rw [h.own id hmem] at hold
      cases hold
    rw [hsubscriber, h.old hold, hcount]
    cases s.subscriber? id <;> rfl

end Store

section Compile

variable {respond : Respond ρ σ} {config : Config} {root : Value} {s s' : Store ρ σ} {depth : Nat}
  {node : NodeId} {e : Error}

/-- A pass that fails is called off. -/
theorem calledOff_of_compile (hknown : s.Known)
    (hfail : Run.compile respond depth root config {} node s = some (.error e, s')) :
    s.CalledOff s' := by
  obtain ⟨outcome, t, hnode, hend⟩ := compile_eq_some_iff.1 hfail
  have hunderway : s.Underway (s.addBinder root config).1 t :=
    Run.stays_compileNode config depth node _ (Store.underway_addBinder hknown root config) _ _ hnode
  cases outcome with
  | ok _ => cases hend
  | error e =>
    cases hend
    exact hunderway.calledOff hknown

/-- A pass that fails retires its bindings: those that it made are gone, and only their entries tell its
model from the one before. Whatever a host does later, input to listeners that the pass has attached
included, none of them is told of anything, starts its reaction or joins a list, and every cell that is
written has dropped them. And it all comes to the same, in results, errors, nodes and deliveries to others,
as if the pass had subscribed nobody. The nodes are taken as the pass left them, as it does not take back
what it showed.

That subscribers are known is so wherever a host only subscribes those that it was given (`Steady.known`).
A host cannot ask for one of those that are gone, as the pass has not given it any. -/
theorem failed_compile_retired (hknown : s.Known)
    (hfail : Run.compile respond depth root config {} node s = some (.error e, s')) :
    s.CalledOff s' ∧ ∀ {α : Type} (host : Host ρ σ) (levels : Nat) (script : Script ρ σ α),
      host.Asks (·.Spares (s.madeBy s')) → script.Asks (·.Spares (s.madeBy s')) →
      (∀ result s'', script.run host levels s' = some (result, s'') →
        s'.PassedOver (s.madeBy s') s'') ∧
      (host.IsBlind (s.madeBy s') → script.IsBlind (s.madeBy s') →
        script.run host levels { s' with model := s.model } =
          (script.run host levels s').map fun outcome =>
            (outcome.1, outcome.2.without (s.madeBy s'))) := by
  have hoff := calledOff_of_compile hknown hfail
  refine ⟨hoff, fun host levels script hhost hscript => ?_⟩
  have hunsubscribed : s'.without (s.madeBy s') = { s' with model := s.model } :=
    congrArg (fun model => { s' with model }) hoff.model
  constructor
  · have hoverlooks : Run.Overlooks False (s.madeBy s') (script.run host levels) :=
      Script.overlooks_run hhost False.elim levels hscript False.elim
    exact (hoverlooks s' hoff.ridOf).2
  · intro hhost' hscript'
    have hoverlooks : Run.Overlooks True (s.madeBy s') (script.run host levels) :=
      Script.overlooks_run hhost (fun _ => hhost') levels hscript fun _ => hscript'
    rw [← hunsubscribed]
    exact (hoverlooks s' hoff.ridOf).1 trivial

end Compile

/-- A host whose state says whether it has been told of a change. -/
def attentive : Host Unit Bool where
  script _ _ := .perform (.setHost true)

/-- Two inputs over a model with one key, whose changes the host is told of. The first input is bound to
the key, and the second to a key below it, which is not there. -/
def halfBound : Store Unit Bool where
  model := {
    objects := #[[("a", .reactive ⟨0⟩)]]
    cells := #[{ value := .bool true, subscribers := [⟨0⟩] }] }
  view := (View.plant (.element "form" []
    [.element "input" [("v-model", "a")] [], .element "input" [("v-model", "a.b")] []]) {}).2
  subscribers := #[⟨1, .hosted true ()⟩]
  host := false

/-- After the pass has failed, somebody types into the first input. The listener that the pass left there
writes the key, the host is told of it, and the watchers of the pass are dropped: the one whose binder let
go of it, and the one that was still to find its value. -/
theorem failed_compile_retired_typed : ∃ s' s'', halfBound.Known ∧
    Run.compile (attentive.respond 0) 2 (.object ⟨0⟩) {} {} ⟨2⟩ halfBound =
      some (.error (.pathResolution "a.b" "b"), s') ∧
    (s'.entries ⟨0⟩, s'.host) = ([⟨0⟩, ⟨1⟩, ⟨2⟩], false) ∧ halfBound.CalledOff s' ∧
    (Script.perform (.input ⟨0⟩ "typed")).run attentive 1 s' = some (.ok (), s'') ∧
    (s''.entries ⟨0⟩, s''.host) = ([⟨0⟩], true) ∧ s'.PassedOver (halfBound.madeBy s') s'' ∧
    (Script.perform (.input ⟨0⟩ "typed")).run attentive 1 { s' with model := halfBound.model } =
      some (.ok (), s''.without (halfBound.madeBy s')) := by
  have hknown : halfBound.Known := .of_cells (by decide) (by decide)
  have hruns : (Run.compile (attentive.respond 0) 2 (.object ⟨0⟩) {} {} ⟨2⟩ halfBound).bind
      (fun failed => ((Script.perform (.input ⟨0⟩ "typed")).run attentive 1 failed.2).map fun typed =>
        (failed.1, (failed.2.entries ⟨0⟩, failed.2.host), typed.1, typed.2.entries ⟨0⟩, typed.2.host)) =
      some (.error (.pathResolution "a.b" "b"), ([⟨0⟩, ⟨1⟩, ⟨2⟩], false), .ok (), [⟨0⟩], true) := by
    cbv
  obtain ⟨⟨outcome, s'⟩, hfail, htyped⟩ := Option.bind_eq_some_iff.1 hruns
  obtain ⟨⟨result, s''⟩, htyped, heq⟩ := Option.map_eq_some_iff.1 htyped
  simp only [Prod.mk.injEq] at heq
  obtain ⟨rfl, hbefore, rfl, hafter⟩ := heq
  obtain ⟨hoff, hlater⟩ := failed_compile_retired hknown hfail
  obtain ⟨hpassed, hsame⟩ := hlater attentive 1 (Script.perform (.input ⟨0⟩ "typed"))
    (fun _ _ => ⟨fun _ h => (List.not_mem_nil h).elim, fun _ => trivial⟩)
    ⟨fun _ h => (List.not_mem_nil h).elim, fun _ => trivial⟩
  refine ⟨s', s'', hknown, hfail, Prod.ext hbefore.1 hbefore.2, hoff, htyped,
    Prod.ext hafter.1 hafter.2, hpassed _ _ htyped, ?_⟩
  rw [hsame (fun _ _ => ⟨trivial, fun _ => trivial⟩) ⟨trivial, fun _ => trivial⟩, htyped]
  rfl

end DataBinding
