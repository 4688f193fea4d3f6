import DataBinding.Proofs.Runs.Overlooking

/-!
# Operations overlook who is gone

Every operation overlooks those who are gone unless it is asked for one of them by name, and so does every
script whose host names none of them; it is blind to their entries if it makes nothing of them where it looks
at the whole store. What carries the proof is that a cycle tells the same entries whether those who are gone
were in the list or not: it drops them first, and of the subscribers that it tells none is gone.
-/

set_option autoImplicit false

namespace DataBinding

variable {ρ σ α : Type}

namespace Run

variable {blind : Prop} {gone : SubscriberId → Bool}

/-! ## Reading and showing -/

/-- A model without the entries of those who are gone holds the same values. -/
theorem alike_without (s : Store ρ σ) (gone : SubscriberId → Bool) :
    s.model.Alike (s.without gone).model := Model.alike_without s.model gone

/-- Displaying a value looks at values only. -/
theorem overlooks_display (value : Value) : Overlooks blind gone (display value : Run ρ σ String) :=
  overlooks_look_bind (fun s => (alike_without s gone).display? value) fun _ => overlooks_demand _

/-- Writing out a value looks at values only. -/
theorem overlooks_toJson (value : Value) : Overlooks blind gone (toJson value : Run ρ σ Json) :=
  overlooks_look_bind (fun s => (alike_without s gone).json? value) fun _ => overlooks_demand _

/-- Rendering looks at values only. -/
theorem overlooks_render (template : Template) (root : Value) :
    Overlooks blind gone (render template root : Run ρ σ String) :=
  overlooks_look_bind (fun s => (alike_without s gone).render? template root) fun _ =>
    overlooks_bind (overlooks_demand _) fun outcome => overlooks_orRaise outcome

/-- Looking at a path looks at values only. -/
theorem overlooks_peek (path : Path) (root : Value) : Overlooks blind gone (peek path root : Run ρ σ Value) :=
  overlooks_look_bind (fun s => (alike_without s gone).peek path root) fun _ => overlooks_orRaise _

/-- The collector, who is not gone, is subscribed as if nobody were. -/
theorem overlooks_subscribeCollector (cells : List CellId) :
    Overlooks blind gone (change (·.subscribeCollector cells) : Run ρ σ Unit) :=
  overlooks_change (fun _ hs => Store.without_subscribeCollector hs cells)
    fun _ hs => Store.passedOver_subscribeCollector hs cells

/-- Resolving a path looks at values, and subscribes the collector. -/
theorem overlooks_resolve (path : Path) (root : Value) :
    Overlooks blind gone (resolve path root : Run ρ σ Value) :=
  overlooks_look_bind (fun s => (alike_without s gone).follow path root) fun _ =>
    overlooks_bind (overlooks_subscribeCollector _) fun _ => overlooks_orRaise _

/-- Setting a text has nothing to do with subscribers. -/
theorem overlooks_setText (node : NodeId) (text : String) :
    Overlooks blind gone (setText node text : Run ρ σ Unit) :=
  overlooks_shown (·.setText node text) rfl fun _ _ h => by cases h

/-- Setting the value of a node has nothing to do with subscribers. -/
theorem overlooks_setValue (node : NodeId) (value : String) :
    Overlooks blind gone (setValue node value : Run ρ σ Unit) :=
  overlooks_shown (·.setValue node value) rfl fun _ _ h => by cases h

/-! ## Telling subscribers -/

variable {respond : Respond ρ σ}
  (hrespond : ∀ reaction stimulus, Overlooks blind gone (respond reaction stimulus))

section Telling

include hrespond

/-- A reaction overlooks those who are gone if the host does. -/
theorem overlooks_react (reaction : Reaction ρ) (value : Value) :
    Overlooks blind gone (react respond reaction value) := by
  cases reaction with
  | showValue node =>
    exact overlooks_bind (overlooks_display value) fun text => overlooks_setValue node text
  | showText node template root =>
    exact overlooks_bind (overlooks_render template root) fun text => overlooks_setText node text
  | hosted reaction => exact hrespond reaction _

/-- Delivering a value to somebody who is not gone overlooks those who are. -/
theorem overlooks_deliver {id : SubscriberId} (hid : gone id = false) (watcher : Watcher ρ)
    (value : Value) : Overlooks blind gone (deliver respond id watcher value) := by
  have hdelivered : Overlooks blind gone (change (·.record (.delivered id value)) : Run ρ σ Unit) :=
    overlooks_record (fun other hother => Option.some.inj hother ▸ hid) fun _ _ h => by cases h
  have hreceived : Overlooks blind gone (change fun s => (s.updateWatcher id (·.receive value)).record
      (.delivered id value) : Run ρ σ Unit) :=
    overlooks_bind (overlooks_updateSubscriber hid _) fun _ => hdelivered
  exact overlooks_bind hreceived fun _ => overlooks_react hrespond watcher.reaction value

/-- Updating a watcher who is not gone overlooks those who are. -/
theorem overlooks_updateWatcher {id : SubscriberId} (hid : gone id = false) (watcher : Watcher ρ) :
    Overlooks blind gone (updateWatcher respond id watcher) := by
  unfold updateWatcher
  split
  · exact overlooks_done ()
  · refine overlooks_bind (overlooks_peek _ _) fun current => ?_
    have hresolved : Overlooks blind gone (change (·.record (.resolved id current)) : Run ρ σ Unit) :=
      overlooks_record (fun other hother => Option.some.inj hother ▸ hid) fun _ _ h => by cases h
    refine overlooks_bind hresolved fun _ => ?_
    split
    · exact overlooks_done ()
    · exact overlooks_deliver hrespond hid watcher current

/-- Updating somebody who is not gone overlooks those who are. -/
theorem overlooks_update {id : SubscriberId} (hid : gone id = false) :
    Overlooks blind gone (update respond id) := by
  have hupdating : Overlooks blind gone (change (·.record (.updating id)) : Run ρ σ Unit) :=
    overlooks_record (fun other hother => Option.some.inj hother ▸ hid) fun _ _ h => by cases h
  refine overlooks_bind hupdating fun _ => overlooks_look_bind (fun _ => rfl) fun subscriber => ?_
  split
  · exact overlooks_updateWatcher hrespond hid _
  · exact hrespond _ _
  · exact overlooks_done ()

end Telling

variable {tell : SubscriberId → Run ρ σ Unit} (htell : ∀ id, gone id = false → Overlooks blind gone (tell id))

include htell

/-- The turn of somebody who is not gone overlooks those who are. -/
theorem overlooks_visit {id : SubscriberId} (hid : gone id = false) : Overlooks blind gone (visit tell id) := by
  refine overlooks_look_bind (fun _ => rfl) fun live => ?_
  split
  · exact overlooks_holding hid (htell id hid)
  · exact overlooks_done ()

/-- A cycle, seen from where the entries that are not live have been dropped. -/
theorem overlooks_cycle (cell : CellId) {s : Store ρ σ} (hs : s.RidOf gone) :
    (blind → notify tell cell (s.without gone) =
        (notify tell cell s).map fun outcome => (outcome.1, outcome.2.without gone)) ∧
      ∀ result s', notify tell cell s = some (result, s') → (s.prune cell).PassedOver gone s' := by
  have hpruned := hs.passedOver (Store.passedOver_prune hs cell)
  have hcycle : ∀ s : Store ρ σ, notify tell cell s =
      each ((s.prune cell).entries cell) (visit tell) (s.prune cell) := fun _ => rfl
  have heach : Overlooks blind gone (each ((s.prune cell).entries cell) (visit tell)) :=
    overlooks_each _ fun id hid => overlooks_visit htell (hs.gone_of_prune cell id hid)
  rw [hcycle, hcycle, hs.entries_prune, Store.without_prune]
  exact heach (s.prune cell) hpruned

/-- A cycle overlooks those who are gone: it drops them before the first turn. -/
theorem overlooks_notify (cell : CellId) : Overlooks blind gone (notify tell cell) := by
  intro s hs
  obtain ⟨hsame, hpassed⟩ := overlooks_cycle htell cell hs
  exact ⟨hsame, fun result s' h => (Store.passedOver_prune hs cell).trans (hpassed result s' h)⟩

/-! ## Writing -/

/-- What is stored and the cycle that follows belong together: in between, a cell is written that has not
dropped those who are gone. -/
theorem overlooks_setCell (cell : CellId) (value : Value) :
    Overlooks blind gone (setCell tell cell value : Run ρ σ Bool) := by
  intro s hs
  have hvalue : ((s.without gone).model.cell cell).value = (s.model.cell cell).value :=
    (alike_without s gone).value cell
  cases hsame : (s.model.cell cell).value.strictEq value with
  | true =>
    rw [setCell_same hsame, setCell_same (hvalue ▸ hsame)]
    refine ⟨fun _ => rfl, fun result s' h => ?_⟩
    cases h
    exact .refl hs
  | false =>
    rw [setCell_other hsame, setCell_other (hvalue ▸ hsame), Store.without_storeCell]
    -- The store in between is rid of them but for the list of the cell, which the cycle prunes first.
    have hstored : (s.storeCell cell value).RidOf gone := ⟨hs.unheld, hs.uncollected⟩
    have hstart := Store.passedOver_cycleStart hs cell value
    obtain ⟨hcycle, hpassed⟩ := overlooks_cycle htell cell hstored
    refine ⟨fun hblind => ?_, fun result s' h => ?_⟩
    · rw [bind_apply, bind_apply]
      unfold writing
      rw [hcycle hblind]
      cases notify tell cell (s.storeCell cell value) with
      | none => rfl
      | some outcome =>
        obtain ⟨e | a, s₁⟩ := outcome
        · rfl
        · rfl
    · rw [bind_apply] at h
      unfold writing at h
      cases hnotify : notify tell cell (s.storeCell cell value) with
      | none =>
        rw [hnotify] at h
        cases h
      | some outcome =>
        obtain ⟨e | a, s₁⟩ := outcome
        · have hpassed₁ := hstart.trans (hpassed _ _ hnotify)
          have hfailed : Overlooks blind gone (change (·.record (.writeFailed e)) : Run ρ σ Unit) :=
            overlooks_failed e
          rw [hnotify] at h
          cases h
          exact hpassed₁.trans ((hfailed s₁ (hs.passedOver hpassed₁)).2 _ _ rfl)
        · rw [hnotify] at h
          cases h
          exact hstart.trans (hpassed _ _ hnotify)

omit htell

/-- Storing a plain value tells nobody. -/
theorem overlooks_putPlain (object : ObjectId) (key : String) (value : Value) :
    Overlooks blind gone (putPlain object key value : Run ρ σ Bool) := by
  have hput : Overlooks blind gone (change fun s => (s.withModel (·.putPlain object key value)).record
      (.storedPlain object key value) : Run ρ σ Unit) := by
    refine overlooks_changeAside (fun _ => rfl) (fun _ => ⟨rfl, rfl, fun _ => rfl⟩)
      fun s => ⟨[.storedPlain object key value], rfl, ?_, ?_⟩
    · intro event hevent id hid
      rw [List.mem_singleton.1 hevent] at hid
      cases hid
    · intro cell value' hmem
      cases List.mem_singleton.1 hmem
  exact overlooks_bind hput fun _ => overlooks_done true

/-- Finding the container of a path looks at values, and subscribes the collector. -/
theorem overlooks_container (path : Path) (root : Value) :
    Overlooks blind gone (container path root : Run ρ σ ObjectId) := by
  refine overlooks_look_bind (fun s => (alike_without s gone).followKeys _ _ root) fun reading => ?_
  refine overlooks_bind (overlooks_subscribeCollector _) fun _ => ?_
  split
  · exact overlooks_raise _
  · exact overlooks_done _
  · exact overlooks_raise _

include htell

/-- Storing a value under a key overlooks those who are gone. -/
theorem overlooks_setKey (object : ObjectId) (key : String) (value : Value) :
    Overlooks blind gone (setKey tell object key value : Run ρ σ Bool) := by
  refine overlooks_look_bind (fun s => (alike_without s gone).slot? object key) fun slot => ?_
  split
  · exact overlooks_setCell htell _ value
  · split
    · exact overlooks_done false
    · exact overlooks_putPlain object key value
  · exact overlooks_putPlain object key value

/-- Writing through a path overlooks those who are gone. -/
theorem overlooks_assign (path : Path) (root value : Value) :
    Overlooks blind gone (assign tell path root value : Run ρ σ Bool) :=
  overlooks_bind (overlooks_writing (overlooks_container path root)) fun object =>
    overlooks_setKey htell object path.last value

omit htell
include hrespond

/-- A listener that hears an input overlooks those who are gone. -/
theorem overlooks_hear (text : String) (listener : Listener ρ) :
    Overlooks blind gone (hear respond text listener) := by
  cases listener with
  | assign root path =>
    exact overlooks_bind (overlooks_assign (fun _ hid => overlooks_update hrespond hid) path root _)
      fun _ => overlooks_done ()
  | hosted reaction => exact hrespond reaction _

/-- An input overlooks those who are gone. -/
theorem overlooks_input (node : NodeId) (text : String) : Overlooks blind gone (input respond node text) :=
  overlooks_bind (overlooks_withView _) fun _ => overlooks_look_bind (fun _ => rfl) fun _ =>
    overlooks_each _ fun listener _ => overlooks_hear hrespond text listener

omit hrespond

/-! ## Compiling -/

/-- A new watcher is not gone, and is made as if nobody were. -/
theorem overlooks_watch (root : Value) (path : Path) (policy : BaselinePolicy) (reaction : Reaction ρ) :
    Overlooks blind gone (watch root path policy reaction : Run ρ σ SubscriberId) := by
  intro s hs
  have hfollow' := (alike_without s gone).follow path root
  cases hfollow : s.model.follow path root with
  | mk cells outcome =>
    rw [hfollow] at hfollow'
    cases outcome with
    | ok value =>
      rw [watch_ok policy reaction hfollow, watch_ok policy reaction hfollow', Store.without_enroll hs]
      refine ⟨fun _ => rfl, fun result s' h => ?_⟩
      cases h
      refine Store.passedOver_enroll hs _ _ _ (fun id hid => ?_) fun _ _ h => by cases h
      exact Option.some.inj hid ▸ hs.next
    | error e =>
      rw [watch_error policy reaction hfollow, watch_error policy reaction hfollow',
        Store.without_enroll hs]
      refine ⟨fun _ => rfl, fun result s' h => ?_⟩
      cases h
      exact Store.passedOver_enroll hs _ _ _ (fun id hid => by cases hid) fun _ _ h => by cases h

/-- Binding a path overlooks those who are gone. -/
theorem overlooks_bindPath (binder : BinderId) (path : Path) (reaction : Reaction ρ) :
    Overlooks blind gone (bind binder path reaction : Run ρ σ SubscriberId) := by
  have hkeep : ∀ id, Overlooks blind gone (change (·.keepWatcher binder id) : Run ρ σ Unit) := fun id =>
    overlooks_changeAside (fun _ => rfl) (fun _ => ⟨rfl, rfl, fun _ => rfl⟩)
      fun _ => ⟨[], rfl, by simp, by simp⟩
  exact overlooks_look_bind (fun _ => rfl) fun _ => overlooks_bind (overlooks_watch _ _ _ _) fun id =>
    overlooks_bind (hkeep id) fun _ => overlooks_done id

/-- Binding a value overlooks those who are gone. -/
theorem overlooks_bindValue (binder : BinderId) (node : NodeId) (expression : String) :
    Overlooks blind gone (bindValue binder node expression : Run ρ σ Unit) := by
  refine overlooks_bind (overlooks_orRaise _) fun path => overlooks_look_bind (fun _ => rfl) fun _ => ?_
  refine overlooks_bind (overlooks_bindPath binder path _) fun _ => ?_
  refine overlooks_bind (overlooks_withView _) fun _ => overlooks_bind (overlooks_peek _ _) fun value => ?_
  exact overlooks_bind (overlooks_display value) fun text => overlooks_setValue node text

/-- Binding a text overlooks those who are gone. -/
theorem overlooks_bindText (binder : BinderId) (node : NodeId) (expression : String) :
    Overlooks blind gone (bindText binder node expression : Run ρ σ Unit) := by
  refine overlooks_look_bind (fun _ => rfl) fun _ => overlooks_bind (overlooks_orRaise _) fun template => ?_
  refine overlooks_bind (overlooks_each _ fun path _ => ?_) fun _ => ?_
  · exact overlooks_bind (overlooks_bindPath binder path _) fun _ => overlooks_done ()
  · exact overlooks_bind (overlooks_render template _) fun text => overlooks_setText node text

include hrespond

/-- Handling a directive overlooks those who are gone if the host does. -/
theorem overlooks_handle (kind : DirectiveKind) (handler : Handler ρ) (binder : BinderId) (node : NodeId)
    (expression : String) : Overlooks blind gone (handle respond kind handler binder node expression) := by
  have hdispatched : Overlooks blind gone
      (change (·.record (.dispatched kind node expression)) : Run ρ σ Unit) :=
    overlooks_record (fun _ hid => by cases hid) fun _ _ h => by cases h
  refine overlooks_bind hdispatched fun _ => ?_
  cases handler with
  | bindValue => exact overlooks_bindValue binder node expression
  | bindText => exact overlooks_bindText binder node expression
  | hosted reaction => exact hrespond reaction _

/-- Compiling an attribute overlooks those who are gone if the host does. -/
theorem overlooks_compileAttribute (directives : Directives ρ) (binder : BinderId) (marker : String)
    (node : NodeId) (entry : String × String) :
    Overlooks blind gone (compileAttribute respond directives binder marker node entry) := by
  unfold compileAttribute
  split
  · exact overlooks_done ()
  · exact overlooks_bind (overlooks_orRaise _) fun found =>
      overlooks_handle hrespond found.1 found.2 binder node entry.2

/-- Compiling a text overlooks those who are gone if the host does. -/
theorem overlooks_compileText (directives : Directives ρ) (binder : BinderId) (config : Config)
    (node : NodeId) (text : String) :
    Overlooks blind gone (compileText respond directives binder config node text) := by
  unfold compileText
  split
  · exact overlooks_bind (overlooks_orRaise _) fun handler =>
      overlooks_handle hrespond .text handler binder node _
  · exact overlooks_done ()

/-- A walk through some levels of a tree overlooks those who are gone, by induction on the levels. -/
theorem overlooks_compileNode (directives : Directives ρ) (binder : BinderId) (config : Config)
    (depth : Nat) (id : NodeId) :
    Overlooks blind gone (compileNode respond directives binder config depth id) := by
  induction depth generalizing id with
  | zero => exact overlooks_diverge
  | succ depth ih =>
    refine overlooks_look_bind (fun _ => rfl) fun node => ?_
    split
    · refine overlooks_bind (overlooks_each _ fun entry _ => ?_) fun _ =>
        overlooks_look_bind (fun _ => rfl) fun children => overlooks_each _ fun child _ => ih child
      exact overlooks_compileAttribute hrespond directives binder config.marker id entry
    · exact overlooks_compileText hrespond directives binder config id _
    · exact overlooks_done ()

omit hrespond

/-- Letting go of those who are gone changes nothing, as nobody holds them. -/
theorem overlooks_release (id : SubscriberId) :
    Overlooks blind gone (change (·.release id) : Run ρ σ Unit) := by
  refine overlooks_change (fun _ _ => rfl) fun s hs => ?_
  refine .of_subscribers hs rfl rfl rfl fun other hother => ?_
  rw [Store.release, Store.subscriber?_updateSubscriber]
  split
  · obtain ⟨role, hrole⟩ := hs.unheld hother
    rw [hrole]
    rfl
  · rfl

/-- Letting go of some subscribers overlooks those who are gone already. -/
theorem overlooks_releaseAll (ids : List SubscriberId) :
    Overlooks blind gone (change fun s => ids.foldl Store.release s : Run ρ σ Unit) := by
  induction ids with
  | nil => exact overlooks_done ()
  | cons id rest ih => exact overlooks_bind (overlooks_release id) fun _ => ih

include hrespond

/-- A pass overlooks those who are gone, whether its own watchers stay or are let go. -/
theorem overlooks_compile (depth : Nat) (root : Value) (config : Config) (directives : Directives ρ)
    (node : NodeId) : Overlooks blind gone (compile respond depth root config directives node) := by
  have hbinder : Overlooks blind gone (changeGet (·.addBinder root config) : Run ρ σ BinderId) :=
    overlooks_changeGet (fun _ _ => rfl) fun _ hs => .of_subscribers hs rfl rfl rfl fun _ _ => rfl
  refine overlooks_bind hbinder fun binder => ?_
  have hnode := overlooks_compileNode hrespond directives binder config depth node
  refine overlooks_bind (overlooks_attempt hnode) fun outcome => ?_
  refine overlooks_look_bind (fun _ => rfl) fun watchers => ?_
  cases outcome with
  | ok _ => exact overlooks_done watchers
  | error e => exact overlooks_bind (overlooks_releaseAll watchers) fun _ => overlooks_propagate e

/-! ## Every operation -/

/-- Every operation overlooks those who are gone unless it is asked for one of them by name. A look at the
whole store is another matter, as it shows their entries. -/
theorem overlooks_perform (depth : Nat) (op : Op ρ σ) (hnamed : ∀ id ∈ op.named, gone id = false)
    (hlook : op ≠ .look) : Overlooks blind gone (perform respond depth op) := by
  have htell : ∀ id, gone id = false → Overlooks blind gone (update respond id) :=
    fun _ hid => overlooks_update hrespond hid
  -- Only the operations that name somebody are asked not to name those who are gone.
  cases op with
  | look => exact absurd rfl hlook
  | setHost host =>
    exact overlooks_changeAside (fun _ => rfl) (fun _ => ⟨rfl, rfl, fun _ => rfl⟩)
      fun _ => ⟨[], rfl, by simp, by simp⟩
  | observe json =>
    refine overlooks_changeGet (fun s _ => ?_) fun s hs => ?_
    · change ((Model.observe json (s.model.without gone)).1,
        { s with model := (Model.observe json (s.model.without gone)).2 }) = _
      rw [Model.observe_without]
      rfl
    · refine .of_same hs [] rfl (by simp) (by simp) (fun cell id _ hmem => ?_) rfl rfl
      have hmem : id ∈ ((Model.observe json s.model).2.cell cell).subscribers := hmem
      rw [Model.subscribers_observe] at hmem
      exact hmem
  | newObject =>
    exact overlooks_changeGet (fun _ _ => rfl) fun _ hs =>
      .of_same hs [] rfl (by simp) (by simp) (fun _ _ _ hmem => hmem) rfl rfl
  | resolve path root => exact overlooks_resolve path root
  | readKey object key =>
    refine overlooks_changeGet (fun s hs => ?_) fun s hs => Store.passedOver_subscribeCollector hs _
    rw [(alike_without s gone).get?, (alike_without s gone).cellAt?, Store.without_subscribeCollector hs]
  | readCell cell =>
    refine overlooks_changeGet (fun s hs => ?_) fun s hs => Store.passedOver_subscribeCollector hs _
    rw [(alike_without s gone).value, Store.without_subscribeCollector hs]
  | display value => exact overlooks_display value
  | toJson value => exact overlooks_toJson value
  | inspect value =>
    exact overlooks_look_bind (fun s => (alike_without s gone).inspect? value) fun _ =>
      overlooks_demand _
  | render template root => exact overlooks_render template root
  | assign path root value => exact overlooks_assign htell path root value
  | setKey object key value => exact overlooks_setKey htell object key value
  | setCell cell value => exact overlooks_setCell htell cell value
  | watch root path policy reaction => exact overlooks_watch root path policy _
  | bind binder path reaction => exact overlooks_bindPath binder path _
  | newSubscriber reaction =>
    refine overlooks_changeGet (fun _ _ => rfl) fun s hs => ?_
    have hpush : (s.addSubscriber (.hosted true reaction)).2.subscribers =
        s.subscribers.push ⟨1, .hosted true reaction⟩ := rfl
    exact .of_subscribers hs rfl rfl rfl fun _ hid => hs.subscriber?_push hpush hid
  | update id => exact htell id (hnamed id (List.mem_singleton_self id))
  | dispose id => exact overlooks_updateSubscriber (hnamed id (List.mem_singleton_self id)) _
  | retain id => exact overlooks_updateSubscriber (hnamed id (List.mem_singleton_self id)) _
  | release id => exact overlooks_release id
  | setActive id active => exact overlooks_updateSubscriber (hnamed id (List.mem_singleton_self id)) _
  | subscribe cell id =>
    have hid := hnamed id (List.mem_singleton_self id)
    refine overlooks_change (fun s _ => ?_) fun s hs => ?_
    · exact congrArg (fun model => { s with model }) (Model.without_subscribe hid s.model cell).symm
    · refine .of_same hs [] rfl (by simp) (by simp) (fun other id' hid' hmem => ?_) rfl rfl
      have hmodel : (s.withModel (·.subscribe cell id)).model =
          [cell].foldl (fun m cell => m.subscribe cell id) s.model := rfl
      exact Store.mem_entries_subscribeAll hmodel (Store.ne_of_gone hid hid') hmem
  | notify cell => exact overlooks_notify htell cell
  | collect slot =>
    refine overlooks_change (fun _ _ => rfl) fun s hs => ?_
    refine ⟨fun {id} hslot => hnamed id ?_, fun _ => rfl, fun _ hmem => hmem, [], rfl, by simp, by simp⟩
    exact Option.mem_toList.2 hslot
  | plant tree =>
    exact overlooks_changeGet (fun _ _ => rfl) fun _ hs => .of_subscribers hs rfl rfl rfl fun _ _ => rfl
  | tree node => exact overlooks_look_bind (fun _ => rfl) fun _ => overlooks_demand _
  | outline roots => exact overlooks_look_bind (fun _ => rfl) fun _ => overlooks_demand _
  | append parent child => exact overlooks_withView _
  | setText node text => exact overlooks_setText node text
  | setValue node value => exact overlooks_setValue node value
  | setAttribute node name value => exact overlooks_withView _
  | listen node reaction => exact overlooks_withView _
  | input node text => exact overlooks_input hrespond node text
  | compile root config directives node =>
    exact overlooks_compile hrespond depth root config directives node

end Run

/-! ## Scripts and hosts -/

/-- An operation that is asked for nobody who is gone. -/
def Op.Spares (gone : SubscriberId → Bool) (op : Op ρ σ) : Prop := ∀ id ∈ op.named, gone id = false

/-- Where a script looks at the whole store, it makes nothing of the entries of those who are gone. -/
def Op.IsBlind (gone : SubscriberId → Bool) :
    (op : Op ρ σ) → (Except Error op.Answer → Script ρ σ α) → Prop
  | .look, next => ∀ s : Store ρ σ, next (.ok (s.without gone)) = next (.ok s)
  | _, _ => True

/-- Wherever a script looks, it makes nothing of the entries of those who are gone. -/
def Script.IsBlind (gone : SubscriberId → Bool) : Script ρ σ α → Prop
  | .done _ => True
  | .ask op next => op.IsBlind gone next ∧ ∀ answer, (next answer).IsBlind gone

/-- Wherever the scripts of a host look, they make nothing of the entries of those who are gone. -/
def Host.IsBlind (gone : SubscriberId → Bool) (host : Host ρ σ) : Prop :=
  ∀ reaction stimulus, (host.script reaction stimulus).IsBlind gone

variable {blind : Prop} {gone : SubscriberId → Bool}

/-- A script overlooks those who are gone if it names none of them, and is blind to their entries if it is
to come to the same without them. -/
theorem Script.overlooks_runWith {respond : Respond ρ σ}
    (hrespond : ∀ reaction stimulus, Run.Overlooks blind gone (respond reaction stimulus)) (depth : Nat)
    {script : Script ρ σ α} (hscript : script.Asks (·.Spares gone))
    (hblind : blind → script.IsBlind gone) :
    Run.Overlooks blind gone (script.runWith (Run.perform respond depth)) := by
  induction script with
  | done result => exact Run.overlooks_orRaise result
  | ask op next ih =>
    intro s hs
    obtain ⟨hop, hnext⟩ := hscript
    have hrest := fun answer => ih answer (hnext answer) fun h => (hblind h).2 answer
    by_cases hlook : op = .look
    · subst hlook
      have hask : ∀ t, (Script.ask .look next).runWith (Run.perform respond depth) t =
          (next (.ok t)).runWith (Run.perform respond depth) t := fun _ => rfl
      obtain ⟨hsame, hpassed⟩ := hrest (.ok s) s hs
      refine ⟨fun h => ?_, hpassed⟩
      have hsees : next (.ok (s.without gone)) = next (.ok s) := (hblind h).1 s
      rw [hask, hask, hsees]
      exact hsame h
    · have hperform : Run.Overlooks blind gone (Run.perform respond depth op) :=
        Run.overlooks_perform hrespond depth op hop hlook
      obtain ⟨hsame, hpassed⟩ := hperform s hs
      unfold runWith
      cases hrun : Run.perform respond depth op s with
      | none =>
        refine ⟨fun h => ?_, fun _ _ h => by cases h⟩
        rw [hsame h, hrun]
        rfl
      | some outcome =>
        obtain ⟨answer, s₁⟩ := outcome
        have hpassed₁ := hpassed _ _ hrun
        obtain ⟨hsame', hpassed'⟩ := hrest answer s₁ (hs.passedOver hpassed₁)
        refine ⟨fun h => ?_, fun result s' h => hpassed₁.trans (hpassed' result s' h)⟩
        rw [hsame h, hrun]
        exact hsame' h

/-- Reactions overlook those who are gone however deep they nest: by induction on the depth. -/
theorem Host.overlooks_respond {host : Host ρ σ} (hhost : host.Asks (·.Spares gone))
    (hblind : blind → host.IsBlind gone) (depth : Nat) (reaction : ρ) (stimulus : Stimulus) :
    Run.Overlooks blind gone (host.respond depth reaction stimulus) := by
  induction depth generalizing reaction stimulus with
  | zero => exact Run.overlooks_diverge
  | succ depth ih =>
    exact Script.overlooks_runWith ih depth (hhost reaction stimulus) fun h =>
      hblind h reaction stimulus

/-- The same for a run with a host whose scripts are of this kind as well. -/
theorem Script.overlooks_run {host : Host ρ σ} (hhost : host.Asks (·.Spares gone))
    (hhost' : blind → host.IsBlind gone) (depth : Nat) {script : Script ρ σ α}
    (hscript : script.Asks (·.Spares gone)) (hscript' : blind → script.IsBlind gone) :
    Run.Overlooks blind gone (script.run host depth) :=
  Script.overlooks_runWith (Host.overlooks_respond hhost hhost' depth) depth hscript hscript'

end DataBinding
