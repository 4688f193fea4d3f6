import DataBinding.Proofs.Runs.Cascade

/-!
# Operations are cascades

Every operation of the library can be told as a cascade, and so can every script and every reaction of a
host. The rules for the combinators do the work. Two places need more: a watcher that reacts is not disposed,
so what it shows is within the scope, and a script goes on after a failed operation only if it is not one of
those whose errors the host passes on.
-/

set_option autoImplicit false

namespace DataBinding

variable {ρ σ α β : Type} {scope : Scope} {P : Op ρ σ → Prop} {host : Host ρ σ} {s s₁ s' : Store ρ σ}

namespace Run

/-! ## Reading and showing -/

/-- Making a watcher that shows something in the scope at most is a calm step, or an error. -/
theorem cascades_watch (root : Value) (path : Path) (policy : BaselinePolicy) {reaction : Reaction ρ}
    (hnode : ∀ node ∈ reaction.node?, scope.writes node) :
    Cascades scope P host s (watch root path policy reaction) := by
  intro hs result s' h
  cases hfollow : s.model.follow path root with
  | mk cells outcome =>
    cases outcome with
    | ok value =>
      rw [watch_ok policy reaction hfollow] at h
      cases h
      exact .step .start (.made s root path policy reaction cells value hfollow)
        ⟨Store.quiet_of_cons rfl rfl, .refl _, fun h => h.enroll hnode⟩
    | error e =>
      rw [watch_error policy reaction hfollow] at h
      cases h
      exact .raised .start (.abandoned s root path policy reaction cells e hfollow) rfl rfl
        fun h => h.enroll hnode

/-- Looking at a path raises an error at most. -/
theorem cascades_peek (path : Path) (root : Value) : Cascades scope P host s (peek path root) :=
  cascades_look_bind (cascades_orRaise _)

/-- Displaying a value changes nothing. -/
theorem cascades_display (value : Value) : Cascades scope P host s (display value) :=
  cascades_look_bind (cascades_demand _)

/-- Rendering raises an error at most. -/
theorem cascades_render (template : Template) (root : Value) :
    Cascades scope P host s (render template root) :=
  cascades_look_bind (cascades_bind (cascades_demand _) fun outcome _ _ => cascades_orRaise outcome)

/-- The subscribing of the collector leaves subscribers, view and journal alone. -/
theorem subscribers_subscribeCollector (s : Store ρ σ) (cells : List CellId) :
    (s.subscribeCollector cells).subscribers = s.subscribers ∧
      (s.subscribeCollector cells).view = s.view ∧ (s.subscribeCollector cells).journal = s.journal := by
  unfold Store.subscribeCollector
  split
  · exact ⟨rfl, rfl, rfl⟩
  · exact ⟨rfl, rfl, rfl⟩

/-- The subscribing of the collector is calm. -/
theorem calm_subscribeCollector (s : Store ρ σ) (cells : List CellId) :
    s.Calm scope (s.subscribeCollector cells) := by
  obtain ⟨hsubscribers, hview, hjournal⟩ := subscribers_subscribeCollector s cells
  exact .of_subscribers (Store.quiet_of_same hjournal) (hview ▸ .refl _) hsubscribers

/-- Writing down an event that tells of no error is calm. -/
theorem calm_note (s : Store ρ σ) {event : Event} (hevent : event.isFailure = false) :
    s.Calm scope (s.record event) :=
  .of_subscribers (Store.quiet_of_cons rfl hevent) (.refl _) rfl

/-- Resolving a path is a calm step and raises an error at most. -/
theorem cascades_resolve (path : Path) (root : Value) :
    Cascades scope P host s (resolve path root) :=
  cascades_look_bind (cascades_change_bind (.tracked s _) (calm_subscribeCollector s _)
    (cascades_orRaise _))

/-- Setting the text of a node in the scope is a calm step. -/
theorem cascades_setText {node : NodeId} (hnode : scope.writes node) (text : String) :
    Cascades scope P host s (setText node text) :=
  cascades_change (.textWritten s node text)
    (.of_subscribers (Store.quiet_of_cons rfl rfl) (View.spares_setText hnode text) rfl)

/-- Setting the value of a node in the scope is a calm step. -/
theorem cascades_setValue {node : NodeId} (hnode : scope.writes node) (value : String) :
    Cascades scope P host s (setValue node value) :=
  cascades_change (.valueWritten s node value)
    (.of_subscribers (Store.quiet_of_cons rfl rfl) (View.spares_update hnode _) rfl)

/-! ## What a host does by hand -/

/-- What a host does by hand is a stage of its own in a cascade. -/
theorem cascades_byHand (respond : Respond ρ σ) {op : Op ρ σ} (hop : op.isByHand = true)
    (depth : Nat) :
    Cascades scope P host s (perform respond depth op) := by
  intro hs result s' h
  cases op with
  | subscribe cell subscriber =>
    cases h
    exact .byHand .start (.subscribed cell subscriber)
  | collect slot =>
    cases h
    exact .byHand .start (.collected slot)
  | setActive subscriber active =>
    cases h
    exact .byHand .start (.activated subscriber active)
  | _ => cases hop

/-! ## Telling subscribers -/

section Operations

variable {respond : Respond ρ σ} (hrespond : Respond.Cascades scope P host respond)

include hrespond

/-- A reaction shows something in the scope, or is told as the cascade of the host. -/
theorem cascades_react {reaction : Reaction ρ} (hnode : ∀ node ∈ reaction.node?, scope.writes node)
    (value : Value) : Cascades scope P host s (react respond reaction value) := by
  cases reaction with
  | showValue node =>
    exact cascades_bind (cascades_display value) fun text _ _ => cascades_setValue (hnode node rfl) text
  | showText node template root =>
    exact cascades_bind (cascades_render template root) fun text _ _ =>
      cascades_setText (hnode node rfl) text
  | hosted reaction => exact hrespond reaction _ s

/-- A watcher that looks at its path and reacts shows something only where the scope allows it, because it
is not disposed. -/
theorem cascades_updateWatcher {id : SubscriberId} {watcher : Watcher ρ}
    (hwatcher : s.watcher? id = some watcher) :
    Cascades scope P host s (updateWatcher respond id watcher) := by
  intro hs
  unfold updateWatcher
  split
  · exact cascades_done () hs
  · next hactive =>
    have hactive : watcher.disposed = false := by simpa using hactive
    intro result s' h
    rw [peek_bind] at h
    cases hfound : s.model.peek watcher.path watcher.root with
    | error e =>
      rw [hfound, orRaise_error_bind] at h
      cases h
      exact .raised .start (.noted s _ rfl) rfl rfl fun h => h.of_subscribers rfl
    | ok value =>
      rw [hfound, orRaise_ok_bind, change_bind] at h
      split at h
      · next hsame =>
        cases h
        exact .step .start (.agreed s id watcher value hwatcher hactive hfound hsame)
          (.of_subscribers (Store.quiet_of_cons rfl rfl) (.refl _) rfl)
      · next hother =>
        have hother : value.strictEq watcher.baseline = false := by simpa using hother
        have hcalm : s.Calm scope (((s.record (.resolved id value)).updateWatcher id
            (·.receive value)).record (.delivered id value)) := by
          refine ⟨⟨[.delivered id value, .resolved id value], rfl, by simp [Event.isFailure]⟩, .refl _,
            fun h => ?_⟩
          exact Store.ShowsWithin.updateWatcher (s := s.record (.resolved id value)) (f := (·.receive value)) h
            id fun _ hw => ⟨hw, rfl⟩
        have hfirst : Cascade scope P host s none _ :=
          .step .start (.delivered s id watcher value hwatcher hactive hfound hother) hcalm
        have hreact := cascades_react hrespond (hs hwatcher hactive) value (hfirst.shows hs) _ _ h
        exact hfirst.trans hreact

/-- Updating a subscriber can be told as a cascade. -/
theorem cascades_update (id : SubscriberId) : Cascades scope P host s (update respond id) := by
  refine cascades_change_bind (.noted s _ rfl) (calm_note s rfl) (cascades_look_bind ?_)
  split
  · next handles watcher hsubscriber =>
    refine cascades_updateWatcher hrespond ?_
    unfold Store.watcher?
    rw [hsubscriber]
  · exact hrespond _ _ _
  · exact cascades_done ()

/-- The turn of an entry can be told as a cascade. -/
theorem cascades_visit (id : SubscriberId) : Cascades scope P host s (visit (update respond) id) := by
  refine cascades_look_bind ?_
  split
  · exact cascades_holding (cascades_update hrespond id)
  · exact cascades_done ()

/-- A cycle can be told as a cascade: pruning is calm, and an error ends the turns. -/
theorem cascades_notify (cell : CellId) : Cascades scope P host s (notify (update respond) cell) := by
  refine cascades_change_bind (.pruned s cell)
    (.of_subscribers (Store.quiet_of_same rfl) (.refl _) rfl) (cascades_look_bind ?_)
  exact cascades_each _ fun id _ _ => cascades_visit hrespond id

/-! ## Writing -/

/-- What follows the storing of a value, once it is found to be another one. -/
theorem cascades_stored (cell : CellId) (value : Value) :
    Cascades scope P host (s.storeCell cell value)
      (do writing (notify (update respond) cell); done true) :=
  cascades_bind (cascades_writing (cascades_notify hrespond cell)) fun _ _ _ => cascades_done true

/-- Storing in a cell is a stage of its own, and the cycle follows it. -/
theorem cascades_setCell (cell : CellId) (value : Value) :
    Cascades scope P host s (setCell (update respond) cell value) := by
  refine cascades_look_bind ?_
  split
  · exact cascades_done false
  · intro hs result s' h
    have hfirst : Cascade scope P host s none (s.storeCell cell value) := .stored cell value .start
    exact hfirst.trans (cascades_stored hrespond cell value (hfirst.shows hs) result s' h)

omit hrespond

/-- Storing a plain value is a calm step. -/
theorem cascades_putPlain {object : ObjectId} {key : String} {value : Value}
    (hplain : ∀ cell, s.model.slot? object key ≠ some (.reactive cell)) :
    Cascades scope P host s (putPlain object key value) :=
  cascades_change_bind (.storedPlain s object key value hplain)
    (.of_subscribers (Store.quiet_of_cons rfl rfl) (.refl _) rfl) (cascades_done true)

/-- Finding the container of a path raises an error at most. -/
theorem cascades_container (path : Path) (root : Value) :
    Cascades scope P host s (container path root) := by
  refine cascades_look_bind (cascades_change_bind (.tracked s _) (calm_subscribeCollector s _) ?_)
  split
  · exact cascades_raise _
  · exact cascades_done _
  · exact cascades_raise _

include hrespond

/-- Storing a value under a key can be told as a cascade. -/
theorem cascades_setKey (object : ObjectId) (key : String) (value : Value) :
    Cascades scope P host s (setKey (update respond) object key value) := by
  refine cascades_look_bind ?_
  split
  · next cell _ => exact cascades_setCell hrespond cell value
  · next current hslot =>
    split
    · exact cascades_done false
    · exact cascades_putPlain fun cell h => by rw [hslot] at h; cases h
  · next hslot => exact cascades_putPlain fun cell h => by rw [hslot] at h; cases h

/-- Writing through a path can be told as a cascade. -/
theorem cascades_assign (path : Path) (root value : Value) :
    Cascades scope P host s (assign (update respond) path root value) :=
  cascades_bind (cascades_writing (cascades_container path root)) fun object _ _ =>
    cascades_setKey hrespond object path.last value

/-- A listener that hears an input can be told as a cascade. -/
theorem cascades_hear (text : String) (listener : Listener ρ) :
    Cascades scope P host s (hear respond text listener) := by
  cases listener with
  | assign root path =>
    exact cascades_bind (cascades_assign hrespond path root _) fun _ _ _ => cascades_done ()
  | hosted reaction => exact hrespond reaction _ s

/-- An input can be told as a cascade if its node is in the scope, or its text may be typed there. -/
theorem cascades_input {node : NodeId} {text : String}
    (hnode : scope.writes node ∨ scope.types node text) :
    Cascades scope P host s (input respond node text) := by
  refine cascades_change_bind (.typed s node text)
    (.of_subscribers (Store.quiet_of_same rfl) (View.spares_typeOver hnode) rfl) (cascades_look_bind ?_)
  exact cascades_each _ fun listener _ _ => cascades_hear hrespond text listener

/-! ## Compiling -/

omit hrespond

/-- Binding a path for a node in the scope can be told as a cascade. -/
theorem cascades_bindPath (binder : BinderId) (path : Path) {reaction : Reaction ρ}
    (hnode : ∀ node ∈ reaction.node?, scope.writes node) :
    Cascades scope P host s (bind binder path reaction) := by
  refine cascades_look_bind (cascades_bind (cascades_watch _ _ _ hnode) fun id s₁ _ => ?_)
  exact cascades_change_bind (.watcherKept s₁ binder id)
    (.of_subscribers (Store.quiet_of_same rfl) (.refl _) rfl) (cascades_done id)

/-- Binding the value of a node in the scope can be told as a cascade. -/
theorem cascades_bindValue (binder : BinderId) {node : NodeId} (hnode : scope.writes node)
    (expression : String) : Cascades scope P host s (bindValue binder node expression) := by
  have hshown : ∀ target ∈ (Reaction.showValue node : Reaction ρ).node?, scope.writes target := by
    rintro _ ⟨⟩
    exact hnode
  refine cascades_bind (cascades_orRaise _) fun path s₁ _ => cascades_look_bind ?_
  refine cascades_bind (cascades_bindPath binder path hshown) fun _ s₂ _ => ?_
  refine cascades_change_bind (.listened s₂ node _)
    (.of_subscribers (Store.quiet_of_same rfl) (View.spares_update hnode _) rfl) ?_
  refine cascades_bind (cascades_peek path _) fun value _ _ => ?_
  exact cascades_bind (cascades_display value) fun text _ _ => cascades_setValue hnode text

/-- Binding the text of a node in the scope can be told as a cascade. -/
theorem cascades_bindText (binder : BinderId) {node : NodeId} (hnode : scope.writes node)
    (expression : String) : Cascades scope P host s (bindText binder node expression) := by
  refine cascades_look_bind (cascades_bind (cascades_orRaise _) fun template _ _ => ?_)
  refine cascades_bind (cascades_each _ fun path _ s => ?_) fun _ _ _ => ?_
  · refine cascades_bind (cascades_bindPath binder path ?_) fun _ _ _ => cascades_done ()
    rintro _ ⟨⟩
    exact hnode
  · exact cascades_bind (cascades_render template _) fun text _ _ => cascades_setText hnode text

include hrespond

/-- Handling a directive of a node in the scope can be told as a cascade. -/
theorem cascades_handle (kind : DirectiveKind) (handler : Handler ρ) (binder : BinderId) {node : NodeId}
    (hnode : scope.writes node) (expression : String) :
    Cascades scope P host s (handle respond kind handler binder node expression) := by
  refine cascades_change_bind (.noted s _ rfl) (calm_note s rfl) ?_
  cases handler with
  | bindValue => exact cascades_bindValue binder hnode expression
  | bindText => exact cascades_bindText binder hnode expression
  | hosted reaction => exact hrespond reaction _ _

/-- Compiling an attribute of a node in the scope can be told as a cascade. -/
theorem cascades_compileAttribute (directives : Directives ρ) (binder : BinderId) (marker : String)
    {node : NodeId} (hnode : scope.writes node) (entry : String × String) :
    Cascades scope P host s (compileAttribute respond directives binder marker node entry) := by
  unfold compileAttribute
  split
  · exact cascades_done ()
  · exact cascades_bind (cascades_orRaise _) fun found _ _ =>
      cascades_handle hrespond found.1 found.2 binder hnode entry.2

/-- Compiling a text in the scope can be told as a cascade. -/
theorem cascades_compileText (directives : Directives ρ) (binder : BinderId) (config : Config)
    {node : NodeId} (hnode : scope.writes node) (text : String) :
    Cascades scope P host s (compileText respond directives binder config node text) := by
  unfold compileText
  split
  · exact cascades_bind (cascades_orRaise _) fun handler _ _ =>
      cascades_handle hrespond .text handler binder hnode _
  · exact cascades_done ()

variable (hall : ∀ node, scope.writes node)

include hall

/-- A walk through some levels of a tree can be told as a cascade if the scope has every node, by induction
on the levels. -/
theorem cascades_compileNode (directives : Directives ρ) (binder : BinderId) (config : Config)
    (depth : Nat) (id : NodeId) :
    Cascades scope P host s (compileNode respond directives binder config depth id) := by
  induction depth generalizing s id with
  | zero => exact cascades_diverge
  | succ depth ih =>
    refine cascades_look_bind ?_
    split
    · refine cascades_bind (cascades_each _ fun entry _ s => ?_) fun _ _ _ => cascades_look_bind ?_
      · exact cascades_compileAttribute hrespond directives binder config.marker (hall id) entry
      · exact cascades_each _ fun child _ s => ih child
    · exact cascades_compileText hrespond directives binder config (hall id) _
    · exact cascades_done ()

omit hrespond hall

/-- An error on its way out lets go of some subscribers. -/
theorem cascade_releaseAll {e : Error} (h : Cascade scope P host s (some e) s₁)
    (ids : List SubscriberId) : Cascade scope P host s (some e) (ids.foldl Store.release s₁) := by
  induction ids generalizing s₁ with
  | nil => exact h
  | cons id rest ih => exact ih (.released id h)

include hrespond hall

/-- A pass that fails lets go of its watchers. -/
theorem cascades_compile (depth : Nat) (root : Value) (config : Config) (directives : Directives ρ)
    (node : NodeId) :
    Cascades scope P host s (compile respond depth root config directives node) := by
  intro hs result s' h
  unfold compile at h
  rw [changeGet_bind, attempt_bind] at h
  obtain ⟨⟨outcome, s₁⟩, hnode, h⟩ := Option.bind_eq_some_iff.1 h
  have hbinder : Cascade scope P host s none (s.addBinder root config).2 :=
    .step .start (.binderAdded s root config)
      (.of_subscribers (Store.quiet_of_same rfl) (.refl _) rfl)
  have hpass := hbinder.trans
    (cascades_compileNode hrespond hall directives _ config depth node (hbinder.shows hs) _ _ hnode)
  rw [look_bind] at h
  cases outcome with
  | ok _ =>
    cases h
    exact hpass
  | error e =>
    cases h
    exact cascade_releaseAll hpass _

/-! ## Every operation -/

omit hall

/-- Every operation can be told as a cascade, if the reactions that it calls for can. -/
theorem cascades_perform (depth : Nat) {op : Op ρ σ} (hop : op.Within scope) :
    Cascades scope P host s (perform respond depth op) := by
  have hsame : ∀ {s' : Store ρ σ}, s'.journal = s.journal → s'.view = s.view →
      s'.subscribers = s.subscribers → s.Calm scope s' := fun hjournal hview hsubscribers =>
    .of_subscribers (Store.quiet_of_same hjournal) (hview ▸ .refl _) hsubscribers
  have hview : ∀ {s' : Store ρ σ}, s'.journal = s.journal → s.view.Spares scope s'.view →
      s'.subscribers = s.subscribers → s.Calm scope s' := fun hjournal hview hsubscribers =>
    .of_subscribers (Store.quiet_of_same hjournal) hview hsubscribers
  have hhosted : ∀ (reaction : ρ), ∀ node ∈ (Reaction.hosted reaction : Reaction ρ).node?,
      scope.writes node := by
    rintro _ _ ⟨⟩
  cases op with
  | look => exact cascades_look_bind (f := id) (cascades_done _)
  | setHost host => exact cascades_change (.hostSet s host) (hsame rfl rfl rfl)
  | observe json => exact cascades_changeGet (.observed s json) (hsame rfl rfl rfl)
  | newObject => exact cascades_changeGet (.newObject s) (hsame rfl rfl rfl)
  | resolve path root => exact cascades_resolve path root
  | readKey object key => exact cascades_changeGet (.tracked s _) (calm_subscribeCollector s _)
  | readCell cell => exact cascades_changeGet (.tracked s [cell]) (calm_subscribeCollector s _)
  | display value => exact cascades_display value
  | toJson value => exact cascades_look_bind (cascades_demand _)
  | inspect value => exact cascades_look_bind (cascades_demand _)
  | render template root => exact cascades_render template root
  | assign path root value => exact cascades_assign hrespond path root value
  | setKey object key value => exact cascades_setKey hrespond object key value
  | setCell cell value => exact cascades_setCell hrespond cell value
  | watch root path policy reaction => exact cascades_watch root path policy (hhosted reaction)
  | bind binder path reaction => exact cascades_bindPath binder path (hhosted reaction)
  | newSubscriber reaction =>
    exact cascades_changeGet (.hosted s reaction)
      ⟨Store.quiet_of_same rfl, .refl _, fun h => h.addHosted reaction⟩
  | update subscriber => exact cascades_update hrespond subscriber
  | dispose watcher =>
    exact cascades_change (.disposed s watcher) (Store.calm_dispose s watcher)
  | retain subscriber =>
    exact cascades_change (.retained s subscriber) (.of_watchers rfl rfl (Store.watcher?_retain s subscriber))
  | release subscriber =>
    exact cascades_change (.released s subscriber) (.of_watchers rfl rfl (Store.watcher?_release s subscriber))
  | setActive subscriber active => exact cascades_byHand respond rfl depth
  | subscribe cell subscriber => exact cascades_byHand respond rfl depth
  | notify cell => exact cascades_notify hrespond cell
  | collect slot => exact cascades_byHand respond rfl depth
  | plant tree =>
    exact cascades_changeGet (.planted s tree) (hview rfl (View.spares_plant tree) rfl)
  | tree node => exact cascades_look_bind (cascades_demand _)
  | outline roots => exact cascades_look_bind (cascades_demand _)
  | append parent child =>
    exact cascades_change (.appended s parent child) (hview rfl (View.spares_update hop _) rfl)
  | setText node text => exact cascades_setText hop text
  | setValue node value => exact cascades_setValue hop value
  | setAttribute node name value =>
    exact cascades_change (.attributeSet s node name value) (hview rfl (View.spares_update hop _) rfl)
  | listen node reaction =>
    exact cascades_change (.listened s node _) (hview rfl (View.spares_update hop _) rfl)
  | input node text => exact cascades_input hrespond hop
  | compile root config directives node =>
    exact cascades_compile hrespond hop depth root config directives node

end Operations

end Run

/-! ## Scripts and hosts -/

/-- A script is told as a cascade: an operation that fails either ends it or is one after which it may go
on. -/
theorem Script.cascades_runWith {depth : Nat} {script : Script ρ σ α}
    (hop : ∀ op, op.Within scope → ∀ s,
      Run.Cascades scope P host s (Run.perform (host.respond depth) depth op))
    (hasks : script.Asks (·.Within scope)) (hpass : script.PassesOn P) (s : Store ρ σ) :
    Run.Cascades scope P host s (script.runWith (Run.perform (host.respond depth) depth)) := by
  induction script generalizing s with
  | done result => exact Run.cascades_orRaise result
  | ask op next ih =>
    intro hs result s' h
    unfold runWith at h
    split at h
    · cases h
    · next answer s₁ hrun =>
      have hfirst := hop op hasks.1 s hs answer s₁ hrun
      -- What follows an answer after which the script may go on.
      have hnext : Cascade scope P host s none s₁ → Cascade scope P host s (failure? result) s' :=
        fun hcalm => hcalm.trans (ih answer (hasks.2 answer) (hpass.2 answer) s₁ (hcalm.shows hs) result s' h)
      cases answer with
      | ok a => exact hnext hfirst
      | error e =>
        by_cases hP : P op
        · rw [hpass.1 hP e] at h
          cases h
          exact .noted (.inl rfl) hfirst
        · exact hnext (.caught hP hrun .start hfirst)

/-- Reactions are told as cascades however deep they nest: by induction on the depth. -/
theorem Host.cascades_respond (hasks : host.Asks (·.Within scope)) (hpass : host.PassesOn P)
    (depth : Nat) : Respond.Cascades scope P host (host.respond depth) := by
  induction depth with
  | zero =>
    intro reaction stimulus s
    exact Run.cascades_diverge
  | succ depth ih =>
    intro reaction stimulus s
    exact Script.cascades_runWith (fun op hop s => Run.cascades_perform ih depth hop)
      (hasks reaction stimulus) (hpass reaction stimulus) s

/-- An operation that a host asks for is told as a cascade. -/
theorem Host.cascades_perform (hasks : host.Asks (·.Within scope)) (hpass : host.PassesOn P)
    (depth : Nat) {op : Op ρ σ} (hop : op.Within scope) (s : Store ρ σ) :
    Run.Cascades scope P host s (Run.perform (host.respond depth) depth op) :=
  Run.cascades_perform (host.cascades_respond hasks hpass depth) depth hop

end DataBinding
