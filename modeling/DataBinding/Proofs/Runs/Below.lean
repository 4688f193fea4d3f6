import DataBinding.Proofs.Model.Containment
import DataBinding.Proofs.Runs.Outcomes
import DataBinding.Proofs.Runs.Supervision

/-!
# Runs that come back from where others do

Of two runs one may come back less often than the other, because it is stopped where the other goes on.
`Run.Below G s run₁ run₂` says that whatever the first comes back with from a store the second comes back with as
well, and that the model has a property `G` then. `G` is a property that is `Durable`: only the storing of objects
can end it. There is one rule for each combinator, and one statement for each operation under two ways of
reacting, in the order in which the operations are defined.
-/

set_option autoImplicit false

namespace DataBinding

/-- A property of models that lasts whatever happens, unless an object is stored. -/
structure Model.Durable (G : Model → Prop) : Prop where
  subscribers : ∀ {m}, G m → ∀ cell f, G (m.updateSubscribers cell f)
  observed : ∀ {m}, G m → ∀ json, G (Model.observe json m).2
  newObject : ∀ {m}, G m → G m.newObject.2
  leaf : ∀ {m}, G m → ∀ id key {value : Value}, value.object? = none → G (m.store id key value)

namespace Model.Durable

variable {ρ σ : Type} {G : Model → Prop}

/-- A durable property lasts while somebody is subscribed to some cells. -/
theorem subscribeAll (hG : Model.Durable G) {m : Model} (hm : G m) (cells : List CellId) (id : SubscriberId) :
    G (cells.foldl (fun m cell => m.subscribe cell id) m) := by
  induction cells generalizing m with
  | nil => exact hm
  | cons cell rest ih => exact ih (hG.subscribers hm cell _)

/-- A durable property lasts while the collector is subscribed to what was read. -/
theorem subscribeCollector (hG : Model.Durable G) {s : Store ρ σ} (hs : G s.model) (cells : List CellId) :
    G (s.subscribeCollector cells).model := by
  unfold Store.subscribeCollector
  split
  · exact hs
  · exact hG.subscribeAll hs cells _

end Model.Durable

namespace Run

variable {ρ σ α β : Type}

/-- Whatever a run comes back with from a store, another one comes back with as well, and the model has a property
then. -/
def Below (G : Model → Prop) (s : Store ρ σ) (run₁ run₂ : Run ρ σ α) : Prop :=
  ∀ result s', run₁ s = some (result, s') → run₂ s = some (result, s') ∧ G s'.model

section Combinators

variable {G : Model → Prop} {s : Store ρ σ}

/-- A run that is done is below itself. -/
theorem below_done (hs : G s.model) (a : α) : Below G s (done a) (done a) := by
  intro result s' h
  cases h
  exact ⟨rfl, hs⟩

/-- A run that raises an error is below itself, since the model stays as it is. -/
theorem below_raise (hs : G s.model) (e : Error) : Below G s (raise e : Run ρ σ α) (raise e) := by
  intro result s' h
  cases h
  exact ⟨rfl, hs⟩

/-- A run that never comes back is below any other one. -/
theorem below_diverge (run : Run ρ σ α) : Below G s diverge run := by
  intro result s' h
  cases h

/-- Going on with a result or raising its error is below itself. -/
theorem below_orRaise (hs : G s.model) (outcome : Except Error α) : Below G s (orRaise outcome) (orRaise outcome) := by
  cases outcome with
  | ok a => exact below_done hs a
  | error e => exact below_raise hs e

/-- Demanding a value is below itself, also where there is none and nothing comes back. -/
theorem below_demand (hs : G s.model) (value : Option α) : Below G s (demand value) (demand value) := by
  cases value with
  | some a => exact below_done hs a
  | none => exact below_diverge _

/-- A change of the store is below itself if the property holds after it. -/
theorem below_change {f : Store ρ σ → Store ρ σ} (hf : G (f s).model) : Below G s (change f) (change f) := by
  intro result s' h
  cases h
  exact ⟨rfl, hf⟩

/-- The same for a change that comes back with something. -/
theorem below_changeGet {f : Store ρ σ → α × Store ρ σ} (hf : G (f s).2.model) :
    Below G s (changeGet f) (changeGet f) := by
  intro result s' h
  cases h
  exact ⟨rfl, hf⟩

/-- Of two runs that go on, the first is below the second if both of its parts are below those of the
second. -/
theorem below_bind {run₁ run₂ : Run ρ σ α} {next₁ next₂ : α → Run ρ σ β} (hrun : Below G s run₁ run₂)
    (hnext : ∀ a s₁, G s₁.model → Below G s₁ (next₁ a) (next₂ a)) :
    Below G s (run₁ >>= next₁) (run₂ >>= next₂) := by
  intro result s' h
  rw [bind_apply] at h ⊢
  cases hfirst : run₁ s with
  | none =>
    rw [hfirst] at h
    cases h
  | some outcome =>
    obtain ⟨e | a, s₁⟩ := outcome
    · obtain ⟨hsecond, hs₁⟩ := hrun _ _ hfirst
      rw [hfirst] at h
      cases h
      rw [hsecond]
      exact ⟨rfl, hs₁⟩
    · obtain ⟨hsecond, hs₁⟩ := hrun _ _ hfirst
      rw [hfirst] at h
      rw [hsecond]
      exact hnext a s₁ hs₁ _ _ h

/-- A look at the store shows both runs the same. -/
theorem below_look_bind {f : Store ρ σ → α} {next₁ next₂ : α → Run ρ σ β}
    (h : Below G s (next₁ (f s)) (next₂ (f s))) : Below G s (look f >>= next₁) (look f >>= next₂) := h

/-- A change in front of two runs changes both in the same way. -/
theorem below_change_bind {f : Store ρ σ → Store ρ σ} {next₁ next₂ : Unit → Run ρ σ β}
    (h : Below G (f s) (next₁ ()) (next₂ ())) : Below G s (change f >>= next₁) (change f >>= next₂) := h

/-- A change in front of two runs hands the same to both. -/
theorem below_changeGet_bind {f : Store ρ σ → α × Store ρ σ} {next₁ next₂ : α → Run ρ σ β}
    (h : Below G (f s).2 (next₁ (f s).1) (next₂ (f s).1)) :
    Below G s (changeGet f >>= next₁) (changeGet f >>= next₂) := h

/-- A loop is below another one if it is so for each item, from every store with the property. -/
theorem below_each {f₁ f₂ : α → Run ρ σ Unit} (hf : ∀ item s, G s.model → Below G s (f₁ item) (f₂ item))
    (hs : G s.model) (items : List α) : Below G s (each items f₁) (each items f₂) := by
  induction items generalizing s with
  | nil => exact below_done hs ()
  | cons item rest ih => exact below_bind (hf item s hs) fun _ _ hs₁ => ih hs₁

/-- An attempt is below the attempt of what a run is below. -/
theorem below_attempt {run₁ run₂ : Run ρ σ α} (hrun : Below G s run₁ run₂) :
    Below G s (attempt run₁) (attempt run₂) := by
  intro result s' h
  obtain ⟨⟨outcome, s₁⟩, hfirst, heq⟩ := Option.map_eq_some_iff.1 h
  obtain ⟨rfl, rfl⟩ := Prod.mk.inj heq
  obtain ⟨hsecond, hs₁⟩ := hrun _ _ hfirst
  exact ⟨Option.map_eq_some_iff.2 ⟨_, hsecond, rfl⟩, hs₁⟩

/-- Holding a subscriber during a run keeps it below. -/
theorem below_holding (id : SubscriberId) {run₁ run₂ : Run ρ σ α} (hrun : Below G (s.retain id) run₁ run₂) :
    Below G s (holding id run₁) (holding id run₂) := by
  intro result s' h
  obtain ⟨⟨outcome, s₁⟩, hfirst, heq⟩ := Option.map_eq_some_iff.1 h
  obtain ⟨rfl, rfl⟩ := Prod.mk.inj heq
  obtain ⟨hsecond, hs₁⟩ := hrun _ _ hfirst
  exact ⟨Option.map_eq_some_iff.2 ⟨_, hsecond, rfl⟩, hs₁⟩

/-- Noting a failed write keeps a run below: the journal is no part of the model. -/
theorem below_writing {run₁ run₂ : Run ρ σ α} (hrun : Below G s run₁ run₂) :
    Below G s (writing run₁) (writing run₂) := by
  intro result s' h
  unfold writing at h ⊢
  cases hfirst : run₁ s with
  | none =>
    rw [hfirst] at h
    cases h
  | some outcome =>
    obtain ⟨hsecond, hs₁⟩ := hrun _ _ hfirst
    rw [hfirst] at h
    rw [hsecond]
    obtain ⟨e | a, s₁⟩ := outcome <;> cases h <;> exact ⟨rfl, hs₁⟩

end Combinators

/-! ## Operations that call for no reaction -/

section Plain

variable {G : Model → Prop} (hG : Model.Durable G) {s : Store ρ σ} (hs : G s.model)

include hs

/-- Looking at a path only looks. -/
theorem below_peek (path : Path) (root : Value) : Below G s (peek path root) (peek path root) :=
  below_look_bind (below_orRaise hs _)

/-- Displaying a value only looks. -/
theorem below_display (value : Value) : Below G s (display value) (display value) :=
  below_look_bind (below_demand hs _)

/-- Rendering a template only looks. -/
theorem below_render (template : Template) (root : Value) : Below G s (render template root) (render template root) :=
  below_look_bind (below_bind (below_demand hs _) fun outcome _ hs₁ => below_orRaise hs₁ outcome)

/-- Setting a text leaves the model alone. -/
theorem below_setText (node : NodeId) (text : String) : Below G s (setText node text) (setText node text) :=
  below_change hs

/-- Setting the value of a node leaves the model alone. -/
theorem below_setValue (node : NodeId) (value : String) : Below G s (setValue node value) (setValue node value) :=
  below_change hs

include hG

/-- Resolving a path subscribes the collector at most. -/
theorem below_resolve (path : Path) (root : Value) : Below G s (resolve path root) (resolve path root) :=
  below_look_bind (below_change_bind (below_orRaise (hG.subscribeCollector hs _) _))

/-- Making a watcher adds entries at most, and a durable property outlasts them. -/
theorem below_watch (root : Value) (path : Path) (policy : BaselinePolicy) (reaction : Reaction ρ) :
    Below G s (watch root path policy reaction) (watch root path policy reaction) := by
  intro result s' h
  refine ⟨h, ?_⟩
  cases hfollow : s.model.follow path root with
  | mk cells outcome =>
    cases outcome with
    | ok value =>
      rw [watch_ok policy reaction hfollow] at h
      cases h
      exact hG.subscribeAll hs cells _
    | error e =>
      rw [watch_error policy reaction hfollow] at h
      cases h
      exact hG.subscribeAll hs cells _

/-- Binding a path makes a watcher and lists it with the binder. -/
theorem below_bindPath (binder : BinderId) (path : Path) (reaction : Reaction ρ) :
    Below G s (bind binder path reaction) (bind binder path reaction) := by
  refine below_look_bind (below_bind (below_watch hG hs _ _ _ _) fun id s₁ hs₁ => ?_)
  exact below_change_bind (below_done (s := s₁.keepWatcher binder id) hs₁ id)

/-- Binding a value looks, shows it and makes a watcher. -/
theorem below_bindValue (binder : BinderId) (node : NodeId) (expression : String) :
    Below G s (bindValue binder node expression) (bindValue binder node expression) := by
  refine below_bind (below_orRaise hs _) fun path s₁ hs₁ => below_look_bind ?_
  refine below_bind (below_bindPath hG hs₁ binder path _) fun _ s₂ hs₂ => below_change_bind ?_
  refine below_bind (below_peek (s := s₂.withView _) hs₂ path _) fun value _ hs₃ => ?_
  exact below_bind (below_display hs₃ value) fun text _ hs₄ => below_setValue hs₄ node text

/-- Binding a text renders it, shows it and makes a watcher for each of its paths. -/
theorem below_bindText (binder : BinderId) (node : NodeId) (expression : String) :
    Below G s (bindText binder node expression) (bindText binder node expression) := by
  refine below_look_bind (below_bind (below_orRaise hs _) fun template _ hs₁ => ?_)
  refine below_bind (below_each (fun path _ hs₂ => ?_) hs₁ _) fun _ _ hs₂ => ?_
  · exact below_bind (below_bindPath hG hs₂ binder path _) fun _ _ hs₃ => below_done hs₃ ()
  · exact below_bind (below_render hs₂ template _) fun text _ hs₃ => below_setText hs₃ node text

end Plain

end Run

/-! ## Operations that call for reactions -/

/-- Whatever a reaction comes back with, it comes back with in another way of reacting as well. -/
def Respond.Below {ρ σ : Type} (G : Model → Prop) (respond₁ respond₂ : Respond ρ σ) : Prop :=
  ∀ reaction stimulus s, G s.model → Run.Below G s (respond₁ reaction stimulus) (respond₂ reaction stimulus)

namespace Run

variable {ρ σ : Type} {G : Model → Prop} (hG : Model.Durable G) {s : Store ρ σ} (hs : G s.model)
  {respond₁ respond₂ : Respond ρ σ} (hrespond : Respond.Below G respond₁ respond₂)

include hs hrespond

/-- A reaction in the first way of responding is below that in the second. -/
theorem react_below (reaction : Reaction ρ) (value : Value) :
    Below G s (react respond₁ reaction value) (react respond₂ reaction value) := by
  cases reaction with
  | showValue node => exact below_bind (below_display hs value) fun text _ hs₁ => below_setValue hs₁ node text
  | showText node template root =>
    exact below_bind (below_render hs template root) fun text _ hs₁ => below_setText hs₁ node text
  | hosted reaction => exact hrespond reaction _ s hs

/-- Updating a watcher is below, as at most its reaction differs. -/
theorem updateWatcher_below (id : SubscriberId) (watcher : Watcher ρ) :
    Below G s (updateWatcher respond₁ id watcher) (updateWatcher respond₂ id watcher) := by
  unfold updateWatcher
  split
  · exact below_done hs ()
  · refine below_bind (below_peek hs _ _) fun current s₁ hs₁ => below_change_bind ?_
    split
    · exact below_done (s := s₁.record (.resolved id current)) hs₁ ()
    · have hs₂ : G (((s₁.record (.resolved id current)).updateWatcher id (·.receive current)).record
          (.delivered id current)).model := hs₁
      exact below_change_bind (react_below hs₂ hrespond watcher.reaction current)

/-- Updating a subscriber is below, whether it is a watcher or the host reacts for it. -/
theorem update_below (id : SubscriberId) : Below G s (update respond₁ id) (update respond₂ id) := by
  have hs₁ : G (s.record (.updating id)).model := hs
  refine below_change_bind (below_look_bind ?_)
  split
  · exact updateWatcher_below hs₁ hrespond id _
  · exact hrespond _ _ _ hs₁
  · exact below_done hs₁ ()

/-- The turn of an entry is below. -/
theorem visit_below (id : SubscriberId) : Below G s (visit (update respond₁) id) (visit (update respond₂) id) := by
  have hs₁ : G (s.retain id).model := hs
  refine below_look_bind ?_
  split
  · exact below_holding id (update_below hs₁ hrespond id)
  · exact below_done hs ()

include hG

/-- A cycle is below, since each turn of it is. -/
theorem notify_below (cell : CellId) :
    Below G s (notify (update respond₁) cell) (notify (update respond₂) cell) := by
  have hs₁ : G (s.withModel (·.updateSubscribers cell (·.filter s.isLive))).model := hG.subscribers hs cell _
  refine below_change_bind (below_look_bind ?_)
  exact below_each (fun id _ hs₂ => visit_below hs₂ hrespond id) hs₁ _

/-- What is stored has to keep the property by itself: the cycle starts after it. -/
theorem setCell_below {cell : CellId} {value : Value} (hstore : G (s.model.setCellValue cell value)) :
    Below G s (setCell (update respond₁) cell value) (setCell (update respond₂) cell value) := by
  have hs₁ : G (s.storeCell cell value).model := hstore
  refine below_look_bind ?_
  split
  · exact below_done hs false
  · refine below_change_bind (below_bind ?_ fun _ _ hs₂ => below_done hs₂ true)
    exact below_writing (notify_below hG hs₁ hrespond cell)

/-- Storing a value under a key is below if the property holds once it is stored. -/
theorem setKey_below {object : ObjectId} {key : String} {value : Value}
    (hstore : G (s.model.store object key value)) :
    Below G s (setKey (update respond₁) object key value) (setKey (update respond₂) object key value) := by
  have hput : (∀ cell, s.model.slot? object key ≠ some (.reactive cell)) →
      Below G s (putPlain object key value) (putPlain object key value) := by
    intro hplain
    rw [Model.store_plain (Model.cellAt?_eq_none_iff.2 hplain)] at hstore
    exact below_change_bind (below_done (s := Store.record _ _) hstore true)
  refine below_look_bind ?_
  cases hslot : s.model.slot? object key with
  | none => exact hput fun cell h => by rw [hslot] at h; cases h
  | some slot =>
    cases slot with
    | reactive cell =>
      rw [Model.store_reactive (Model.cellAt?_eq_some_iff.2 hslot)] at hstore
      exact setCell_below hG hs hrespond hstore
    | plain current =>
      dsimp only
      split
      · exact below_done hs false
      · exact hput fun cell h => by rw [hslot] at h; cases h

/-- Writing through a path is below if the property holds once the value is stored in the container of the
path, whichever object that is. -/
theorem assign_below {path : Path} {root value : Value}
    (hstore : ∀ id, (s.model.followKeys path.text path.parents root).outcome = .ok (.object id) →
      G ((s.subscribeCollector (s.model.followKeys path.text path.parents root).cells).model.store
        id path.last value)) :
    Below G s (assign (update respond₁) path root value) (assign (update respond₂) path root value) := by
  let s₁ := s.subscribeCollector (s.model.followKeys path.text path.parents root).cells
  have hs₁ : G s₁.model := hG.subscribeCollector hs _
  -- Without a container both runs fail in the same way.
  have hfail : ∀ e, container path root s = some (.error e, s₁.record (.raised e)) →
      Below G s (assign (update respond₁) path root value) (assign (update respond₂) path root value) := by
    intro e hcontainer result s' h
    rw [assign_of_container_error hcontainer] at h ⊢
    cases h
    exact ⟨rfl, hs₁⟩
  cases houtcome : (s.model.followKeys path.text path.parents root).outcome with
  | error e => exact hfail e (container_of_error houtcome)
  | ok found =>
    cases found with
    | object id =>
      intro result s' h
      rw [assign_container houtcome] at h ⊢
      exact setKey_below hG hs₁ hrespond (hstore id houtcome) _ _ h
    | _ => exact hfail _ (container_of_leaf houtcome fun _ heq => by cases heq)

/-- A listener that hears an input is below. -/
theorem hear_below (text : String) (listener : Listener ρ) :
    Below G s (hear respond₁ text listener) (hear respond₂ text listener) := by
  cases listener with
  | assign root path =>
    refine below_bind (assign_below hG hs hrespond fun id _ => ?_) fun _ _ hs₁ => below_done hs₁ ()
    exact hG.leaf (hG.subscribeCollector hs _) id path.last rfl
  | hosted reaction => exact hrespond reaction _ s hs

/-- An input is below, since each listener is. -/
theorem input_below (node : NodeId) (text : String) :
    Below G s (input respond₁ node text) (input respond₂ node text) := by
  have hs₁ : G (s.withView (·.typeOver node text)).model := hs
  refine below_change_bind (below_look_bind ?_)
  exact below_each (fun listener _ hs₂ => hear_below hG hs₂ hrespond text listener) hs₁ _

/-- Handling a directive is below, as at most a handler of the host differs. -/
theorem handle_below (kind : DirectiveKind) (handler : Handler ρ) (binder : BinderId) (node : NodeId)
    (expression : String) :
    Below G s (handle respond₁ kind handler binder node expression)
      (handle respond₂ kind handler binder node expression) := by
  have hs₁ : G (s.record (.dispatched kind node expression)).model := hs
  refine below_change_bind ?_
  cases handler with
  | bindValue => exact below_bindValue hG hs₁ binder node expression
  | bindText => exact below_bindText hG hs₁ binder node expression
  | hosted reaction => exact hrespond reaction _ _ hs₁

/-- Compiling an attribute is below. -/
theorem compileAttribute_below (directives : Directives ρ) (binder : BinderId) (marker : String) (node : NodeId)
    (entry : String × String) :
    Below G s (compileAttribute respond₁ directives binder marker node entry)
      (compileAttribute respond₂ directives binder marker node entry) := by
  unfold compileAttribute
  split
  · exact below_done hs ()
  · exact below_bind (below_orRaise hs _) fun found _ hs₁ =>
      handle_below hG hs₁ hrespond found.1 found.2 binder node entry.2

/-- Compiling a text is below. -/
theorem compileText_below (directives : Directives ρ) (binder : BinderId) (config : Config) (node : NodeId)
    (text : String) :
    Below G s (compileText respond₁ directives binder config node text)
      (compileText respond₂ directives binder config node text) := by
  unfold compileText
  split
  · exact below_bind (below_orRaise hs _) fun handler _ hs₁ => handle_below hG hs₁ hrespond .text handler binder node _
  · exact below_done hs ()

/-- A walk through some levels of a tree is below, by induction on the levels. -/
theorem compileNode_below (directives : Directives ρ) (binder : BinderId) (config : Config) (depth : Nat)
    (id : NodeId) :
    Below G s (compileNode respond₁ directives binder config depth id)
      (compileNode respond₂ directives binder config depth id) := by
  induction depth generalizing s id with
  | zero => exact below_diverge _
  | succ depth ih =>
    refine below_look_bind ?_
    split
    · refine below_bind (below_each (fun entry _ hs₁ => ?_) hs _) fun _ s₁ hs₁ => below_look_bind ?_
      · exact compileAttribute_below hG hs₁ hrespond directives binder config.marker id entry
      · exact below_each (fun child _ hs₂ => ih hs₂ child) hs₁ _
    · exact compileText_below hG hs hrespond directives binder config id _
    · exact below_done hs ()

/-- A pass is below, whether its watchers stay or are let go. -/
theorem compile_below (depth : Nat) (root : Value) (config : Config) (directives : Directives ρ) (node : NodeId) :
    Below G s (compile respond₁ depth root config directives node)
      (compile respond₂ depth root config directives node) := by
  have hs₁ : G (s.addBinder root config).2.model := hs
  refine below_changeGet_bind ?_
  have hnode := compileNode_below hG hs₁ hrespond directives (s.addBinder root config).1 config depth node
  refine below_bind (below_attempt hnode) fun outcome s₂ hs₂ => below_look_bind ?_
  cases outcome with
  | ok _ => exact below_done hs₂ _
  | error e =>
    intro result s' h
    cases h
    have hreleased : ∀ (ids : List SubscriberId) (u : Store ρ σ), (ids.foldl Store.release u).model = u.model := by
      intro ids
      induction ids with
      | nil => exact fun _ => rfl
      | cons id rest ih => exact fun u => ih (u.release id)
    exact ⟨rfl, (hreleased _ s₂).symm ▸ hs₂⟩

/-- An operation that stores no object where it must not comes to the same in both ways of reacting. -/
theorem perform_below (depth : Nat) (op : Op ρ σ)
    (hassign : ∀ path root value, op = .assign path root value → ∀ id,
      (s.model.followKeys path.text path.parents root).outcome = .ok (.object id) →
      G ((s.subscribeCollector (s.model.followKeys path.text path.parents root).cells).model.store
        id path.last value))
    (hkey : ∀ object key value, op = .setKey object key value → G (s.model.store object key value))
    (hcell : ∀ cell value, op = .setCell cell value → G (s.model.setCellValue cell value)) :
    Below G s (perform respond₁ depth op) (perform respond₂ depth op) := by
  cases op with
  | look => exact below_look_bind (f := id) (below_done hs _)
  | setHost host => exact below_change hs
  | observe json => exact below_changeGet (hG.observed hs json)
  | newObject => exact below_changeGet (hG.newObject hs)
  | resolve path root => exact below_resolve hG hs path root
  | readKey object key => exact below_changeGet (hG.subscribeCollector hs _)
  | readCell cell => exact below_changeGet (hG.subscribeCollector hs _)
  | display value => exact below_display hs value
  | toJson value => exact below_look_bind (below_demand hs _)
  | inspect value => exact below_look_bind (below_demand hs _)
  | render template root => exact below_render hs template root
  | assign path root value => exact assign_below hG hs hrespond (hassign path root value rfl)
  | setKey object key value => exact setKey_below hG hs hrespond (hkey object key value rfl)
  | setCell cell value => exact setCell_below hG hs hrespond (hcell cell value rfl)
  | watch root path policy reaction => exact below_watch hG hs root path policy _
  | bind binder path reaction => exact below_bindPath hG hs binder path _
  | newSubscriber reaction => exact below_changeGet hs
  | update subscriber => exact update_below hs hrespond subscriber
  | dispose watcher => exact below_change hs
  | retain subscriber => exact below_change hs
  | release subscriber => exact below_change hs
  | setActive subscriber active => exact below_change hs
  | subscribe cell subscriber => exact below_change (hG.subscribers hs cell (· ++ [subscriber]))
  | notify cell => exact notify_below hG hs hrespond cell
  | collect slot => exact below_change hs
  | plant tree => exact below_changeGet hs
  | tree node => exact below_look_bind (below_demand hs _)
  | outline roots => exact below_look_bind (below_demand hs _)
  | append parent child => exact below_change hs
  | setText node text => exact below_setText hs node text
  | setValue node value => exact below_setValue hs node value
  | setAttribute node name value => exact below_change hs
  | listen node reaction => exact below_change hs
  | input node text => exact input_below hG hs hrespond node text
  | compile root config directives node => exact compile_below hG hs hrespond depth root config directives node

end Run

/-- A supervisor who accepts every store whose model has the property makes no difference. -/
theorem Run.below_supervised {ρ σ α : Type} {G : Model → Prop} {R : Store ρ σ → Store ρ σ → Prop}
    (hR : ∀ u u' : Store ρ σ, G u.model → G u'.model → R u u') {run₁ run₂ : Run ρ σ α} {s : Store ρ σ}
    (hs : G s.model) (h : Below G s run₁ run₂) (instead : Run ρ σ α) :
    Below G s run₁ (supervised R instead run₂) := by
  intro result s' hrun
  obtain ⟨hrun', hs'⟩ := h result s' hrun
  refine ⟨?_, hs'⟩
  unfold supervised
  rw [if_pos (hR s s hs hs), hrun']
  exact if_pos (hR s s' hs hs')

/-- A script is below itself in another way of carrying out operations, if every operation is. -/
theorem Script.runWith_below {ρ σ α : Type} {G : Model → Prop}
    {carryOut₁ carryOut₂ : (op : Op ρ σ) → Run ρ σ op.Answer}
    (hcarry : ∀ op s, G s.model → Run.Below G s (carryOut₁ op) (carryOut₂ op)) (script : Script ρ σ α)
    {s : Store ρ σ} (hs : G s.model) : Run.Below G s (script.runWith carryOut₁) (script.runWith carryOut₂) := by
  induction script generalizing s with
  | done result => exact Run.below_orRaise hs result
  | ask op next ih =>
    intro result s' h
    unfold runWith at h ⊢
    cases hfirst : carryOut₁ op s with
    | none =>
      rw [hfirst] at h
      cases h
    | some outcome =>
      obtain ⟨hsecond, hs₁⟩ := hcarry op s hs _ _ hfirst
      rw [hfirst] at h
      rw [hsecond]
      exact ih outcome.1 hs₁ _ _ h

end DataBinding
