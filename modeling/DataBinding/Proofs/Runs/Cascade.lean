import DataBinding.Proofs.Runs.Discipline
import DataBinding.Proofs.View.Sparing
import DataBinding.Proofs.Watching.Evolution

/-!
# How an error travels

A run is calm until an error is raised. From then on it only unwinds: it lets go of those whom it held and
writes the error into the journal again, until a script that asked for a failed operation goes on all the
same, or the run is at its end. `Cascade` tells a run in this way, store by store.

`Run.Cascades` says that a run can be told so, and it is shown of every operation of the library. That an
operation fails as soon as a part of it fails is nowhere assumed: it is what the rules for the combinators
say. Of the host it has to be known which operations its scripts ask for, and after which of them they end at
once if the operation fails (`Host.PassesOn`).

The account also says which nodes can be written on the way. The nodes that a library reaction writes are
those that the watchers show that are not disposed (`Store.ShowsWithin`).
-/

set_option autoImplicit false

namespace DataBinding

variable {ρ σ α β : Type}

namespace Event

/-- Whether an event tells of an error. -/
def isFailure : Event → Bool
  | .raised _ | .writeFailed _ => true
  | _ => false

end Event

/-- The node that a reaction shows something on. -/
def Reaction.node? : Reaction ρ → Option NodeId
  | .showValue node => some node
  | .showText node _ _ => some node
  | .hosted _ => none

/-- An operation does not write outside a scope by itself. -/
def Op.Within (scope : Scope) : Op ρ σ → Prop
  | .append parent _ => scope.writes parent
  | .setText node _ => scope.writes node
  | .setValue node _ => scope.writes node
  | .setAttribute node _ _ => scope.writes node
  | .listen node _ => scope.writes node
  | .input node text => scope.writes node ∨ scope.types node text
  | .compile _ _ _ _ => ∀ node, scope.writes node
  | _ => True

/-- A script ends at once, and with the same error, when an operation of a kind fails. -/
def Script.PassesOn (P : Op ρ σ → Prop) : Script ρ σ α → Prop
  | .done _ => True
  | .ask op next => (P op → ∀ e, next (.error e) = .done (.error e)) ∧ ∀ answer, (next answer).PassesOn P

/-- Every reaction of a host does so. -/
def Host.PassesOn (P : Op ρ σ → Prop) (host : Host ρ σ) : Prop :=
  ∀ reaction stimulus, (host.script reaction stimulus).PassesOn P

namespace Store

/-- The watchers that are not disposed show something only on nodes of a scope. -/
def ShowsWithin (scope : Scope) (s : Store ρ σ) : Prop :=
  ∀ {id w}, s.watcher? id = some w → w.disposed = false → ∀ node ∈ w.reaction.node?, scope.writes node

/-- Nothing fails, nothing is written outside a scope, and nobody comes who would show something there. -/
structure Calm (scope : Scope) (s s' : Store ρ σ) : Prop where
  journal : ∃ events, s'.journal = events ++ s.journal ∧ ∀ event ∈ events, event.isFailure = false
  spares : s.view.Spares scope s'.view
  shows : s.ShowsWithin scope → s'.ShowsWithin scope

/-- What a host can do by hand. -/
inductive ByHand (s : Store ρ σ) : Store ρ σ → Prop where
  | subscribed (cell : CellId) (id : SubscriberId) : ByHand s (s.withModel (·.subscribe cell id))
  | collected (slot : Option SubscriberId) : ByHand s { s with collector := slot }
  | activated (id : SubscriberId) (active : Bool) : ByHand s (s.setActive id active)

end Store

/-- The stores that a run of a host goes through, calm or with an error that is on its way out. An error is
caught by a script only if it comes from an operation after whose failure the host may go on. -/
inductive Cascade (scope : Scope) (P : Op ρ σ → Prop) (host : Host ρ σ) (s : Store ρ σ) :
    Option Error → Store ρ σ → Prop where
  | start : Cascade scope P host s none s
  | step {s₁ s₂ : Store ρ σ} : Cascade scope P host s none s₁ → Step s₁ s₂ → s₁.Calm scope s₂ →
      Cascade scope P host s none s₂
  | stored {s₁ : Store ρ σ} (cell : CellId) (value : Value) : Cascade scope P host s none s₁ →
      Cascade scope P host s none (s₁.storeCell cell value)
  | byHand {s₁ s₂ : Store ρ σ} : Cascade scope P host s none s₁ → s₁.ByHand s₂ →
      Cascade scope P host s none s₂
  /-- An operation fails by itself. -/
  | raised {s₁ s₂ : Store ρ σ} {e : Error} : Cascade scope P host s none s₁ → Step s₁ s₂ →
      s₂.journal = .raised e :: s₁.journal → s₂.view = s₁.view →
      (s₁.ShowsWithin scope → s₂.ShowsWithin scope) → Cascade scope P host s (some e) s₂
  | released {s₁ : Store ρ σ} {e : Error} (id : SubscriberId) : Cascade scope P host s (some e) s₁ →
      Cascade scope P host s (some e) (s₁.release id)
  | noted {s₁ : Store ρ σ} {e : Error} {event : Event} (hevent : event = .raised e ∨ event = .writeFailed e) :
      Cascade scope P host s (some e) s₁ → Cascade scope P host s (some e) (s₁.record event)
  /-- A script goes on after an operation that failed. -/
  | caught {s₀ s₁ : Store ρ σ} {e : Error} {op : Op ρ σ} {depth : Nat} (hop : ¬ P op)
      (hfailed : Run.perform (host.respond depth) depth op s₀ = some (.error e, s₁)) :
      Cascade scope P host s none s₀ → Cascade scope P host s (some e) s₁ → Cascade scope P host s none s₁

variable {scope : Scope} {P : Op ρ σ → Prop} {host : Host ρ σ} {s s₁ s' : Store ρ σ}
  {mood : Option Error}

namespace Store

/-- Whether watchers show something within a scope depends on the watchers only. -/
theorem ShowsWithin.of_watchers (h : s.ShowsWithin scope) (hsame : ∀ id, s'.watcher? id = s.watcher? id) :
    s'.ShowsWithin scope := by
  intro id w hw
  rw [hsame] at hw
  exact h hw

/-- While subscribers stay, they show something within the same scope. -/
theorem ShowsWithin.of_subscribers (h : s.ShowsWithin scope) (hsame : s'.subscribers = s.subscribers) :
    s'.ShowsWithin scope :=
  h.of_watchers fun _ => watcher?_of_subscribers hsame

/-- One watcher changes, and it shows what it showed if it was not disposed. -/
theorem ShowsWithin.updateWatcher (h : s.ShowsWithin scope) (id : SubscriberId) {f : Watcher ρ → Watcher ρ}
    (hf : ∀ w, (f w).disposed = false → w.disposed = false ∧ (f w).reaction = w.reaction) :
    (s.updateWatcher id f).ShowsWithin scope := by
  intro other w hw hactive node hnode
  rw [watcher?_updateWatcher] at hw
  split at hw
  · obtain ⟨v, hv, rfl⟩ := Option.map_eq_some_iff.1 hw
    obtain ⟨hv', hreaction⟩ := hf v hactive
    rw [hreaction] at hnode
    exact h hv hv' node hnode
  · exact h hw hactive node hnode

/-- What a host does by hand makes no watcher. -/
theorem ShowsWithin.byHand (h : s.ShowsWithin scope) (hhand : s.ByHand s') : s'.ShowsWithin scope := by
  cases hhand with
  | subscribed => exact h.of_subscribers rfl
  | collected => exact h.of_subscribers rfl
  | activated id active => exact h.of_watchers fun _ => watcher?_setActive s id _ active

end Store

namespace Cascade

/-- What a run can do, another can do that gets to where the run starts. -/
theorem trans (h₁ : Cascade scope P host s none s₁) (h₂ : Cascade scope P host s₁ mood s') :
    Cascade scope P host s mood s' := by
  induction h₂ with
  | start => exact h₁
  | step _ hstep hcalm ih => exact .step ih hstep hcalm
  | stored cell value _ ih => exact .stored cell value ih
  | byHand _ hhand ih => exact .byHand ih hhand
  | raised _ hstep hjournal hview hshows ih => exact .raised ih hstep hjournal hview hshows
  | released id _ ih => exact .released id ih
  | noted hevent _ ih => exact .noted hevent ih
  | caught hop hfailed _ _ ihbefore ih => exact .caught hop hfailed ihbefore ih

/-- Watchers that show something within a scope go on doing so throughout a cascade. -/
theorem shows (h : Cascade scope P host s mood s') (hs : s.ShowsWithin scope) :
    s'.ShowsWithin scope := by
  induction h with
  | start => exact hs
  | step _ _ hcalm ih => exact hcalm.shows ih
  | stored _ _ _ ih => exact ih.of_subscribers rfl
  | byHand _ hhand ih => exact ih.byHand hhand
  | raised _ _ _ _ hshows ih => exact hshows ih
  | released id _ ih => exact ih.of_watchers fun _ => Store.watcher?_release _ id _
  | noted _ _ ih => exact ih.of_subscribers rfl
  | caught _ _ _ _ _ ih => exact ih

/-- What is outside the scope is spared. -/
theorem spares (h : Cascade scope P host s mood s') : s.view.Spares scope s'.view := by
  induction h with
  | start => exact .refl _
  | step _ _ hcalm ih => exact ih.trans hcalm.spares
  | stored _ _ _ ih => exact ih
  | byHand _ hhand ih => cases hhand <;> exact ih
  | raised _ _ _ hview _ ih => exact hview ▸ ih
  | released _ _ ih => exact ih
  | noted _ _ ih => exact ih
  | caught _ _ _ _ _ ih => exact ih

end Cascade

/-! ## Calm steps -/

namespace Store

/-- If nothing was written down, nothing failed. -/
theorem quiet_of_same (h : s'.journal = s.journal) :
    ∃ events, s'.journal = events ++ s.journal ∧ ∀ event ∈ events, event.isFailure = false :=
  ⟨[], h, by simp⟩

/-- If only one event was written down and it tells of no error, nothing failed. -/
theorem quiet_of_cons {event : Event} (h : s'.journal = event :: s.journal)
    (hevent : event.isFailure = false) :
    ∃ events, s'.journal = events ++ s.journal ∧ ∀ event ∈ events, event.isFailure = false :=
  ⟨[event], h, by simpa using hevent⟩

/-- Subscribers stay as they are. -/
theorem Calm.of_subscribers
    (hjournal : ∃ events, s'.journal = events ++ s.journal ∧ ∀ event ∈ events, event.isFailure = false)
    (hview : s.view.Spares scope s'.view) (hsubscribers : s'.subscribers = s.subscribers) :
    s.Calm scope s' :=
  ⟨hjournal, hview, fun h => h.of_subscribers hsubscribers⟩

/-- Nothing changes but who holds whom. -/
theorem Calm.of_watchers (hjournal : s'.journal = s.journal) (hview : s'.view = s.view)
    (hsame : ∀ id, s'.watcher? id = s.watcher? id) : s.Calm scope s' :=
  ⟨quiet_of_same hjournal, hview ▸ .refl _, fun h => h.of_watchers hsame⟩

/-- Disposing a watcher is calm. -/
theorem calm_dispose (s : Store ρ σ) (id : SubscriberId) : s.Calm scope (s.dispose id) :=
  ⟨quiet_of_same rfl, .refl _, fun h => h.updateWatcher id fun _ hw => by cases hw⟩

/-- A watcher is made that shows nothing outside the scope. -/
theorem ShowsWithin.enroll (h : s.ShowsWithin scope) {handles : Nat} {watcher : Watcher ρ}
    {cells : List CellId} {event : Event} (hnode : ∀ node ∈ watcher.reaction.node?, scope.writes node) :
    (s.enroll handles watcher cells event).ShowsWithin scope := by
  intro id w hw hactive
  by_cases hold : id.index < s.subscribers.size
  · rw [watcher?_push_old hold rfl] at hw
    exact h hw hactive
  · have hlt := lt_size_of_watcher? hw
    have hindex : id.index = s.subscribers.size := by
      simp only [Store.enroll, Array.size_push] at hlt
      omega
    unfold watcher? subscriber? Store.enroll at hw
    simp only [hindex, Array.getElem?_push_size] at hw
    cases hw
    exact hnode

/-- A subscriber of the host shows nothing. -/
theorem ShowsWithin.addHosted (h : s.ShowsWithin scope) (reaction : ρ) :
    (s.addSubscriber (.hosted true reaction)).2.ShowsWithin scope := by
  intro id w hw hactive
  by_cases hold : id.index < s.subscribers.size
  · rw [watcher?_push_old hold rfl] at hw
    exact h hw hactive
  · have hlt := lt_size_of_watcher? hw
    have hindex : id.index = s.subscribers.size := by
      simp only [addSubscriber, Array.size_push] at hlt
      omega
    unfold watcher? subscriber? addSubscriber at hw
    simp only [hindex, Array.getElem?_push_size] at hw
    cases hw

end Store

/-! ## Runs -/

/-- The error that a run came back with. -/
def failure? : Except Error α → Option Error
  | .ok _ => none
  | .error e => some e

namespace Run

/-- A run can be told as a cascade, from a store whose watchers show nothing outside the scope. -/
def Cascades (scope : Scope) (P : Op ρ σ → Prop) (host : Host ρ σ) (s : Store ρ σ) (run : Run ρ σ α) :
    Prop :=
  s.ShowsWithin scope → ∀ result s', run s = some (result, s') →
    Cascade scope P host s (failure? result) s'

end Run

/-- Every reaction can be told as a cascade. -/
def Respond.Cascades (scope : Scope) (P : Op ρ σ → Prop) (host : Host ρ σ) (respond : Respond ρ σ) : Prop :=
  ∀ reaction stimulus s, Run.Cascades scope P host s (respond reaction stimulus)

namespace Run

/-- A run that is done goes nowhere. -/
theorem cascades_done (a : α) : Cascades scope P host s (done a : Run ρ σ α) := by
  intro hs result s' h
  cases h
  exact .start

/-- A run that does not come back has nothing to be told. -/
theorem cascades_diverge : Cascades scope P host s (diverge : Run ρ σ α) := by
  intro hs result s' h
  cases h

/-- A run that goes on is told as one cascade after the other, or as the first alone if that ends in an
error. -/
theorem cascades_bind {run : Run ρ σ α} {next : α → Run ρ σ β} (hrun : Cascades scope P host s run)
    (hnext : ∀ a s₁, run s = some (.ok a, s₁) → Cascades scope P host s₁ (next a)) :
    Cascades scope P host s (run >>= next) := by
  intro hs result s' h
  obtain ⟨e, herror, rfl⟩ | ⟨a, s₁, hok, hrest⟩ := bind_cases h
  · exact hrun hs _ _ herror
  · have hfirst := hrun hs _ _ hok
    exact hfirst.trans (hnext a s₁ hok (hfirst.shows hs) _ _ hrest)

/-- A look goes nowhere. -/
theorem cascades_look_bind {f : Store ρ σ → α} {next : α → Run ρ σ β}
    (h : Cascades scope P host s (next (f s))) : Cascades scope P host s (look f >>= next) := h

/-- A calm step is told as such. -/
theorem cascades_change {f : Store ρ σ → Store ρ σ} (hstep : Step s (f s)) (hcalm : s.Calm scope (f s)) :
    Cascades scope P host s (change f) := by
  intro hs result s' h
  cases h
  exact .step .start hstep hcalm

/-- A calm step in front of a run is told before it. -/
theorem cascades_change_bind {f : Store ρ σ → Store ρ σ} {next : Unit → Run ρ σ β}
    (hstep : Step s (f s)) (hcalm : s.Calm scope (f s)) (hnext : Cascades scope P host (f s) (next ())) :
    Cascades scope P host s (Run.change f >>= next) := by
  intro hs result s' h
  have hfirst : Cascade scope P host s none (f s) := .step .start hstep hcalm
  exact hfirst.trans (hnext (hfirst.shows hs) result s' h)

/-- A calm step that comes back with something is told as such. -/
theorem cascades_changeGet {f : Store ρ σ → α × Store ρ σ} (hstep : Step s (f s).2)
    (hcalm : s.Calm scope (f s).2) : Cascades scope P host s (changeGet f) := by
  intro hs result s' h
  cases h
  exact .step .start hstep hcalm

/-- An error that is raised is where a cascade turns. -/
theorem cascades_raise (e : Error) : Cascades scope P host s (raise e : Run ρ σ α) := by
  intro hs result s' h
  cases h
  exact .raised .start (.noted s _ rfl) rfl rfl fun h => h.of_subscribers rfl

/-- Going on with a result or raising its error can be told. -/
theorem cascades_orRaise (outcome : Except Error α) : Cascades scope P host s (orRaise outcome) := by
  cases outcome with
  | ok a => exact cascades_done a
  | error e => exact cascades_raise e

/-- Demanding a value can be told. -/
theorem cascades_demand (value : Option α) : Cascades scope P host s (demand value) := by
  cases value with
  | some a => exact cascades_done a
  | none => exact cascades_diverge

/-- A write that fails notes it on the way out. -/
theorem cascades_writing {run : Run ρ σ α} (hrun : Cascades scope P host s run) :
    Cascades scope P host s (writing run) := by
  intro hs result s' h
  unfold Run.writing at h
  split at h
  · next e s₁ herror =>
    cases h
    exact .noted (.inr rfl) (hrun hs _ _ herror)
  · exact hrun hs _ _ h

/-- A loop is told item by item. -/
theorem cascades_each {f : α → Run ρ σ Unit} (items : List α)
    (hf : ∀ item ∈ items, ∀ s, Cascades scope P host s (f item)) :
    Cascades scope P host s (each items f) := by
  induction items generalizing s with
  | nil => exact cascades_done ()
  | cons item rest ih =>
    refine cascades_bind (hf item List.mem_cons_self s) fun _ s₁ _ => ?_
    exact ih fun other hother => hf other (List.mem_cons_of_mem item hother)

/-- Whoever was held is let go of, whatever the run came back with. -/
theorem cascades_holding {id : SubscriberId} {run : Run ρ σ α}
    (hrun : Cascades scope P host (s.retain id) run) : Cascades scope P host s (holding id run) := by
  intro hs result s' h
  unfold Run.holding at h
  obtain ⟨⟨outcome, s₁⟩, hrun', heq⟩ := Option.map_eq_some_iff.1 h
  obtain ⟨rfl, rfl⟩ := Prod.mk.inj heq
  have hin : Cascade scope P host s none (s.retain id) :=
    .step .start (.retained s id) (.of_watchers rfl rfl (Store.watcher?_retain s id))
  have hbody := hin.trans (hrun (hin.shows hs) _ _ hrun')
  cases outcome with
  | ok a => exact .step hbody (.released s₁ id) (.of_watchers rfl rfl (Store.watcher?_release s₁ id))
  | error e => exact .released id hbody

end Run

end DataBinding
