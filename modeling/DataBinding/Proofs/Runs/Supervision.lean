import DataBinding.Proofs.Runs.Discipline

/-!
# Supervised runs

What `Run.Keeps` says of a run concerns the store that it comes back with. Reactions of a host start in the
middle of operations, and a statement about the stores that they find is made here in another way: by a
supervisor who checks each operation that a script asks for, at whatever depth of nested reactions, before
it begins and after it has come back, and does something else where a relation between the two stores fails.

`Script.run_supervised` says that a supervised run is the run without supervision: whatever the supervisor
would do instead, there is never an occasion. The argument is an induction on the depth. An operation comes
to the same with two responses to reactions that agree wherever an operation can call for one
(`Run.perform_agrees`), and a supervised reaction agrees with the plain one as long as the checks succeed.

Two runs may also be allowed to differ if the first of them gets away, to where some property holds for good.
In this way a supervisor can be made to wait for a run: `Script.GoesThrough` says that a run comes by a store,
and `Script.related_of_goesThrough` that a relation which holds along everything that a host can do then
relates the start of the run to that store, and that store to the end.
-/

set_option autoImplicit false

namespace DataBinding

namespace Run

variable {ρ σ α β : Type}

/-- Wherever a run gets to from a store, a property holds there. -/
def Escapes (E : Store ρ σ → Prop) (run : Run ρ σ α) (s : Store ρ σ) : Prop :=
  (∃ u, E u) ∧ ∀ result s', run s = some (result, s') → E s'

/-- Two runs come to the same from every store that has a property, unless the first escapes. -/
def Agrees (P E : Store ρ σ → Prop) (run₁ run₂ : Run ρ σ α) : Prop :=
  ∀ s, P s → run₁ s = run₂ s ∨ run₁.Escapes E s

/-- Two properties of stores that stay true, as a relation. -/
def Lasting (P E : Store ρ σ → Prop) (s s' : Store ρ σ) : Prop := (P s → P s') ∧ (E s → E s')

section Combinators

variable {P E : Store ρ σ → Prop}

/-- A run that starts where the property holds escapes. -/
theorem escapes_of_keeps {run : Run ρ σ α} {s : Store ρ σ} (hkeeps : Keeps (Lasting P E) s run)
    (hs : E s) : run.Escapes E s :=
  ⟨⟨s, hs⟩, fun result s' hrun => (hkeeps result s' hrun).2 hs⟩

/-- A run agrees with itself. -/
theorem agrees_refl (run : Run ρ σ α) : Agrees P E run run := fun _ _ => .inl rfl

/-- What has escaped stays where it is. -/
theorem escapes_bind {run : Run ρ σ α} {next : α → Run ρ σ β} {s : Store ρ σ} (hrun : run.Escapes E s)
    (hnext : ∀ a s, Keeps (Lasting P E) s (next a)) : (run >>= next).Escapes E s := by
  refine ⟨hrun.1, fun result s' h => ?_⟩
  obtain ⟨e, herror, -⟩ | ⟨a, s₁, hok, hrest⟩ := bind_cases h
  · exact hrun.2 _ _ herror
  · exact (hnext a s₁ _ _ hrest).2 (hrun.2 _ _ hok)

/-- Runs that go on agree if their parts do. If the first part escapes, it stays escaped through the second. -/
theorem agrees_bind {run₁ run₂ : Run ρ σ α} {next₁ next₂ : α → Run ρ σ β} (hrun : Agrees P E run₁ run₂)
    (hkeeps : ∀ s, Keeps (Lasting P E) s run₁) (hnext : ∀ a, Agrees P E (next₁ a) (next₂ a))
    (hlasting : ∀ a s, Keeps (Lasting P E) s (next₁ a)) :
    Agrees P E (run₁ >>= next₁) (run₂ >>= next₂) := by
  intro s hs
  rcases hrun s hs with heq | hescapes
  · rw [bind_apply, bind_apply, ← heq]
    cases hfirst : run₁ s with
    | none => exact .inl rfl
    | some outcome =>
      obtain ⟨e | a, s₁⟩ := outcome
      · exact .inl rfl
      · refine (hnext a s₁ ((hkeeps s _ _ hfirst).1 hs)).imp id fun hescapes => ⟨hescapes.1, ?_⟩
        intro result s' h
        rw [bind_apply, hfirst] at h
        exact hescapes.2 result s' h
  · exact .inr (escapes_bind hescapes hlasting)

/-- The first part of a run is the same on both sides. -/
theorem agrees_bind_same {run : Run ρ σ α} {next₁ next₂ : α → Run ρ σ β}
    (hkeeps : ∀ s, Keeps (Lasting P E) s run) (hnext : ∀ a, Agrees P E (next₁ a) (next₂ a)) :
    Agrees P E (run >>= next₁) (run >>= next₂) := by
  intro s hs
  rw [bind_apply, bind_apply]
  cases hfirst : run s with
  | none => exact .inl rfl
  | some outcome =>
    obtain ⟨e | a, s₁⟩ := outcome
    · exact .inl rfl
    · refine (hnext a s₁ ((hkeeps s _ _ hfirst).1 hs)).imp id fun hescapes => ⟨hescapes.1, ?_⟩
      intro result s' h
      rw [bind_apply, hfirst] at h
      exact hescapes.2 result s' h

/-- A look shows both runs the same. -/
theorem agrees_look {f : Store ρ σ → α} {next₁ next₂ : α → Run ρ σ β}
    (hnext : ∀ a, Agrees P E (next₁ a) (next₂ a)) :
    Agrees P E (look f >>= next₁) (look f >>= next₂) := fun s hs => hnext (f s) s hs

/-- A change in front of two runs changes both in the same way, and has to keep the property. -/
theorem agrees_change {f : Store ρ σ → Store ρ σ} {next₁ next₂ : Unit → Run ρ σ β}
    (hf : ∀ s, P s → P (f s)) (hnext : Agrees P E (next₁ ()) (next₂ ())) :
    Agrees P E (change f >>= next₁) (change f >>= next₂) := fun s hs => hnext (f s) (hf s hs)

/-- The same for a change that hands something to both. -/
theorem agrees_changeGet {f : Store ρ σ → α × Store ρ σ} {next₁ next₂ : α → Run ρ σ β}
    (hf : ∀ s, P s → P (f s).2) (hnext : ∀ a, Agrees P E (next₁ a) (next₂ a)) :
    Agrees P E (changeGet f >>= next₁) (changeGet f >>= next₂) :=
  fun s hs => hnext (f s).1 (f s).2 (hf s hs)

/-- Loops agree if they do for each item. -/
theorem agrees_each (hR : Discipline (Lasting P E)) {f₁ f₂ : α → Run ρ σ Unit}
    (hf : ∀ item, Agrees P E (f₁ item) (f₂ item))
    (hkeeps : ∀ item s, Keeps (Lasting P E) s (f₁ item)) (items : List α) :
    Agrees P E (each items f₁) (each items f₂) := by
  induction items with
  | nil => exact agrees_refl _
  | cons item rest ih =>
    exact agrees_bind (hf item) (hkeeps item) (fun _ => ih) fun _ s =>
      keeps_each hR rest fun item _ s => hkeeps item s

/-- Holding a subscriber during two runs keeps them agreeing. -/
theorem agrees_holding (hR : Discipline (Lasting P E)) {run₁ run₂ : Run ρ σ α} (id : SubscriberId)
    (hrun : Agrees P E run₁ run₂) : Agrees P E (holding id run₁) (holding id run₂) := by
  intro s hs
  refine (hrun _ ((hR.step (.retained s id)).1 hs)).imp (fun heq => ?_) fun hescapes => ⟨hescapes.1, ?_⟩
  · unfold holding
    rw [heq]
  · intro result s' h
    obtain ⟨⟨outcome, s₁⟩, hrun', heq⟩ := Option.map_eq_some_iff.1 h
    obtain ⟨rfl, rfl⟩ := Prod.mk.inj heq
    exact (hR.step (.released s₁ id)).2 (hescapes.2 _ _ hrun')

/-- Noting failed writes keeps two runs agreeing. -/
theorem agrees_writing (hR : Discipline (Lasting P E)) {run₁ run₂ : Run ρ σ α}
    (hrun : Agrees P E run₁ run₂) : Agrees P E (writing run₁) (writing run₂) := by
  intro s hs
  refine (hrun s hs).imp (fun heq => ?_) fun hescapes => ⟨hescapes.1, fun result s' h => ?_⟩
  · unfold writing
    rw [heq]
  · unfold writing at h
    split at h
    · next e s₁ herror =>
      cases h
      exact (hR.step (.noted s₁ _ rfl)).2 (hescapes.2 _ _ herror)
    · exact hescapes.2 _ _ h

/-- Attempts of runs that agree agree. -/
theorem agrees_attempt {run₁ run₂ : Run ρ σ α} (hrun : Agrees P E run₁ run₂) :
    Agrees P E (attempt run₁) (attempt run₂) := by
  intro s hs
  refine (hrun s hs).imp (fun heq => ?_) fun hescapes => ⟨hescapes.1, fun result s' h => ?_⟩
  · unfold attempt
    rw [heq]
  · obtain ⟨⟨outcome, s₁⟩, hrun', heq⟩ := Option.map_eq_some_iff.1 h
    obtain ⟨-, rfl⟩ := Prod.mk.inj heq
    exact hescapes.2 _ _ hrun'

/-- An attempt keeps what the run keeps. -/
theorem keeps_attempt {R : Store ρ σ → Store ρ σ → Prop} {s : Store ρ σ} {run : Run ρ σ α}
    (hrun : Keeps R s run) : Keeps R s (attempt run) := by
  intro result s' h
  obtain ⟨⟨outcome, s₁⟩, hrun', heq⟩ := Option.map_eq_some_iff.1 h
  obtain ⟨-, rfl⟩ := Prod.mk.inj heq
  exact hrun _ _ hrun'

end Combinators

/-! ## Operations under two responses -/

section Operations

variable {P E : Store ρ σ → Prop} (hP : WriteDiscipline (Lasting P E))
  {respond₁ respond₂ : Respond ρ σ}
  (hkeeps : Respond.Keeps (Lasting P E) respond₁)
  (hagrees : ∀ reaction stimulus, Agrees P E (respond₁ reaction stimulus) (respond₂ reaction stimulus))

include hagrees

/-- Reactions agree under two ways of responding that do. -/
theorem react_agrees (reaction : Reaction ρ) (value : Value) :
    Agrees P E (react respond₁ reaction value) (react respond₂ reaction value) := by
  cases reaction with
  | showValue node => exact agrees_refl _
  | showText node template root => exact agrees_refl _
  | hosted reaction => exact hagrees reaction _

include hP

/-- Updating a watcher agrees: it looks at its path in the same way, and the reactions agree. -/
theorem updateWatcher_agrees {id : SubscriberId} {watcher : Watcher ρ} {s : Store ρ σ}
    (hwatcher : s.watcher? id = some watcher) (hs : P s) :
    updateWatcher respond₁ id watcher s = updateWatcher respond₂ id watcher s ∨
      (updateWatcher respond₁ id watcher).Escapes E s := by
  unfold updateWatcher
  split
  · exact .inl rfl
  · next hactive =>
    have hactive : watcher.disposed = false := by simpa using hactive
    unfold Escapes
    simp only [peek_bind]
    cases hfound : s.model.peek watcher.path watcher.root with
    | error e => exact .inl rfl
    | ok value =>
      simp only [orRaise_ok_bind, change_bind]
      split
      · exact .inl rfl
      · next hother =>
        have hother : value.strictEq watcher.baseline = false := by simpa using hother
        have hstep := hP.step (.delivered s id watcher value hwatcher hactive hfound hother)
        exact react_agrees hagrees watcher.reaction value _ (hstep.1 hs)

/-- Updating a subscriber agrees, whether it is a watcher or the host reacts for it. -/
theorem update_agrees (id : SubscriberId) : Agrees P E (update respond₁ id) (update respond₂ id) := by
  intro s hs
  unfold update Escapes
  simp only [change_bind, look_bind]
  have hs₁ : P (s.record (.updating id)) := (hP.step (.noted s _ rfl)).1 hs
  cases hsubscriber : (s.record (.updating id)).subscriber? id with
  | none => exact .inl rfl
  | some subscriber =>
    obtain ⟨handles, role⟩ := subscriber
    cases role with
    | watching watcher =>
      refine updateWatcher_agrees hP hagrees ?_ hs₁
      unfold Store.watcher?
      rw [hsubscriber]
    | hosted active reaction => exact hagrees reaction .notified _ hs₁

/-- The turn of an entry agrees. -/
theorem visit_agrees (id : SubscriberId) :
    Agrees P E (visit (update respond₁) id) (visit (update respond₂) id) := by
  refine agrees_look fun live => ?_
  split
  · exact agrees_holding hP.toDiscipline id (update_agrees hP hagrees id)
  · exact agrees_refl _

include hkeeps

/-- Cycles agree, since their turns do. -/
theorem notify_agrees (cell : CellId) :
    Agrees P E (notify (update respond₁) cell) (notify (update respond₂) cell) := by
  refine agrees_change (fun s hs => (hP.step (.pruned s cell)).1 hs) (agrees_look fun entries => ?_)
  refine agrees_each hP.toDiscipline (fun id => visit_agrees hP hagrees id) (fun id s => ?_) entries
  exact keeps_visit hP.toDiscipline (fun id s => keeps_update hP.toDiscipline hkeeps id) id

/-- The storing of a value must keep the property by itself: the cycle starts after it. -/
theorem setCell_agrees (hstore : ∀ s cell value, Lasting P E s (s.storeCell cell value)) (cell : CellId)
    (value : Value) :
    Agrees P E (setCell (update respond₁) cell value) (setCell (update respond₂) cell value) := by
  refine agrees_look fun current => ?_
  split
  · exact agrees_refl _
  · refine agrees_change (fun s hs => (hstore s cell value).1 hs) ?_
    have hnotify := notify_agrees hP hkeeps hagrees cell
    have hlasting : ∀ s, Keeps (Lasting P E) s (writing (notify (update respond₁) cell)) := fun s =>
      keeps_writing hP.toDiscipline
        (keeps_notify hP.toDiscipline (fun id s => keeps_update hP.toDiscipline hkeeps id) cell)
    exact agrees_bind (agrees_writing hP.toDiscipline hnotify) hlasting (fun _ => agrees_refl _)
      fun _ _ => keeps_done hP.toDiscipline true

variable (hstore : ∀ s cell value, Lasting P E s (s.storeCell cell value))

include hstore

/-- Storing a value under a key agrees. -/
theorem setKey_agrees (object : ObjectId) (key : String) (value : Value) :
    Agrees P E (setKey (update respond₁) object key value)
      (setKey (update respond₂) object key value) := by
  refine agrees_look fun slot => ?_
  split
  · exact setCell_agrees hP hkeeps hagrees hstore _ value
  · exact agrees_refl _
  · exact agrees_refl _

/-- Writing through a path agrees. -/
theorem assign_agrees (path : Path) (root value : Value) :
    Agrees P E (assign (update respond₁) path root value) (assign (update respond₂) path root value) := by
  refine agrees_bind_same (fun s => ?_) fun object => ?_
  · exact keeps_writing hP.toDiscipline (keeps_container hP.toDiscipline path root)
  · exact setKey_agrees hP hkeeps hagrees hstore object path.last value

/-- What a listener does with an input agrees. -/
theorem hear_agrees (text : String) (listener : Listener ρ) :
    Agrees P E (hear respond₁ text listener) (hear respond₂ text listener) := by
  cases listener with
  | assign root path =>
    refine agrees_bind (assign_agrees hP hkeeps hagrees hstore path root _) (fun s => ?_)
      (fun _ => agrees_refl _) fun _ _ => keeps_done hP.toDiscipline ()
    exact keeps_assign hP hkeeps path root _
  | hosted reaction => exact hagrees reaction _

/-- An input agrees, since each listener does. -/
theorem input_agrees (node : NodeId) (text : String) :
    Agrees P E (input respond₁ node text) (input respond₂ node text) := by
  refine agrees_change (fun s hs => (hP.step (.typed s node text)).1 hs)
    (agrees_look fun listeners => ?_)
  refine agrees_each hP.toDiscipline
    (fun listener => hear_agrees hP hkeeps hagrees hstore text listener) ?_ listeners
  exact fun listener s => keeps_hear hP hkeeps text listener

omit hkeeps hstore

/-- Handling a directive agrees, as at most a handler of the host differs. -/
theorem handle_agrees (kind : DirectiveKind) (handler : Handler ρ) (binder : BinderId)
    (node : NodeId) (expression : String) :
    Agrees P E (handle respond₁ kind handler binder node expression)
      (handle respond₂ kind handler binder node expression) := by
  refine agrees_change (fun s hs => (hP.step (.noted s _ rfl)).1 hs) ?_
  cases handler with
  | bindValue => exact agrees_refl _
  | bindText => exact agrees_refl _
  | hosted reaction => exact hagrees reaction _

/-- Compiling an attribute agrees. -/
theorem compileAttribute_agrees (directives : Directives ρ) (binder : BinderId) (marker : String)
    (node : NodeId) (entry : String × String) :
    Agrees P E (compileAttribute respond₁ directives binder marker node entry)
      (compileAttribute respond₂ directives binder marker node entry) := by
  unfold compileAttribute
  split
  · exact agrees_refl _
  · refine agrees_bind_same (fun s => keeps_orRaise hP.toDiscipline _) fun found => ?_
    exact handle_agrees hP hagrees found.1 found.2 binder node entry.2

/-- Compiling a text agrees. -/
theorem compileText_agrees (directives : Directives ρ) (binder : BinderId) (config : Config)
    (node : NodeId) (text : String) :
    Agrees P E (compileText respond₁ directives binder config node text)
      (compileText respond₂ directives binder config node text) := by
  unfold compileText
  split
  · refine agrees_bind_same (fun s => keeps_orRaise hP.toDiscipline _) fun handler => ?_
    exact handle_agrees hP hagrees .text handler binder node _
  · exact agrees_refl _

include hkeeps

/-- A walk through some levels of a tree agrees, by induction on the levels. -/
theorem compileNode_agrees (directives : Directives ρ) (binder : BinderId) (config : Config)
    (depth : Nat) (id : NodeId) :
    Agrees P E (compileNode respond₁ directives binder config depth id)
      (compileNode respond₂ directives binder config depth id) := by
  induction depth generalizing id with
  | zero => exact agrees_refl _
  | succ depth ih =>
    refine agrees_look fun node => ?_
    split
    · have hattribute : ∀ entry s, Keeps (Lasting P E) s
          (compileAttribute respond₁ directives binder config.marker id entry) := fun entry s =>
        keeps_compileAttribute hP.toDiscipline hkeeps directives binder config.marker id entry
      have hchild : ∀ child s, Keeps (Lasting P E) s
          (compileNode respond₁ directives binder config depth child) := fun child s =>
        keeps_compileNode hP.toDiscipline hkeeps directives binder config depth child
      refine agrees_bind (agrees_each hP.toDiscipline (fun entry => ?_) hattribute _)
        (fun s => keeps_each hP.toDiscipline _ fun entry _ => hattribute entry)
        (fun _ => agrees_look fun children => agrees_each hP.toDiscipline ih hchild children)
        fun _ s => keeps_look_bind (keeps_each hP.toDiscipline _ fun child _ => hchild child)
      exact compileAttribute_agrees hP hagrees directives binder config.marker id entry
    · exact compileText_agrees hP hagrees directives binder config id _
    · exact agrees_refl _

/-- A pass agrees, whether its watchers stay or are let go. -/
theorem compile_agrees (depth : Nat) (root : Value) (config : Config) (directives : Directives ρ)
    (node : NodeId) :
    Agrees P E (compile respond₁ depth root config directives node)
      (compile respond₂ depth root config directives node) := by
  refine agrees_changeGet (fun s hs => (hP.step (.binderAdded s root config)).1 hs) fun binder => ?_
  have hnode := compileNode_agrees hP hkeeps hagrees directives binder config depth node
  refine agrees_bind (agrees_attempt hnode) (fun s => keeps_attempt ?_) (fun _ => agrees_refl _)
    fun outcome s => keeps_endOfPass hP.toDiscipline binder outcome
  exact keeps_compileNode hP.toDiscipline hkeeps directives binder config depth node

include hstore

/-- An operation comes to the same under two responses that agree wherever it can call for one. -/
theorem perform_agrees (depth : Nat) (op : Op ρ σ) :
    Agrees P E (perform respond₁ depth op) (perform respond₂ depth op) := by
  cases op with
  | assign path root value => exact assign_agrees hP hkeeps hagrees hstore path root value
  | setKey object key value => exact setKey_agrees hP hkeeps hagrees hstore object key value
  | setCell cell value => exact setCell_agrees hP hkeeps hagrees hstore cell value
  | update subscriber => exact update_agrees hP hagrees subscriber
  | notify cell => exact notify_agrees hP hkeeps hagrees cell
  | input node text => exact input_agrees hP hkeeps hagrees hstore node text
  | compile root config directives node =>
    exact compile_agrees hP hkeeps hagrees depth root config directives node
  | _ => exact agrees_refl _

end Operations

/-! ## Supervision -/

open Classical in
/-- Runs an operation under supervision: unless a relation holds before it and from before to after it,
something else is done instead. -/
noncomputable def supervised (R : Store ρ σ → Store ρ σ → Prop) (instead run : Run ρ σ α) : Run ρ σ α :=
  fun s =>
    if R s s then
      match run s with
      | none => none
      | some (result, s') => if R s s' then some (result, s') else instead s
    else instead s

/-- Supervision makes no difference to a run that passes the checks, and where a check fails the run has
escaped. -/
theorem agrees_supervised {P E : Store ρ σ → Prop} {R : Store ρ σ → Store ρ σ → Prop} {run₁ run₂ : Run ρ σ α}
    (hrun : Agrees P E run₁ run₂) (hkeeps : ∀ s, Keeps (Lasting P E) s run₁)
    (hbefore : ∀ s, P s → R s s ∨ E s)
    (hafter : ∀ s, P s → Keeps (fun s s' => R s s' ∨ E s') s run₁) (instead : Run ρ σ α) :
    Agrees P E run₁ (supervised R instead run₂) := by
  intro s hs
  rcases hbefore s hs with hstart | hescaped
  · refine (hrun s hs).elim (fun heq => ?_) .inr
    unfold supervised
    rw [if_pos hstart, ← heq]
    cases hfirst : run₁ s with
    | none => exact .inl rfl
    | some outcome =>
      rcases hafter s hs _ _ hfirst with hend | hescaped
      · exact .inl (if_pos hend).symm
      · refine .inr ⟨⟨_, hescaped⟩, fun result s' h => ?_⟩
        cases hfirst.symm.trans h
        exact hescaped
  · exact .inr (escapes_of_keeps (hkeeps s) hescaped)

end Run

variable {ρ σ α : Type}

/-- What a host does when a reaction is called for, if each operation that it asks for is supervised. -/
noncomputable def Host.supervised (R : Store ρ σ → Store ρ σ → Prop)
    (instead : (op : Op ρ σ) → Run ρ σ op.Answer) (host : Host ρ σ) : Nat → Respond ρ σ
  | 0 => fun _ _ => Run.diverge
  | depth + 1 => fun reaction stimulus =>
    (host.script reaction stimulus).runWith fun op =>
      Run.supervised R (instead op) (Run.perform (host.supervised R instead depth) depth op)

/-- Runs a script of a host, and supervises each operation that the script or a reaction asks for. -/
noncomputable def Script.runSupervised (R : Store ρ σ → Store ρ σ → Prop)
    (instead : (op : Op ρ σ) → Run ρ σ op.Answer) (host : Host ρ σ) (depth : Nat)
    (script : Script ρ σ α) : Run ρ σ α :=
  script.runWith fun op =>
    Run.supervised R (instead op) (Run.perform (host.supervised R instead depth) depth op)

section Supervision

variable {P E : Store ρ σ → Prop} {R : Store ρ σ → Store ρ σ → Prop} {Q : Op ρ σ → Prop}

/-- A script agrees with itself in another way of carrying out operations, if those that it may ask for do. -/
theorem Script.runWith_agrees (hR : Discipline (Run.Lasting P E))
    {carryOut₁ carryOut₂ : (op : Op ρ σ) → Run ρ σ op.Answer}
    (hagrees : ∀ op, Q op → Run.Agrees P E (carryOut₁ op) (carryOut₂ op))
    (hkeeps : ∀ op, Q op → ∀ s, Run.Keeps (Run.Lasting P E) s (carryOut₁ op)) {script : Script ρ σ α}
    (hscript : script.Asks Q) : Run.Agrees P E (script.runWith carryOut₁) (script.runWith carryOut₂) := by
  induction script with
  | done result => exact Run.agrees_refl _
  | ask op next ih =>
    intro s hs
    unfold Run.Escapes runWith
    rcases hagrees op hscript.1 s hs with heq | hescapes
    · rw [← heq]
      cases hop : carryOut₁ op s with
      | none => exact .inl rfl
      | some outcome =>
        exact ih outcome.1 (hscript.2 outcome.1) outcome.2 ((hkeeps op hscript.1 s _ _ hop).1 hs)
    · refine .inr ⟨hescapes.1, fun result s' h => ?_⟩
      split at h
      · cases h
      · next answer s₁ hop =>
        exact (Script.keeps_runWith hR hkeeps (hscript.2 answer) s₁ _ _ h).2 (hescapes.2 _ _ hop)

variable (hP : WriteDiscipline (Run.Lasting P E))
  (hstore : ∀ s cell value, Run.Lasting P E s (s.storeCell cell value))
  (hhand : ∀ op, Q op → op.isByHand = true → ∀ respond depth s,
    Run.Keeps (Run.Lasting P E) s (Run.perform respond depth op))
  {host : Host ρ σ} (hhost : host.Asks Q) (instead : (op : Op ρ σ) → Run ρ σ op.Answer)
  (hbefore : ∀ s, P s → R s s ∨ E s)
  (hafter : ∀ op, Q op → ∀ depth s, P s →
    Run.Keeps (fun s s' => R s s' ∨ E s') s (Run.perform (host.respond depth) depth op))

include hP hstore hhand hhost hbefore hafter

/-- Each operation passes the checks of the supervisor or escapes, if the reactions that it calls for agree
with the supervised ones. -/
theorem Run.perform_supervised {depth : Nat}
    (hagrees : ∀ reaction stimulus, Run.Agrees P E (host.respond depth reaction stimulus)
      (host.supervised R instead depth reaction stimulus)) (op : Op ρ σ) (hop : Q op) :
    Run.Agrees P E (Run.perform (host.respond depth) depth op)
        (Run.supervised R (instead op) (Run.perform (host.supervised R instead depth) depth op)) ∧
      ∀ s, Run.Keeps (Run.Lasting P E) s (Run.perform (host.respond depth) depth op) := by
  have hrespond : Respond.Keeps (Run.Lasting P E) (host.respond depth) :=
    Host.keeps_respond hP hhand hhost depth
  have hkeeps : ∀ s, Run.Keeps (Run.Lasting P E) s (Run.perform (host.respond depth) depth op) := fun s =>
    Run.keeps_perform hP hrespond depth op fun hop' => hhand op hop hop' _ _ _
  have hsame := Run.perform_agrees hP hrespond hagrees hstore depth op
  exact ⟨Run.agrees_supervised hsame hkeeps hbefore (hafter op hop depth) _, hkeeps⟩

/-- Supervised reactions agree with the plain ones: by induction on how deep they nest. -/
theorem Host.supervised_agrees (depth : Nat) (reaction : ρ) (stimulus : Stimulus) :
    Run.Agrees P E (host.respond depth reaction stimulus)
      (host.supervised R instead depth reaction stimulus) := by
  induction depth generalizing reaction stimulus with
  | zero => exact Run.agrees_refl _
  | succ depth ih =>
    have hperform := Run.perform_supervised hP hstore hhand hhost instead hbefore hafter ih
    exact Script.runWith_agrees hP.toDiscipline (fun op hop => (hperform op hop).1)
      (fun op hop => (hperform op hop).2) (hhost reaction stimulus)

/-- A run of a script agrees with the supervised one, by induction on the depth: a check that fails means
that the run has escaped. -/
theorem Script.run_agrees {script : Script ρ σ α} (hscript : script.Asks Q) (depth : Nat) :
    Run.Agrees P E (script.run host depth) (script.runSupervised R instead host depth) := by
  have hagrees := Host.supervised_agrees hP hstore hhand hhost instead hbefore hafter depth
  have hperform := Run.perform_supervised hP hstore hhand hhost instead hbefore hafter hagrees
  exact Script.runWith_agrees hP.toDiscipline (fun op hop => (hperform op hop).1)
    (fun op hop => (hperform op hop).2) hscript

end Supervision

/-! ## Checks that succeed -/

/-- A property of stores that a supervisor can check, with a relation that says more about what happens
from one such store to another: both hold along every step and along the storing of a value. -/
structure Supervisable (P : Store ρ σ → Prop) (R : Store ρ σ → Store ρ σ → Prop) : Prop where
  holds : ∀ {s s'}, R s s' → P s'
  refl : ∀ {s}, P s → R s s
  trans : ∀ {s₁ s₂ s₃}, R s₁ s₂ → R s₂ s₃ → R s₁ s₃
  step : ∀ {s s'}, Step s s' → P s → R s s'
  storing : ∀ {s} cell value, P s → R s (s.storeCell cell value)

namespace Supervisable

variable {P : Store ρ σ → Prop} {R : Store ρ σ → Store ρ σ → Prop}

/-- Along a run that starts with the property, the relation holds, and it is a discipline. -/
theorem related (h : Supervisable P R) : WriteDiscipline fun s s' => P s → R s s' := by
  refine .of_storing ⟨fun s hs => h.refl hs, fun h₁ h₂ hs => ?_, fun hstep hs => h.step hstep hs⟩ ?_
  · have hfirst := h₁ hs
    exact h.trans hfirst (h₂ (h.holds hfirst))
  · exact fun s cell value hs => h.storing cell value hs

/-- The property lasts, and nothing escapes. -/
theorem lasting (h : Supervisable P R) : WriteDiscipline (Run.Lasting P fun _ => False) := by
  refine .of_storing ⟨fun s => ⟨id, id⟩, fun h₁ h₂ => ⟨fun hs => h₂.1 (h₁.1 hs), fun hs => h₁.2 hs⟩,
    fun hstep => ⟨fun hs => h.holds (h.step hstep hs), id⟩⟩ ?_
  exact fun s cell value => ⟨fun hs => h.holds (h.storing cell value hs), id⟩

end Supervisable

/-- A supervisor never has occasion to do anything else. -/
theorem Script.run_supervised {P : Store ρ σ → Prop} {R : Store ρ σ → Store ρ σ → Prop}
    {Q : Op ρ σ → Prop} (hR : Supervisable P R)
    (hhand : ∀ op, Q op → op.isByHand = true → ∀ respond depth s,
      Run.Keeps (fun s s' => P s → R s s') s (Run.perform respond depth op))
    {host : Host ρ σ} (hhost : host.Asks Q) (instead : (op : Op ρ σ) → Run ρ σ op.Answer)
    {script : Script ρ σ α} (hscript : script.Asks Q) (depth : Nat) {s : Store ρ σ} (hs : P s) :
    script.runSupervised R instead host depth s = script.run host depth s := by
  have hrelated : ∀ depth, Respond.Keeps (fun s s' => P s → R s s') (host.respond depth) :=
    Host.keeps_respond hR.related hhand hhost
  have hagrees := Script.run_agrees (P := P) (E := fun _ => False) (R := R) hR.lasting
    (fun s cell value => ⟨fun hs => hR.holds (hR.storing cell value hs), id⟩)
    (fun op hop hop' respond depth s result s' h =>
      ⟨fun hs => hR.holds (hhand op hop hop' respond depth s result s' h hs), id⟩)
    hhost instead (fun s hs => .inl (hR.refl hs))
    (fun op hop depth s hs result s' h => .inl (Run.keeps_perform hR.related (hrelated depth) depth op
      (fun hop' => hhand op hop hop' _ _ _) result s' h hs))
    hscript depth
  rcases hagrees s hs with heq | ⟨⟨_, hfalse⟩, -⟩
  · exact heq.symm
  · exact hfalse.elim

/-! ## Waiting for a run -/

/-- A run of a script goes through a store: it starts there, or somebody who waits there, and lets no
operation begin or come back, makes a difference to it. -/
def Script.GoesThrough (host : Host ρ σ) (depth : Nat) (script : Script ρ σ α) (s t : Store ρ σ) : Prop :=
  t = s ∨ script.runSupervised (fun u u' => u ≠ t ∧ u' ≠ t) (fun _ => Run.diverge) host depth s ≠
    script.run host depth s

/-- A run that comes to where somebody waits does not come back. -/
theorem Run.supervised_waiting {run : Run ρ σ α} {s t : Store ρ σ} {result : Except Error α}
    (h : run s = some (result, t)) :
    Run.supervised (fun u u' => u ≠ t ∧ u' ≠ t) Run.diverge run s = none := by
  unfold Run.supervised
  rw [h]
  split
  · exact if_neg fun hends => hends.2 rfl
  · rfl

/-- A supervised run does not come back if the run does not. -/
theorem Run.supervised_none {R : Store ρ σ → Store ρ σ → Prop} {run : Run ρ σ α} {s : Store ρ σ}
    (h : run s = none) : Run.supervised R Run.diverge run s = none := by
  unfold Run.supervised
  rw [h]
  split
  · rfl
  · rfl

section Through

variable {R : Store ρ σ → Store ρ σ → Prop} {Q : Op ρ σ → Prop}

/-- A relation that holds from a store on goes on to hold, and one that has come to another store as well. -/
theorem Discipline.lasting (hR : Discipline R) {u u' : Store ρ σ} (s t : Store ρ σ) (h : R u u') :
    Run.Lasting (R s) (fun u => R s t ∧ R t u) u u' :=
  ⟨fun hu => hR.trans hu h, fun hu => ⟨hu.1, hR.trans hu.2 h⟩⟩

/-- Whatever store a run goes through, a relation that holds along everything the host does relates the
start of the run to it, and relates it to the end. -/
theorem Script.related_of_goesThrough (hR : Discipline R)
    (hstoring : ∀ s cell value, R s (s.storeCell cell value))
    (hhand : ∀ op, Q op → op.isByHand = true → ∀ respond depth s,
      Run.Keeps R s (Run.perform respond depth op))
    {host : Host ρ σ} (hhost : host.Asks Q) {script : Script ρ σ α} (hscript : script.Asks Q)
    {depth : Nat} {s t s' : Store ρ σ} {result : Except Error α} (hthrough : script.GoesThrough host depth s t)
    (hrun : script.run host depth s = some (result, s')) : R s t ∧ R t s' := by
  have hwrite : WriteDiscipline R := .of_storing hR hstoring
  have hkeeps : ∀ op, Q op → ∀ depth s, Run.Keeps R s (Run.perform (host.respond depth) depth op) :=
    fun op hop depth s => Run.keeps_perform hwrite (Host.keeps_respond hwrite hhand hhost depth) depth op
      fun hop' => hhand op hop hop' _ _ _
  rcases hthrough with rfl | hdiffers
  · exact ⟨hR.refl t, Script.keeps_runWith hR (fun op hop => hkeeps op hop depth) hscript t _ _ hrun⟩
  · -- Whoever gets to where the supervisor waits has come there from the start, and goes on from there.
    have hlasting : WriteDiscipline (Run.Lasting (R s) fun u => R s t ∧ R t u) :=
      .of_storing ⟨fun u => hR.lasting s t (hR.refl u),
        fun h₁ h₂ => ⟨fun hu => h₂.1 (h₁.1 hu), fun hu => h₂.2 (h₁.2 hu)⟩,
        fun hstep => hR.lasting s t (hR.step hstep)⟩ fun u cell value => hR.lasting s t (hstoring u cell value)
    have hagrees := Script.run_agrees (P := R s) (E := fun u => R s t ∧ R t u)
      (R := fun u u' => u ≠ t ∧ u' ≠ t) hlasting (fun u cell value => hR.lasting s t (hstoring u cell value))
      (fun op hop hop' respond depth u result u' h =>
        hR.lasting s t (hhand op hop hop' respond depth u result u' h))
      hhost (fun _ => Run.diverge) (fun u hu => ?_) (fun op hop depth u hu result u' h => ?_) hscript depth
    · rcases hagrees s (hR.refl s) with heq | hescapes
      · exact absurd heq.symm hdiffers
      · exact hescapes.2 _ _ hrun
    · by_cases hut : u = t
      · subst hut
        exact .inr ⟨hu, hR.refl u⟩
      · exact .inl ⟨hut, hut⟩
    · have hnext := hkeeps op hop depth u result u' h
      by_cases hut : u = t
      · subst hut
        exact .inr ⟨hu, hnext⟩
      · by_cases hut' : u' = t
        · subst hut'
          exact .inr ⟨hR.trans hu hnext, hR.refl u'⟩
        · exact .inl ⟨hut, hut'⟩

end Through

end DataBinding
