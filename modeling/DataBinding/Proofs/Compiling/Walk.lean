import DataBinding.Proofs.Compiling.Handling

/-!
# How a pass goes through a tree

A pass over a tree that stands in the view handles the directives of the tree in document order. There is
one thing in it that the tree alone does not tell: an element with a text directive has lost its children
by the time that the pass comes to them, and what the pass finds in their place is the text that the
directive rendered. If that text has a marker that captures something, the pass handles it as if it had
been written in the tree. `Tree.handled` says which directives a pass handles, and `compileNode_ok` that
it handles these, each text node once, and touches no node outside the tree.
-/

set_option autoImplicit false

namespace DataBinding

open Markup (Tree)

variable {ρ σ : Type}

/-! ## The directives of a tree -/

namespace Task

/-- The task of a directive that is found on a node. -/
def on (node : NodeId) (directive : DirectiveKind × String) : Task :=
  ⟨directive.1, node, directive.2⟩

/-- The directive of a task, wherever it was found. -/
def directive (task : Task) : DirectiveKind × String := (task.kind, task.expression)

end Task

namespace Config

/-- The directive of an attribute, if it is one. -/
def directive? (config : Config) (entry : String × String) : Option (DirectiveKind × String) :=
  ((directiveName? config.marker entry.1).bind DirectiveKind.ofName?).map fun kind => (kind, entry.2)

/-- The directives of some attributes, in their order. -/
def directives (config : Config) (attributes : List (String × String)) :
    List (DirectiveKind × String) :=
  attributes.filterMap config.directive?

/-- The directive that a text is, if it binds something. -/
def textDirectives (config : Config) (text : String) : List (DirectiveKind × String) :=
  if Template.containsBinding config.delimiters config.trimPaths (trim text.toList) then
    [(.text, String.ofList (trim text.toList))]
  else []

end Config

namespace Model

/-- The text that a template is rendered to. -/
def rendered (m : Model) (root : Value) (config : Config) (expression : String) : String :=
  match Template.parse config.delimiters config.trimPaths expression with
  | .ok template =>
    match m.render? template root with
    | some (.ok text) => text
    | _ => ""
  | .error _ => ""

/-- The text that some directives leave in an element: that of the last text directive. -/
def shown (m : Model) (root : Value) (config : Config) : List (DirectiveKind × String) → Option String
  | [] => none
  | (kind, expression) :: rest =>
    (m.shown root config rest).or
      (if kind = .text then some (m.rendered root config expression) else none)

end Model

/-- Of two lists of directives, the later decides which text is left in an element. -/
theorem Model.shown_append (m : Model) (root : Value) (config : Config)
    (directives directives' : List (DirectiveKind × String)) :
    m.shown root config (directives ++ directives') =
      (m.shown root config directives').or (m.shown root config directives) := by
  induction directives with
  | nil => simp [Model.shown]
  | cons directive rest ih => simp [Model.shown, ih, Option.or_assoc]

namespace Model.Alike

variable {m m' : Model}

/-- A template is rendered to the same text in a model with the same values. -/
theorem rendered (h : Alike m m') (root : Value) (config : Config) (expression : String) :
    m'.rendered root config expression = m.rendered root config expression := by
  unfold Model.rendered
  simp only [h.render?]

/-- The same text is left in an element over a model with the same values. -/
theorem shown (h : Alike m m') (root : Value) (config : Config)
    (directives : List (DirectiveKind × String)) :
    m'.shown root config directives = m.shown root config directives := by
  induction directives with
  | nil => rfl
  | cons directive rest ih => simp only [Model.shown, ih, h.rendered]

end Model.Alike

namespace Markup.Tree

mutual

/-- The directives that a pass handles in a tree. -/
def handled (m : Model) (root : Value) (config : Config) : Tree → List (DirectiveKind × String)
  | .text content => config.textDirectives content
  | .comment _ => []
  | .element _ attributes children =>
    config.directives attributes ++
      match m.shown root config (config.directives attributes) with
      | some found => config.textDirectives found
      | none => allHandled m root config children

/-- The directives that a pass handles in trees that follow each other. -/
def allHandled (m : Model) (root : Value) (config : Config) :
    List Tree → List (DirectiveKind × String)
  | [] => []
  | tree :: rest => handled m root config tree ++ allHandled m root config rest

end

end Markup.Tree

namespace Markup.Tree

mutual

/-- The same directives of a tree are handled over a model with the same values. -/
theorem handled_alike {m m' : Model} {root : Value} {config : Config} (h : m.Alike m') :
    ∀ tree : Tree, tree.handled m' root config = tree.handled m root config
  | .text _ => rfl
  | .comment _ => rfl
  | .element _ attributes children => by
    unfold handled
    rw [h.shown, allHandled_alike h children]

/-- The same directives of some trees are handled over a model with the same values. -/
theorem allHandled_alike {m m' : Model} {root : Value} {config : Config} (h : m.Alike m') :
    ∀ trees : List Tree, allHandled m' root config trees = allHandled m root config trees
  | [] => rfl
  | tree :: rest => by
    unfold allHandled
    rw [handled_alike h tree, allHandled_alike h rest]

end

end Markup.Tree

/-! ## One element -/

namespace View

variable {v v' v'' : View ρ}

/-- What directives make of the element that they are on: only that element changes, and all that it may
lose is its children, to a text. -/
structure Dressed (id : NodeId) (v v' : View ρ) (text : Option String) : Prop where
  size_le : v.nodes.size ≤ v'.nodes.size
  same : ∀ {n : NodeId}, n.index < v.nodes.size → n ≠ id → v'.node n = v.node n
  kind : (v'.node id).kind = (v.node id).kind
  children : text = none → (v'.node id).children = (v.node id).children
  replaced : ∀ content, text = some content → ∃ child, (v'.node id).children = [child] ∧
    v.nodes.size ≤ child.index ∧ child.index < v'.nodes.size ∧ (v'.node child).kind = .text ∧
    (v'.node child).text = content

/-- An element without directives stays as it is. -/
theorem Dressed.refl (id : NodeId) (v : View ρ) : Dressed id v v none where
  size_le := Nat.le_refl _
  same _ _ := rfl
  kind := rfl
  children _ := rfl
  replaced _ h := by cases h

/-- Directives dress an element one after the other; the later text replaces the earlier one. -/
theorem Dressed.trans {id : NodeId} {text text' : Option String} (hlt : id.index < v.nodes.size)
    (h₁ : Dressed id v v' text) (h₂ : Dressed id v' v'' text') :
    Dressed id v v'' (text'.or text) where
  size_le := Nat.le_trans h₁.size_le h₂.size_le
  same hn hne := (h₂.same (Nat.lt_of_lt_of_le hn h₁.size_le) hne).trans (h₁.same hn hne)
  kind := h₂.kind.trans h₁.kind
  children h := by
    obtain ⟨htext', htext⟩ := Option.or_eq_none_iff.1 h
    exact (h₂.children htext').trans (h₁.children htext)
  replaced content h := by
    cases text' with
    | some content' =>
      obtain rfl : content' = content := by simpa using h
      obtain ⟨child, hchildren, hnew, hlt', hkind, htext⟩ := h₂.replaced content' rfl
      exact ⟨child, hchildren, Nat.le_trans h₁.size_le hnew, hlt', hkind, htext⟩
    | none =>
      obtain ⟨child, hchildren, hnew, hlt', hkind, htext⟩ := h₁.replaced content (by simpa using h)
      have hne : child ≠ id := by
        rintro rfl
        omega
      have hsame := h₂.same hlt' hne
      refine ⟨child, (h₂.children rfl).trans hchildren, hnew, Nat.lt_of_lt_of_le hlt' h₂.size_le, ?_, ?_⟩
      · rw [hsame]
        exact hkind
      · rw [hsame]
        exact htext

/-- Showing a value leaves the children of an element. -/
theorem dressed_setValue (v : View ρ) (id : NodeId) (listener : Listener ρ) (text : String) :
    Dressed id v ((v.listen id listener).setValue id text) none where
  size_le := by simp [setValue, listen]
  same _ hne := by
    unfold setValue listen
    rw [node_update_of_ne hne, node_update_of_ne hne]
  kind := by
    unfold setValue listen
    simp only [node_update]
    split <;> split <;> rfl
  children _ := by
    unfold setValue listen
    simp only [node_update]
    split <;> split <;> rfl
  replaced _ h := by cases h

/-- Writing the text of an element puts a new text in the place of its children. -/
theorem dressed_setText {id : NodeId} {tag : String} (hlt : id.index < v.nodes.size)
    (hkind : (v.node id).kind = .element tag) (text : String) :
    Dressed id v (v.setText id text) (some text) := by
  have hview : v.setText id text = (v.add { kind := .text, text }).2.update id fun node =>
      { node with children := [(v.add { kind := .text, text }).1], textWrites := node.textWrites + 1 } := by
    unfold setText
    rw [hkind]
  have hlt' : id.index < (v.add { kind := .text, text }).2.nodes.size := by
    rw [size_add]
    omega
  have hne : (v.add { kind := .text, text }).1 ≠ id := by
    intro heq
    have hindex : (v.add { kind := .text, text }).1.index = v.nodes.size := rfl
    rw [heq] at hindex
    omega
  rw [hview]
  constructor
  case size_le => simp
  case same =>
    intro n hn hne
    rw [node_update_of_ne hne, node_add_of_lt hn]
  case kind =>
    rw [node_update, if_pos ⟨rfl, hlt'⟩, node_add_of_lt hlt]
  case children =>
    intro h
    cases h
  case replaced =>
    intro content h
    cases h
    refine ⟨(v.add { kind := .text, text }).1, ?_, Nat.le_refl _, ?_, ?_, ?_⟩
    · rw [node_update, if_pos ⟨rfl, hlt'⟩]
    · rw [size_update, size_add]
      exact Nat.lt_succ_self _
    · rw [node_update_of_ne hne, node_add_new]
    · rw [node_update_of_ne hne, node_add_new]

end View

/-! ## One directive -/

namespace Run

variable {binder : BinderId} {root : Value} {config : Config} {respond : Respond ρ σ}
  {s s' : Store ρ σ}

/-- The handler that the library has for a kind. -/
def builtIn : DirectiveKind → Handler ρ
  | .model => .bindValue
  | .text => .bindText

/-- A handler of the library that comes back has made the bindings of its directive, and has shown what
there is to show. -/
theorem handle_ok (hbinder : s.Binds binder root config) (kind : DirectiveKind) {node : NodeId}
    {expression : String}
    (h : handle respond kind (builtIn kind) binder node expression s = some (.ok (), s')) :
    Pass binder root config [.on node (kind, expression)]
        (Task.bindings root config (.on node (kind, expression))) s s' ∧
      match kind with
      | .model => ∃ path text, s'.view = (s.view.listen node (.assign root path)).setValue node text
      | .text => s'.view = s.view.setText node (s.model.rendered root config expression) := by
  have hdispatched : Pass binder root config [.on node (kind, expression)] ([] : List (Binding ρ)) s
      (s.record (.dispatched kind node expression)) := .dispatched s (.on node (kind, expression))
  unfold handle at h
  rw [change_bind] at h
  cases kind with
  | model =>
    obtain ⟨path, text, hparse, hpass, hview⟩ := bindValue_ok (hdispatched.binds hbinder) h
    have hbindings : (Task.bindings root config (.on node (.model, expression)) : List (Binding ρ)) =
        [(path, .showValue node)] := by
      simp only [Task.bindings, Task.on, hparse]
    refine ⟨?_, path, text, hview⟩
    rw [hbindings]
    exact hdispatched.trans hpass
  | text =>
    obtain ⟨template, text, hparse, hrender, hpass, hview⟩ := bindText_ok (hdispatched.binds hbinder) h
    have hbindings : (Task.bindings root config (.on node (.text, expression)) : List (Binding ρ)) =
        template.paths.map fun path => (path, .showText node template root) := by
      simp only [Task.bindings, Task.on, hparse]
    have hrendered : s.model.rendered root config expression = text := by
      have hrender : s.model.render? template root = some (.ok text) := hrender
      simp only [Model.rendered, hparse, hrender]
    refine ⟨?_, ?_⟩
    · rw [hbindings]
      exact hdispatched.trans hpass
    · rw [hrendered]
      exact hview

/-- The library has a handler for every kind that a name stands for. -/
theorem lookup_builtIn (marker name : String) : ({} : Directives ρ).lookup marker name =
    match DirectiveKind.ofName? name with
    | none => .error (.unknownDirective marker name)
    | some kind => .ok (kind, builtIn kind) := by
  unfold Directives.lookup
  cases DirectiveKind.ofName? name with
  | none => rfl
  | some kind => cases kind <;> rfl

/-- An attribute of an element is handled if it is a directive. -/
theorem compileAttribute_ok (hbinder : s.Binds binder root config) {id : NodeId} {tag : String}
    (hlt : id.index < s.view.nodes.size) (hkind : (s.view.node id).kind = .element tag)
    {entry : String × String}
    (h : compileAttribute respond {} binder config.marker id entry s = some (.ok (), s')) :
    let directives := (config.directive? entry).toList
    Pass binder root config (directives.map (.on id))
        ((directives.map (Task.on id)).flatMap (Task.bindings root config)) s s' ∧
      View.Dressed id s.view s'.view (s.model.shown root config directives) := by
  unfold compileAttribute at h
  unfold Config.directive?
  cases hname : directiveName? config.marker entry.1 with
  | none =>
    rw [hname] at h
    cases h
    exact ⟨.refl s, .refl id s.view⟩
  | some name =>
    rw [hname] at h
    simp only [lookup_builtIn] at h
    obtain ⟨⟨kind, handler⟩, s₁, hlookup, hhandle⟩ := bind_eq_ok.1 h
    obtain ⟨hkind', hsame⟩ := orRaise_ok hlookup
    subst hsame
    cases hof : DirectiveKind.ofName? name with
    | none =>
      rw [hof] at hkind'
      cases hkind'
    | some found =>
      rw [hof] at hkind'
      cases hkind'
      obtain ⟨hpass, hview⟩ := handle_ok hbinder kind hhandle
      have hbindings : ([Task.on id (kind, entry.2)].flatMap (Task.bindings root config) :
          List (Binding ρ)) = Task.bindings root config (.on id (kind, entry.2)) := by simp
      simp only [Option.bind_some, hof, Option.map_some, Option.toList_some, List.map_cons,
        List.map_nil, hbindings]
      refine ⟨hpass, ?_⟩
      cases kind with
      | model =>
        obtain ⟨path, text, hview⟩ := hview
        rw [hview]
        exact View.dressed_setValue s₁.view id _ text
      | text =>
        rw [hview]
        exact View.dressed_setText hlt hkind _

/-- The attributes of an element are handled in their order. -/
theorem compileAttributes_ok (hbinder : s.Binds binder root config) {id : NodeId} {tag : String}
    (hlt : id.index < s.view.nodes.size) (hkind : (s.view.node id).kind = .element tag)
    (attributes : List (String × String))
    (h : each attributes (compileAttribute respond {} binder config.marker id) s =
      some (.ok (), s')) :
    Pass binder root config ((config.directives attributes).map (.on id))
        (((config.directives attributes).map (Task.on id)).flatMap (Task.bindings root config)) s s' ∧
      View.Dressed id s.view s'.view (s.model.shown root config (config.directives attributes)) := by
  induction attributes generalizing s with
  | nil =>
    obtain rfl := each_nil_ok h
    exact ⟨.refl s', .refl id s'.view⟩
  | cons entry rest ih =>
    obtain ⟨s₁, hentry, hrest⟩ := each_cons_ok h
    obtain ⟨hpass, hdressed⟩ := compileAttribute_ok hbinder hlt hkind hentry
    have hlt₁ := Nat.lt_of_lt_of_le hlt hdressed.size_le
    obtain ⟨hpass', hdressed'⟩ := ih (hpass.binds hbinder) hlt₁ (hdressed.kind.trans hkind) hrest
    rw [hpass.alike.shown] at hdressed'
    have hdirectives : config.directives (entry :: rest) =
        (config.directive? entry).toList ++ config.directives rest := by
      unfold Config.directives
      cases hentry : config.directive? entry with
      | none => rw [List.filterMap_cons_none hentry]; rfl
      | some directive => rw [List.filterMap_cons_some hentry]; rfl
    rw [hdirectives, List.map_append, List.flatMap_append, Model.shown_append]
    exact ⟨hpass.trans hpass', hdressed.trans hlt hdressed'⟩

/-- A text is handled if it binds something. -/
theorem compileText_ok (hbinder : s.Binds binder root config) {id : NodeId}
    (hkind : (s.view.node id).kind = .text) (text : String)
    (h : compileText respond {} binder config id text s = some (.ok (), s')) :
    Pass binder root config ((config.textDirectives text).map (.on id))
        (((config.textDirectives text).map (Task.on id)).flatMap (Task.bindings root config)) s s' ∧
      s'.view.nodes.size = s.view.nodes.size ∧ (∀ n, n ≠ id → s'.view.node n = s.view.node n) ∧
      (s'.view.node id).kind = .text := by
  unfold compileText at h
  unfold Config.textDirectives
  split at h
  · next hbinds =>
    obtain ⟨handler, s₁, hget, hhandle⟩ := bind_eq_ok.1 h
    obtain ⟨hhandler, hsame⟩ := orRaise_ok hget
    subst hsame
    cases hhandler
    obtain ⟨hpass, hview⟩ := handle_ok hbinder .text hhandle
    rw [if_pos hbinds]
    refine ⟨by simpa using hpass, ?_⟩
    rw [hview]
    unfold View.setText
    rw [hkind]
    refine ⟨View.size_update _ _ _, fun n hne => View.node_update_of_ne hne _, ?_⟩
    rw [View.node_update]
    split
    · exact hkind
    · exact hkind
  · next hplain =>
    cases h
    rw [if_neg hplain]
    exact ⟨.refl s, rfl, fun _ _ => rfl, hkind⟩

end Run

/-! ## A whole tree -/

/-- Where a part of a pass has been. It changed only nodes of its trees, and handled what it handled on
these nodes or on new ones, on each text once. -/
structure Walked (ids : List NodeId) (v v' : View ρ) (tasks : List Task) : Prop where
  size_le : v.nodes.size ≤ v'.nodes.size
  same : ∀ {n : NodeId}, n.index < v.nodes.size → n ∉ ids → v'.node n = v.node n
  kind : ∀ {n : NodeId}, n.index < v.nodes.size → (v'.node n).kind = (v.node n).kind
  inside : ∀ task ∈ tasks, task.node.index < v'.nodes.size
  within : ∀ task ∈ tasks, task.node ∈ ids ∨ v.nodes.size ≤ task.node.index
  once : ∀ task ∈ tasks, ∀ other ∈ tasks, task.node = other.node →
    (v'.node task.node).kind = .text → task = other

namespace Walked

variable {v v' v'' : View ρ} {ids others all : List NodeId} {tasks tasks' : List Task}

/-- Without any tasks, nothing has been walked. -/
theorem refl (v : View ρ) : Walked ids v v [] where
  size_le := Nat.le_refl _
  same _ _ := rfl
  kind _ := rfl
  inside _ h := absurd h List.not_mem_nil
  within _ h := absurd h List.not_mem_nil
  once _ h := absurd h List.not_mem_nil

/-- Two parts of a pass that have not been at the same node. -/
theorem trans (h₁ : Walked ids v v' tasks) (h₂ : Walked others v' v'' tasks')
    (hall : ∀ n ∈ ids, n ∈ all) (hall' : ∀ n ∈ others, n ∈ all ∨ v.nodes.size ≤ n.index)
    (happart : ∀ task ∈ tasks, task.node ∉ others) : Walked all v v'' (tasks ++ tasks') where
  size_le := Nat.le_trans h₁.size_le h₂.size_le
  same {n} hlt hn := by
    have hother : n ∉ others := by
      intro hmem
      rcases hall' n hmem with hmem | hle
      · exact hn hmem
      · omega
    rw [h₂.same (Nat.lt_of_lt_of_le hlt h₁.size_le) hother, h₁.same hlt fun hmem => hn (hall n hmem)]
  kind hlt := (h₂.kind (Nat.lt_of_lt_of_le hlt h₁.size_le)).trans (h₁.kind hlt)
  inside task htask := by
    rcases List.mem_append.1 htask with htask | htask
    · exact Nat.lt_of_lt_of_le (h₁.inside task htask) h₂.size_le
    · exact h₂.inside task htask
  within task htask := by
    rcases List.mem_append.1 htask with htask | htask
    · exact (h₁.within task htask).imp_left (hall _)
    · rcases h₂.within task htask with hmem | hle
      · exact hall' _ hmem
      · exact .inr (Nat.le_trans h₁.size_le hle)
  once task htask other hother hnode hkind := by
    have hcross : ∀ t ∈ tasks, ∀ t' ∈ tasks', t.node ≠ t'.node := by
      intro t ht t' ht' heq
      have hlt := h₁.inside t ht
      rcases h₂.within t' ht' with hmem | hle
      · exact happart t ht (heq ▸ hmem)
      · rw [heq] at hlt
        omega
    rcases List.mem_append.1 htask with htask | htask
    · rcases List.mem_append.1 hother with hother | hother
      · refine h₁.once task htask other hother hnode ?_
        rw [← hkind, h₂.kind (h₁.inside task htask)]
      · exact absurd hnode (hcross task htask other hother)
    · rcases List.mem_append.1 hother with hother | hother
      · exact absurd hnode.symm (hcross other hother task htask)
      · exact h₂.once task htask other hother hnode hkind

end Walked

/-- A part of a pass that handles these directives on these nodes, or on new ones. -/
def Handles (binder : BinderId) (root : Value) (config : Config)
    (directives : List (DirectiveKind × String)) (ids : List NodeId) (s s' : Store ρ σ) : Prop :=
  ∃ tasks, Pass binder root config tasks (tasks.flatMap (Task.bindings root config)) s s' ∧
    tasks.map Task.directive = directives ∧ Walked ids s.view s'.view tasks

section Tree

variable {binder : BinderId} {root : Value} {config : Config} {respond : Respond ρ σ}
  {s s' : Store ρ σ}

/-- The directives that were found on a node are those that were there. -/
theorem map_directive_on (id : NodeId) (directives : List (DirectiveKind × String)) :
    (directives.map (Task.on id)).map Task.directive = directives := by
  induction directives with
  | nil => rfl
  | cons directive rest ih => rw [List.map_cons, List.map_cons, ih]; rfl

/-- A text node has at most one directive, which is handled on it. -/
theorem walked_text {id : NodeId} {v v' : View ρ} (hlt : id.index < v.nodes.size)
    (hkind : (v.node id).kind = .text) (text : String) (hsize : v'.nodes.size = v.nodes.size)
    (hsame : ∀ n, n ≠ id → v'.node n = v.node n) (hkind' : (v'.node id).kind = .text) :
    Walked [id] v v' ((config.textDirectives text).map (.on id)) := by
  have hon : ∀ task ∈ (config.textDirectives text).map (Task.on id), task.node = id := by
    intro task htask
    obtain ⟨directive, -, rfl⟩ := List.mem_map.1 htask
    rfl
  constructor
  case size_le => exact Nat.le_of_eq hsize.symm
  case same =>
    intro n _ hn
    exact hsame n fun heq => hn (List.mem_singleton.2 heq)
  case kind =>
    intro n _
    by_cases hn : n = id
    · rw [hn, hkind, hkind']
    · rw [hsame n hn]
  case inside =>
    intro task htask
    rw [hon task htask, hsize]
    exact hlt
  case within =>
    intro task htask
    rw [hon task htask]
    exact .inl (List.mem_singleton_self id)
  case once =>
    intro task htask other hother _ _
    unfold Config.textDirectives at htask hother
    split at htask
    · next hbinds =>
      rw [if_pos hbinds] at hother
      rw [List.map_singleton, List.mem_singleton] at htask hother
      rw [htask, hother]
    · cases htask

/-- The directives of an element are handled on it. -/
theorem walked_element {id : NodeId} {tag : String} {v v' : View ρ} {text : Option String}
    (hlt : id.index < v.nodes.size) (hkind : (v.node id).kind = .element tag)
    (hdressed : View.Dressed id v v' text) (directives : List (DirectiveKind × String)) :
    Walked [id] v v' (directives.map (.on id)) := by
  have hon : ∀ task ∈ directives.map (Task.on id), task.node = id := by
    intro task htask
    obtain ⟨directive, -, rfl⟩ := List.mem_map.1 htask
    rfl
  constructor
  case size_le => exact hdressed.size_le
  case same =>
    intro n hn hne
    exact hdressed.same hn fun heq => hne (List.mem_singleton.2 heq)
  case kind =>
    intro n hn
    by_cases hne : n = id
    · rw [hne]
      exact hdressed.kind
    · rw [hdressed.same hn hne]
  case inside =>
    intro task htask
    rw [hon task htask]
    exact Nat.lt_of_lt_of_le hlt hdressed.size_le
  case within =>
    intro task htask
    rw [hon task htask]
    exact .inl (List.mem_singleton_self id)
  case once =>
    intro task htask other _ _ htext
    rw [hon task htask, hdressed.kind, hkind] at htext
    cases htext

/-- A text node is handled as the text that it has. -/
theorem compileNode_text_ok (hbinder : s.Binds binder root config) {depth : Nat} {id : NodeId}
    (hlt : id.index < s.view.nodes.size) (hkind : (s.view.node id).kind = .text)
    (h : Run.compileNode respond {} binder config depth id s = some (.ok (), s')) :
    Handles binder root config (config.textDirectives (s.view.node id).text) [id] s s' := by
  cases depth with
  | zero => cases h
  | succ depth =>
    rw [Run.compileNode, Run.look_bind] at h
    simp only [hkind] at h
    obtain ⟨hpass, hsize, hsame, hkind'⟩ := Run.compileText_ok hbinder hkind _ h
    exact ⟨_, hpass, map_directive_on id _, walked_text hlt hkind _ hsize hsame hkind'⟩

/-- What is handled on an element comes before what is handled inside it. -/
theorem handles_element {id : NodeId} {below others : List NodeId} {s₁ : Store ρ σ}
    {own found : List (DirectiveKind × String)}
    (hpass : Pass binder root config (own.map (.on id))
      ((own.map (.on id)).flatMap (Task.bindings root config)) s s₁)
    (hwalked : Walked [id] s.view s₁.view (own.map (.on id)))
    (hinside : Handles binder root config found others s₁ s')
    (hothers : ∀ n ∈ others, n ∈ below ∨ s.view.nodes.size ≤ n.index) (hid : id ∉ others) :
    Handles binder root config (own ++ found) (id :: below) s s' := by
  obtain ⟨tasks, hpass', hhandled, hwalked'⟩ := hinside
  refine ⟨own.map (.on id) ++ tasks, ?_, ?_, ?_⟩
  · rw [List.flatMap_append]
    exact hpass.trans hpass'
  · rw [List.map_append, map_directive_on, hhandled]
  · apply hwalked.trans hwalked'
    · intro n hn
      exact List.mem_singleton.1 hn ▸ List.mem_cons_self
    · intro n hn
      exact (hothers n hn).imp_left (List.mem_cons_of_mem id)
    · intro task htask
      obtain ⟨directive, -, rfl⟩ := List.mem_map.1 htask
      exact hid

mutual

/-- A pass over a tree that stands in the view handles the directives of the tree. -/
theorem compileNode_ok : ∀ (tree : Tree) {depth : Nat} {id : NodeId} {ids : List NodeId}
    {s s' : Store ρ σ}, s.Binds binder root config → s.view.Stands tree id ids →
    Run.compileNode respond {} binder config depth id s = some (.ok (), s') →
    Handles binder root config (tree.handled s.model root config) ids s s'
  | .text content, depth, id, ids, s, s', hbinder, hstands, h => by
    obtain ⟨rfl, hlt, hkind, rfl⟩ := hstands
    exact compileNode_text_ok hbinder hlt hkind h
  | .comment body, depth, id, ids, s, s', hbinder, hstands, h => by
    obtain ⟨rfl, hlt, hkind, -⟩ := hstands
    cases depth with
    | zero => cases h
    | succ depth =>
      rw [Run.compileNode, Run.look_bind] at h
      simp only [hkind] at h
      cases h
      exact ⟨[], .refl s, rfl, .refl s.view⟩
  | .element tag attributes children, depth, id, ids, s, s', hbinder, hstands, h => by
    obtain ⟨below, rfl, hself, hlt, hkind, hattributes, hchildren⟩ := hstands
    cases depth with
    | zero => cases h
    | succ depth =>
      rw [Run.compileNode, Run.look_bind] at h
      simp only [hkind, hattributes] at h
      obtain ⟨⟨⟩, s₁, hown, hbelow⟩ := Run.bind_eq_ok.1 h
      obtain ⟨hpass, hdressed⟩ := Run.compileAttributes_ok hbinder hlt hkind attributes hown
      have hwalked := walked_element hlt hkind hdressed (config.directives attributes)
      have hbinder₁ := hpass.binds hbinder
      rw [Run.look_bind] at hbelow
      unfold Markup.Tree.handled
      -- A shown text has taken the place of the children before the walk gets to them.
      cases hshown : s.model.shown root config (config.directives attributes) with
      | none =>
        rw [hshown] at hdressed
        rw [hdressed.children rfl] at hbelow
        have hchildren₁ : s₁.view.AllStand children (s.view.node id).children below := by
          refine hchildren.of_same hdressed.size_le fun n hn => ?_
          exact hdressed.same (hchildren.lt_size n hn) fun heq => hself (heq ▸ hn)
        have hinside := compileNodes_ok children hbinder₁ hchildren₁ hbelow
        rw [Markup.Tree.allHandled_alike hpass.alike] at hinside
        exact handles_element hpass hwalked hinside (fun n hn => .inl hn) hself
      | some content =>
        rw [hshown] at hdressed
        obtain ⟨child, hreplaced, hnew, hchild, hkind', rfl⟩ := hdressed.replaced content rfl
        rw [hreplaced] at hbelow
        obtain ⟨s₂, htext, hdone⟩ := Run.each_cons_ok hbelow
        obtain rfl := Run.each_nil_ok hdone
        have hinside := compileNode_text_ok hbinder₁ hchild hkind' htext
        have hnotChild : id ∉ [child] := by
          intro hmem
          have heq : id = child := List.mem_singleton.1 hmem
          rw [heq] at hlt
          omega
        refine handles_element hpass hwalked hinside (fun n hn => ?_) hnotChild
        rw [List.mem_singleton.1 hn]
        exact .inr hnew

/-- A walk through trees that follow each other has handled their directives in order. It goes with the one
through a single tree, by induction on the trees. -/
theorem compileNodes_ok : ∀ (trees : List Tree) {depth : Nat} {roots ids : List NodeId}
    {s s' : Store ρ σ}, s.Binds binder root config → s.view.AllStand trees roots ids →
    Run.each roots (Run.compileNode respond {} binder config depth) s = some (.ok (), s') →
    Handles binder root config (Markup.Tree.allHandled s.model root config trees) ids s s'
  | [], depth, roots, ids, s, s', _, hstand, h => by
    obtain ⟨rfl, rfl⟩ := hstand
    obtain rfl := Run.each_nil_ok h
    exact ⟨[], .refl s', rfl, .refl s'.view⟩
  | tree :: rest, depth, roots, ids, s, s', hbinder, hstand, h => by
    obtain ⟨first, others, here, there, rfl, rfl, hdisjoint, hhere, hthere⟩ := hstand
    obtain ⟨s₁, hfirst, hrest⟩ := Run.each_cons_ok h
    obtain ⟨tasks, hpass, hhandled, hwalked⟩ := compileNode_ok tree hbinder hhere hfirst
    have hthere₁ : s₁.view.AllStand rest others there := by
      refine hthere.of_same hwalked.size_le fun n hn => ?_
      exact hwalked.same (hthere.lt_size n hn) fun hmem => hdisjoint n hmem hn
    obtain ⟨tasks', hpass', hhandled', hwalked'⟩ :=
      compileNodes_ok rest (hpass.binds hbinder) hthere₁ hrest
    rw [Markup.Tree.allHandled_alike hpass.alike] at hhandled'
    refine ⟨tasks ++ tasks', ?_, ?_, ?_⟩
    · rw [List.flatMap_append]
      exact hpass.trans hpass'
    · rw [List.map_append, hhandled, hhandled', Markup.Tree.allHandled]
    · refine hwalked.trans hwalked' (fun n hn => List.mem_append_left _ hn) ?_ ?_
      · exact fun n hn => .inl (List.mem_append_right _ hn)
      · intro task htask hmem
        rcases hwalked.within task htask with hmem' | hle
        · exact hdisjoint _ hmem' hmem
        · have hlt := hthere.lt_size _ hmem
          omega

end

end Tree

end DataBinding
