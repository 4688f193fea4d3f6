import DataBinding.Proofs.Compiling.Walk

/-!
# The paths that a pass watches

A tree has paths written in it: those of its directives, and the markers of its texts, except below an
element with a text directive, which replaces what is below it. A pass watches these paths, in this
order, and besides them the paths that it finds in what its text directives have rendered: the rendered
text stands in the tree by then, and the pass takes it for a template. `compiled_paths` says exactly
which paths are watched; they are the written ones if and only if no rendered text captures anything.
-/

set_option autoImplicit false

namespace DataBinding

open Markup (Tree)

variable {ρ σ : Type}

namespace Config

/-- The paths that a directive binds. -/
def paths (config : Config) (directive : DirectiveKind × String) : List Path :=
  match directive.1 with
  | .model =>
    match Path.parse directive.2 with
    | .ok path => [path]
    | .error _ => []
  | .text =>
    match Template.parse config.delimiters config.trimPaths directive.2 with
    | .ok template => template.paths
    | .error _ => []

/-- The paths between the markers of a text. -/
def markerPaths (config : Config) (text : String) : List Path :=
  config.paths (.text, String.ofList (trim text.toList))

/-- Whether one of some directives replaces what is below the element that they are on. -/
def replacesChildren (directives : List (DirectiveKind × String)) : Bool :=
  directives.any fun directive => directive.1 = .text

end Config

namespace Markup.Tree

mutual

/-- The paths that are written in a tree. -/
def written (config : Config) : Tree → List Path
  | .text content => config.markerPaths content
  | .comment _ => []
  | .element _ attributes children =>
    (config.directives attributes).flatMap config.paths ++
      if Config.replacesChildren (config.directives attributes) then []
      else allWritten config children

/-- The paths that are written in trees that follow each other. -/
def allWritten (config : Config) : List Tree → List Path
  | [] => []
  | tree :: rest => written config tree ++ allWritten config rest

end

mutual

/-- The paths that a pass binds in a tree. -/
def bound (m : Model) (root : Value) (config : Config) : Tree → List Path
  | .text content => config.markerPaths content
  | .comment _ => []
  | .element _ attributes children =>
    (config.directives attributes).flatMap config.paths ++
      match m.shown root config (config.directives attributes) with
      | some found => config.markerPaths found
      | none => allBound m root config children

/-- The paths that a pass binds in trees that follow each other. -/
def allBound (m : Model) (root : Value) (config : Config) : List Tree → List Path
  | [] => []
  | tree :: rest => bound m root config tree ++ allBound m root config rest

end

mutual

/-- Whether no text that the text directives of a tree render captures a path. -/
def rendersPlainly (m : Model) (root : Value) (config : Config) : Tree → Bool
  | .text _ => true
  | .comment _ => true
  | .element _ attributes children =>
    match m.shown root config (config.directives attributes) with
    | some found => (config.markerPaths found).isEmpty
    | none => allRenderPlainly m root config children

/-- The same for trees that follow each other. -/
def allRenderPlainly (m : Model) (root : Value) (config : Config) : List Tree → Bool
  | [] => true
  | tree :: rest => rendersPlainly m root config tree && allRenderPlainly m root config rest

end

end Markup.Tree

/-! ## Bound and written paths -/

section Paths

variable (m : Model) (root : Value) (config : Config)

/-- Directives replace the children of an element if and only if one of them leaves a text there. -/
theorem replacesChildren_iff (directives : List (DirectiveKind × String)) :
    Config.replacesChildren directives = (m.shown root config directives).isSome := by
  induction directives with
  | nil => rfl
  | cons directive rest ih =>
    obtain ⟨kind, expression⟩ := directive
    have hrest : Config.replacesChildren rest = rest.any fun directive => directive.1 = .text := rfl
    cases kind with
    | model => simpa [Config.replacesChildren, Model.shown] using ih
    | text => simp [Config.replacesChildren, Model.shown]

/-- A text without a marker that captures something has no paths. -/
theorem textDirectives_paths (text : String) :
    (config.textDirectives text).flatMap config.paths = config.markerPaths text := by
  unfold Config.textDirectives Config.markerPaths
  split
  · simp
  · next hplain =>
    have hnone : Marker.first? config.delimiters config.trimPaths (trim text.toList) = none := by
      simpa [Template.containsBinding] using hplain
    have hparts : Template.parseParts config.delimiters config.trimPaths (trim text.toList) =
        .ok (Template.literalPart (trim text.toList)) := by
      unfold Template.parseParts
      split
      · rfl
      · next marker hmarker => rw [hnone] at hmarker; cases hmarker
    have hpaths : ∀ text, Template.paths ⟨Template.literalPart text⟩ = [] := by
      intro text
      unfold Template.literalPart
      split <;> rfl
    simp only [List.flatMap_nil, Config.paths, Template.parse, String.toList_ofList, hparts,
      Except.map, hpaths]

mutual

/-- The paths of the directives that are handled in a tree are those that are bound in it. -/
theorem handled_paths : ∀ tree : Tree,
    (tree.handled m root config).flatMap config.paths = tree.bound m root config
  | .text content => textDirectives_paths config content
  | .comment _ => rfl
  | .element _ attributes children => by
    unfold Markup.Tree.handled Markup.Tree.bound
    rw [List.flatMap_append]
    cases m.shown root config (config.directives attributes) with
    | some found => simp only [textDirectives_paths]
    | none => simp only [allHandled_paths children]

/-- The same for trees that follow each other. -/
theorem allHandled_paths : ∀ trees : List Tree,
    (Markup.Tree.allHandled m root config trees).flatMap config.paths =
      Markup.Tree.allBound m root config trees
  | [] => rfl
  | tree :: rest => by
    unfold Markup.Tree.allHandled Markup.Tree.allBound
    rw [List.flatMap_append, handled_paths tree, allHandled_paths rest]

end

mutual

/-- A pass binds every written path, and where it binds no more, it binds these. -/
theorem written_sublist_bound : ∀ tree : Tree,
    (tree.written config).Sublist (tree.bound m root config)
  | .text _ => List.Sublist.refl _
  | .comment _ => List.Sublist.refl _
  | .element _ attributes children => by
    unfold Markup.Tree.written Markup.Tree.bound
    refine List.Sublist.append (List.Sublist.refl _) ?_
    rw [replacesChildren_iff m root config]
    cases m.shown root config (config.directives attributes) with
    | some found => simp
    | none => simpa using allWritten_sublist_allBound children

/-- The paths written in some trees are bound in the order in which they are written. -/
theorem allWritten_sublist_allBound : ∀ trees : List Tree,
    (Markup.Tree.allWritten config trees).Sublist (Markup.Tree.allBound m root config trees)
  | [] => List.Sublist.refl _
  | tree :: rest => by
    unfold Markup.Tree.allWritten Markup.Tree.allBound
    exact List.Sublist.append (written_sublist_bound tree) (allWritten_sublist_allBound rest)

end

mutual

/-- The paths bound in a tree are those written in it if and only if no text that it renders captures one. -/
theorem bound_eq_written_iff : ∀ tree : Tree,
    tree.bound m root config = tree.written config ↔ tree.rendersPlainly m root config = true
  | .text _ => by simp [Markup.Tree.bound, Markup.Tree.written, Markup.Tree.rendersPlainly]
  | .comment _ => by simp [Markup.Tree.bound, Markup.Tree.written, Markup.Tree.rendersPlainly]
  | .element _ attributes children => by
    unfold Markup.Tree.written Markup.Tree.bound Markup.Tree.rendersPlainly
    rw [List.append_cancel_left_eq, replacesChildren_iff m root config]
    cases m.shown root config (config.directives attributes) with
    | some found => simp
    | none => simpa using allBound_eq_allWritten_iff children

/-- The same for trees that follow each other. -/
theorem allBound_eq_allWritten_iff : ∀ trees : List Tree,
    Markup.Tree.allBound m root config trees = Markup.Tree.allWritten config trees ↔
      Markup.Tree.allRenderPlainly m root config trees = true
  | [] => by
    simp [Markup.Tree.allBound, Markup.Tree.allWritten, Markup.Tree.allRenderPlainly]
  | tree :: rest => by
    have hfirst := (written_sublist_bound m root config tree)
    have hrest := (allWritten_sublist_allBound m root config rest)
    unfold Markup.Tree.allBound Markup.Tree.allWritten Markup.Tree.allRenderPlainly
    rw [Bool.and_eq_true, ← bound_eq_written_iff tree, ← allBound_eq_allWritten_iff rest]
    constructor
    · intro h
      have hlength := congrArg List.length h
      rw [List.length_append, List.length_append] at hlength
      have hle := hfirst.length_le
      have hle' := hrest.length_le
      exact ⟨(hfirst.eq_of_length (by omega)).symm, (hrest.eq_of_length (by omega)).symm⟩
    · rintro ⟨hbound, hbound'⟩
      rw [hbound, hbound']

end

end Paths

/-! ## What a pass watches -/

section Pass

variable {root : Value} {config : Config} {respond : Respond ρ σ} {s s' : Store ρ σ}

/-- The bindings of a task are those of its directive. -/
theorem bindings_paths (root : Value) (config : Config) (task : Task) :
    (Task.bindings root config task : List (Binding ρ)).map Prod.fst =
      config.paths task.directive := by
  obtain ⟨kind, node, expression⟩ := task
  cases kind with
  | model =>
    unfold Task.bindings Config.paths Task.directive
    cases Path.parse expression <;> rfl
  | text =>
    unfold Task.bindings Config.paths Task.directive
    cases Template.parse config.delimiters config.trimPaths expression with
    | error e => rfl
    | ok template => simp [Function.comp_def]

/-- A new binder starts from the root and has the settings that it was given. -/
theorem binds_addBinder (s : Store ρ σ) (root : Value) (config : Config) :
    (s.addBinder root config).2.Binds (s.addBinder root config).1 root config := by
  refine ⟨?_, ?_, ?_⟩
  · simp [Store.addBinder]
  · simp [Store.binder, Store.addBinder, Array.getD_eq_getD_getElem?]
  · simp [Store.binder, Store.addBinder, Array.getD_eq_getD_getElem?]

/-- A pass that comes back with watchers has handled the directives of the tree. -/
theorem compile_ok {tree : Tree} {depth : Nat} {node : NodeId} {ids : List NodeId}
    {watchers : List SubscriberId} (hstands : s.view.Stands tree node ids)
    (h : Run.compile respond depth root config {} node s = some (.ok watchers, s')) :
    ∃ tasks, Pass (s.addBinder root config).1 root config tasks
        (tasks.flatMap (Task.bindings root config)) (s.addBinder root config).2 s' ∧
      tasks.map Task.directive = tree.handled s.model root config ∧
      Walked ids s.view s'.view tasks ∧
      watchers = (List.range' s.subscribers.size
        (tasks.flatMap (Task.bindings (ρ := ρ) root config)).length).map SubscriberId.mk := by
  unfold Run.compile at h
  rw [Run.changeGet_bind, Run.attempt_bind] at h
  obtain ⟨⟨outcome, s₁⟩, hnode, hrest⟩ := Option.bind_eq_some_iff.1 h
  rw [Run.look_bind] at hrest
  cases outcome with
  | error e => cases hrest
  | ok _ =>
    cases hrest
    obtain ⟨tasks, hpass, hhandled, hwalked⟩ :=
      compileNode_ok tree (binds_addBinder s root config) hstands hnode
    refine ⟨tasks, hpass, hhandled, hwalked, ?_⟩
    have hfresh : ((s.addBinder root config).2.binder (s.addBinder root config).1).watchers = [] := by
      simp [Store.binder, Store.addBinder, Array.getD_eq_getD_getElem?]
    rw [hpass.watchers_eq, hfresh]
    rfl

/-- The paths that a pass watches are those that it binds. -/
theorem compiled_paths {tree : Tree} {depth : Nat} {node : NodeId} {ids : List NodeId}
    {watchers : List SubscriberId} (hstands : s.view.Stands tree node ids)
    (h : Run.compile respond depth root config {} node s = some (.ok watchers, s')) :
    watchers.map (fun id => (s'.watcher? id).map (·.path)) =
      (tree.bound s.model root config).map some := by
  obtain ⟨tasks, hpass, hhandled, -, rfl⟩ := compile_ok hstands h
  have hmade : (List.range' s.subscribers.size (tasks.flatMap (Task.bindings root config)).length).map
      (fun i => s'.watcher? ⟨i⟩) = (tasks.flatMap (Task.bindings root config)).map
        fun binding => some (binding.watcher s.model root config) := hpass.watchers_made
  have hmade := congrArg (List.map (Option.map Watcher.path)) hmade
  have hpaths : (tasks.flatMap (Task.bindings (ρ := ρ) root config)).map Prod.fst =
      tree.bound s.model root config := by
    rw [← handled_paths, ← hhandled, List.map_flatMap, List.flatMap_map]
    simp only [bindings_paths]
  rw [← hpaths]
  simpa [Function.comp_def, Binding.watcher] using hmade

/-- The paths that a pass watches are, in order, those written in the tree, if and only if no text
that the text directives of the tree render has a marker that captures something. -/
theorem compiled_paths_eq_written_iff {tree : Tree} {depth : Nat} {node : NodeId} {ids : List NodeId}
    {watchers : List SubscriberId} (hstands : s.view.Stands tree node ids)
    (h : Run.compile respond depth root config {} node s = some (.ok watchers, s')) :
    watchers.map (fun id => (s'.watcher? id).map (·.path)) = (tree.written config).map some ↔
      tree.rendersPlainly s.model root config = true := by
  rw [compiled_paths hstands h, ← bound_eq_written_iff]
  exact List.map_inj_right fun _ _ => Option.some.inj

end Pass

/-- A paragraph whose text is the value of `a`. -/
def quotation : Tree := .element "p" [("v-text", "\x7b\x7ba\x7d\x7d")] []

/-- The paragraph in front of some data. -/
def quoting (json : Json) : Store Unit Unit where
  model := (Model.observe json {}).2
  view := (View.plant quotation {}).2
  host := ()

/-- A pass over the paragraph. -/
def quoted (json : Json) : Option (Except Error (List SubscriberId) × Store Unit Unit) :=
  Run.compile (fun _ _ => Run.done ()) 3 (Model.observe json {}).1 {} {}
    (View.plant quotation ({} : View Unit)).1 (quoting json)

/-- The paths that a pass over the paragraph watches. -/
def quotedPaths (json : Json) : Option (List (Option Path)) := do
  let (result, s) ← quoted json
  let watchers ← result.toOption
  return watchers.map fun id => (s.watcher? id).map (·.path)

/-- A paragraph over a plain text: the pass watches the one path that is written. -/
theorem compiled_paths_eq_written_of_plain_text : ∃ watchers s,
    quoted (.object [("a", .string "b")]) = some (.ok watchers, s) ∧
      watchers.map (fun id => (s.watcher? id).map (·.path)) = (quotation.written {}).map some := by
  have hdone : (quoted (.object [("a", .string "b")])).isSome = true := by decide +kernel
  have hok : ∀ outcome ∈ quoted (.object [("a", .string "b")]), outcome.1.isOk = true := by
    decide +kernel
  obtain ⟨⟨result, s⟩, hrun⟩ := Option.isSome_iff_exists.1 hdone
  cases result with
  | error e => cases hok _ hrun
  | ok watchers =>
    obtain ⟨ids, hstands, -⟩ := View.plant_stands quotation ({} : View Unit)
    have hstands : (quoting (.object [("a", .string "b")])).view.Stands quotation
        (View.plant quotation ({} : View Unit)).1 ids := hstands
    refine ⟨watchers, s, hrun, ?_⟩
    exact (compiled_paths_eq_written_iff hstands hrun).2 (by decide +kernel)

/-- A value that looks like a template is compiled as one: the paths that are watched depend on it,
although the tree has only one path written in it. -/
theorem value_compiled_as_template :
    quotedPaths (.object [("a", .string "\x7b\x7bb\x7d\x7d"), ("b", .bool true)]) =
        some [some ⟨[], "a"⟩, some ⟨[], "b"⟩] ∧
      quotedPaths (.object [("a", .string "b"), ("b", .bool true)]) = some [some ⟨[], "a"⟩] ∧
      quotation.written {} = [⟨[], "a"⟩] := by
  decide +kernel

end DataBinding
