import DataBinding.Proofs.Mirroring.Mounting
import DataBinding.ViewModel

/-!
# A mounted document mirrors its model

A tree whose directives are those of values, besides markers in its texts, is mounted on data in which all
paths that it binds lead to leaves. Then its values and texts follow the model, whatever happens to the leaves
of the data: they may be written through the view model, and texts may be typed over the values of nodes, any
number of times and in any order. `ViewModel.mirrors_throughout` says that every step comes back, that every
bound node then shows what its directive asks for in the model as it is, and that what was typed last is in the
model.
-/

set_option autoImplicit false

namespace DataBinding

open Markup (Tree)

variable {ρ σ : Type}

/-! ## The plan of a document -/

section Document

variable {view : View ρ} {config : Config} {data : Json}

/-- What is known of the directives of a node whose tree binds only leaves. -/
structure View.BindsLeaves (view : View ρ) (config : Config) (data : Json) (node : NodeId) : Prop where
  single : view.directives config node = [] ∨ ∃ directive, view.directives config node = [directive]
  leaves : ∀ directive ∈ view.directives config node, config.bindsLeaves data directive = true
  isText : ∀ expression, (.text, expression) ∈ view.directives config node → (view.node node).kind = .text

mutual

/-- If a tree binds only leaves, so does every node under which it stands. -/
theorem bindsLeaves_of_stands : ∀ {tree : Tree} {id : NodeId} {ids : List NodeId},
    view.Stands tree id ids → tree.bindsLeaves config data = true →
      ∀ node ∈ ids, view.BindsLeaves config data node
  | .text content, id, _, hstands, hbinds => by
    obtain ⟨rfl, -, hkind, rfl⟩ := hstands
    intro node hnode
    obtain rfl := List.mem_singleton.1 hnode
    have hdirectives : view.directives config node = config.textDirectives (view.node node).text := by
      unfold View.directives
      rw [hkind]
    refine ⟨?_, ?_, fun _ _ => hkind⟩
    · rw [hdirectives]
      unfold Config.textDirectives
      split
      · exact .inr ⟨_, rfl⟩
      · exact .inl rfl
    · rw [hdirectives]
      exact List.all_eq_true.1 hbinds
  | .comment body, id, _, hstands, _ => by
    obtain ⟨rfl, -, hkind, -⟩ := hstands
    intro node hnode
    obtain rfl := List.mem_singleton.1 hnode
    have hdirectives : view.directives config node = [] := by
      unfold View.directives
      rw [hkind]
    refine ⟨.inl hdirectives, ?_, ?_⟩ <;> simp [hdirectives]
  | .element tag attributes children, id, _, hstands, hbinds => by
    obtain ⟨below, rfl, -, -, hkind, rfl, hchildren⟩ := hstands
    unfold Tree.bindsLeaves at hbinds
    simp only [Bool.and_eq_true, Bool.or_eq_true, beq_iff_eq, List.all_eq_true] at hbinds
    obtain ⟨⟨hnames, hown⟩, hinside⟩ := hbinds
    refine List.forall_mem_cons.2 ⟨?_, bindsLeaves_of_standing hchildren hinside⟩
    have hdirectives : view.directives config id = config.directives (view.node id).attributes := by
      unfold View.directives
      rw [hkind]
    rcases hnames with hnone | hone
    · rw [Config.directives_eq_nil (List.filterMap_eq_nil_iff.1 hnone)] at hdirectives
      refine ⟨.inl hdirectives, ?_, ?_⟩ <;> simp [hdirectives]
    · obtain ⟨before, entry, after, -, -, -, -, hsingle⟩ := Config.directives_eq_singleton hone
      rw [← hdirectives] at hown hsingle
      refine ⟨.inr ⟨_, hsingle⟩, hown, fun expression hmem => ?_⟩
      rw [hsingle] at hmem
      cases List.mem_singleton.1 hmem

/-- The same for trees that follow each other. -/
theorem bindsLeaves_of_standing : ∀ {trees : List Tree} {roots ids : List NodeId},
    view.AllStand trees roots ids → Tree.allBindLeaves config data trees = true →
      ∀ node ∈ ids, view.BindsLeaves config data node
  | [], _, _, hstand, _ => by
    obtain ⟨-, rfl⟩ := hstand
    intro node hnode
    cases hnode
  | tree :: rest, _, _, hstand, hbinds => by
    obtain ⟨root, others, here, there, rfl, rfl, -, hhere, hthere⟩ := hstand
    unfold Tree.allBindLeaves at hbinds
    obtain ⟨hfirst, hrest⟩ := (Bool.and_eq_true _ _).mp hbinds
    exact List.forall_mem_append.2 ⟨bindsLeaves_of_stands hhere hfirst, bindsLeaves_of_standing hthere hrest⟩

end

/-- A content of a node comes from its only directive. -/
theorem View.BindsLeaves.content?_eq_some_iff {node : NodeId} {content : Content}
    (h : view.BindsLeaves config data node) : view.content? config node = some content ↔
      ∃ directive ∈ view.directives config node, config.content? directive = some content := by
  unfold View.content?
  obtain hnone | ⟨directive, hone⟩ := h.single
  · simp [hnone]
  · simp [hone]

/-- The plan of a tree that stands in a view and binds only leaves of some data. -/
def Plan.ofDocument {tree : Tree} {top : NodeId} {ids : List NodeId} (hstands : view.Stands tree top ids)
    (hbinds : tree.bindsLeaves config data = true) : Plan ρ where
  root := (Model.observe data {}).1
  model := (Model.observe data {}).2
  view := view
  nodes := ids
  content? node := if node ∈ ids then view.content? config node else none
  inside hnode := hstands.lt_size _ hnode
  listed {node content} hcontent := by
    split at hcontent
    · assumption
    · cases hcontent
  isText {node template} hcontent := by
    split at hcontent
    · next hnode =>
      have hnode := bindsLeaves_of_stands hstands hbinds node hnode
      obtain ⟨⟨kind, expression⟩, hdirective, hread⟩ := hnode.content?_eq_some_iff.1 hcontent
      cases kind with
      | text => exact hnode.isText expression hdirective
      | model =>
        unfold Config.content? at hread
        obtain ⟨path, -, heq⟩ := Option.map_eq_some_iff.1 hread
        cases heq
    · cases hcontent
  leaves {node content} hcontent path hpath := by
    split at hcontent
    · next hnode =>
      have hnode := bindsLeaves_of_stands hstands hbinds node hnode
      obtain ⟨directive, hdirective, hread⟩ := hnode.content?_eq_some_iff.1 hcontent
      obtain ⟨content', hread', hleaves⟩ := Config.content?_of_bindsLeaves (hnode.leaves directive hdirective)
      obtain rfl := Option.some.inj (hread.symm.trans hread')
      exact Model.observe_leafAt (hleaves path hpath)
    · cases hcontent

/-- The first pass over the document leaves nothing owed. -/
theorem compile_document {tree : Tree} {top : NodeId} {ids : List NodeId}
    (hstands : view.Stands tree top ids) (hbinds : tree.bindsLeaves config data = true)
    (hsilent : ∀ node ∈ ids, (view.node node).listeners = []) (hpolicy : config.baseline = .refresh)
    {depth : Nat} (hlevels : tree.levels ≤ depth) (respond : Respond ρ σ) (host : σ) :
    ∃ watchers s', Run.compile respond depth (Model.observe data {}).1 config {} top
        { model := (Model.observe data {}).2, view, host } = some (.ok watchers, s') ∧
      (Plan.ofDocument hstands hbinds).Owing ids [] s' := by
  let plan := Plan.ofDocument hstands hbinds
  let s : Store ρ σ := { model := plan.model, view, host }
  let s₁ := (s.addBinder plan.root config).2
  let binder := (s.addBinder plan.root config).1
  have hnobody : ∀ id, s₁.subscriber? id = none := fun id => by
    simp [s₁, s, Store.subscriber?, Store.addBinder]
  have hwatchers : ∀ id, s₁.watcher? id = none := fun id => by simp [Store.watcher?, hnobody]
  have hwired : plan.Wired [] s₁ := by
    refine ⟨rfl, .refl plan.model, fun {id subscriber} hentry => ?_, fun {id w cell} hw => ?_,
      fun hmem => absurd hmem List.not_mem_nil, rfl, fun _ => rfl, fun hmem => absurd hmem List.not_mem_nil⟩
    · rw [hnobody] at hentry
      cases hentry
    · rw [hwatchers] at hw
      cases hw
  have hstart : plan.Mounting config binder [] s₁ := by
    refine ⟨⟨hwired, fun {id w} hw => ?_, fun hmem => absurd hmem List.not_mem_nil⟩,
      binds_addBinder s plan.root config, .refl [] view⟩
    rw [hwatchers] at hw
    cases hw
  have hids : ∀ node ∈ ids, plan.Awaits config node := fun node hnode => ⟨if_pos hnode, hsilent node hnode⟩
  have hpass : ∃ s', Run.compileNode respond {} binder config depth top s₁ = some (.ok (), s') ∧
      plan.Mounting config binder ids s' :=
    Plan.compileNode_mounts hstands hbinds hlevels hpolicy hids hstart
  obtain ⟨s', hrun, hmounted⟩ := hpass
  exact ⟨(s'.binder binder).watchers, s', Run.compile_of_pass hrun, hmounted.owing⟩

end Document

namespace ViewModel

/-! ## What happens to a mounted document -/

/-- What happens to a mounted document. -/
inductive Act where
  /-- The value at a path is written through the view model. -/
  | set (path : String) (value : Value)
  /-- A text is typed over the value of a node. -/
  | input (node : NodeId) (text : String)

/-- Whether an act writes a leaf where the data had a leaf, or types over a value of the document. -/
def Act.Fits (data : Json) (nodes : List NodeId) : Act → Prop
  | .set text value =>
    (∃ path, Path.parse text = .ok path ∧ data.isLeafAt path = true) ∧ value.object? = none
  | .input node _ => node ∈ nodes

/-- Carries out an act. -/
def act (vm : ViewModel) : Act → Script ρ σ ViewModel
  | .set path value => do
    let (_, vm) ← vm.set path value
    return vm
  | .input node text => do
    Script.perform (.input node text)
    return vm

/-- Carries out acts one after the other. -/
def play (vm : ViewModel) : List Act → Script ρ σ ViewModel
  | [] => pure vm
  | act :: rest => do
    let vm ← vm.act act
    play vm rest

section Acts

variable (host : Host ρ σ) (depth : Nat) (vm : ViewModel) {plan : Plan ρ} {s : Store ρ σ} {data : Json}

/-- A set that can be read is the write at its path. -/
theorem set_ends {s s' : Store ρ σ} {root value : Value} {text : String} {path : Path} {changed : Bool}
    (hdata : vm.data = .reactive root) (hparse : Path.parse text = .ok path)
    (hassign : Run.assign (Run.update (host.respond depth)) path root value s = some (.ok changed, s')) :
    (vm.set text value).Ends (Run.perform (host.respond depth) depth) s (.ok (changed, vm)) s' := by
  rw [set_reactive hdata hparse]
  exact Script.Ends.bind (Script.ends_perform hassign) (Script.ends_done _ s')

/-- An act comes back and leaves nothing owed; where a text was typed over a bound value, the model holds it. -/
theorem act_ends (h : plan.Owing plan.nodes [] s) (hdata : vm.data = .reactive plan.root)
    (hleaves : ∀ path, data.isLeafAt path = true → ∃ cell, plan.model.LeafAt plan.root path cell)
    {act : Act} (hfits : act.Fits data plan.nodes) :
    ∃ s', (vm.act act).Ends (Run.perform (host.respond depth) depth) s (.ok vm) s' ∧
      plan.Owing plan.nodes [] s' ∧ ∀ node text path, act = .input node text →
        plan.content? node = some (.value path) → s'.model.peek path plan.root = .ok (.string text) := by
  cases act with
  | set text value =>
    obtain ⟨⟨path, hparse, hleaf⟩, hvalue⟩ := hfits
    obtain ⟨cell, hleaf⟩ := hleaves path hleaf
    obtain ⟨changed, s', hassign, howing, -⟩ :=
      (h.ready cell value).assign (h.wired.shape.leafAt hleaf) hvalue
    exact ⟨s', Script.Ends.bind (set_ends host depth vm hdata hparse hassign) (Script.ends_done _ s'), howing,
      fun node text path heq => by cases heq⟩
  | input node text =>
    obtain ⟨s', hinput, howing, hheld⟩ := h.input hfits text
    refine ⟨s', Script.Ends.bind (Script.ends_perform hinput) (Script.ends_done _ s'), howing, ?_⟩
    intro node' text' path heq hcontent
    cases heq
    exact hheld path hcontent

/-- The same for acts one after the other. -/
theorem play_ends {acts : List Act} (h : plan.Owing plan.nodes [] s)
    (hdata : vm.data = .reactive plan.root)
    (hleaves : ∀ path, data.isLeafAt path = true → ∃ cell, plan.model.LeafAt plan.root path cell)
    (hfits : ∀ act ∈ acts, act.Fits data plan.nodes) :
    ∃ s', (vm.play acts).Ends (Run.perform (host.respond depth) depth) s (.ok vm) s' ∧
      plan.Owing plan.nodes [] s' ∧ ∀ node text path, acts.getLast? = some (.input node text) →
        plan.content? node = some (.value path) → s'.model.peek path plan.root = .ok (.string text) := by
  induction acts generalizing s with
  | nil => exact ⟨s, Script.ends_done _ s, h, fun node text path hlast => by cases hlast⟩
  | cons act rest ih =>
    obtain ⟨hact, hrest⟩ := List.forall_mem_cons.1 hfits
    obtain ⟨s₁, hends₁, h₁, hheld₁⟩ := act_ends host depth vm h hdata hleaves hact
    obtain ⟨s', hends, h', hheld⟩ := ih h₁ hrest
    refine ⟨s', Script.Ends.bind hends₁ hends, h', fun node text path hlast => ?_⟩
    cases rest with
    | nil =>
      obtain ⟨-, rfl⟩ := hends
      exact hheld₁ node text path (Option.some.inj hlast)
    | cons next others => exact hheld node text path (by rwa [List.getLast?_cons_cons] at hlast)

end Acts

end ViewModel

/-! ## The main statement -/

/-- A node shows what a directive asks for, in the model as it is. -/
def Store.Mirrors (s : Store ρ σ) (config : Config) (root : Value) (node : NodeId) :
    DirectiveKind × String → Prop
  | (.model, expression) => ∃ path value text, Path.parse expression = .ok path ∧
      s.model.peek path root = .ok value ∧ s.model.display? value = some text ∧
      (s.view.node node).value = String.ofList text
  | (.text, expression) => ∃ template,
      Template.parse config.delimiters config.trimPaths expression = .ok template ∧
      s.model.render? template root = some (.ok (s.view.node node).text)

/-- Something that is there has come without an error. -/
theorem eq_ok_of_toOption {ε α : Type} {outcome : Except ε α} {a : α} (h : outcome.toOption = some a) :
    outcome = .ok a := by
  cases outcome with
  | ok b => exact congrArg Except.ok (Option.some.inj h)
  | error e => cases h

/-- The value behind what a node shows of a path. -/
theorem Content.value_of_shown? {m : Model} {root : Value} {path : Path} {text : String}
    (h : (Content.value path).shown? m root = some text) :
    ∃ value shown, m.peek path root = .ok value ∧ m.display? value = some shown ∧
      text = String.ofList shown := by
  simp only [Content.shown?] at h
  split at h
  · next value hfound =>
    obtain ⟨shown, hdisplay, rfl⟩ := Option.map_eq_some_iff.1 h
    exact ⟨value, shown, hfound, hdisplay, rfl⟩
  · cases h

/-- A content that is current shows what its directive asks for. -/
theorem Store.mirrors_of_current {s : Store ρ σ} {config : Config} {plan : Plan ρ} {node : NodeId}
    {directive : DirectiveKind × String} {content : Content} (hread : config.content? directive = some content)
    (hcurrent : plan.Current s node content) : s.Mirrors config plan.root node directive := by
  obtain ⟨kind, expression⟩ := directive
  cases kind with
  | model =>
    simp only [Config.content?] at hread
    obtain ⟨path, hparse, rfl⟩ := Option.map_eq_some_iff.1 hread
    obtain ⟨value, text, hfound, hdisplay, hshown⟩ := Content.value_of_shown? hcurrent
    exact ⟨path, value, text, eq_ok_of_toOption hparse, hfound, hdisplay, hshown⟩
  | text =>
    simp only [Config.content?] at hread
    obtain ⟨template, hparse, rfl⟩ := Option.map_eq_some_iff.1 hread
    exact ⟨template, eq_ok_of_toOption hparse, Content.render?_of_shown? hcurrent⟩

namespace ViewModel

/-- A view model with a root is built by observing the data and compiling the tree. -/
theorem build_run {data : Json} {top : NodeId} {config : Config} {directives : Directives ρ}
    {host : Host ρ σ} {depth : Nat} {s s' : Store ρ σ} {watchers : List SubscriberId}
    (hvalid : config.validate = .ok ())
    (hcompile : Run.compile (host.respond depth) depth (Model.observe data s.model).1 config directives top
      { s with model := (Model.observe data s.model).2 } = some (.ok watchers, s')) :
    (ViewModel.build data (.node top) config none directives).run host depth s = some (.ok
      { data := .reactive (Model.observe data s.model).1, root := some top, config, watchers }, s') := by
  have hobserve : Run.perform (host.respond depth) depth (.observe data) s =
      some (.ok (Model.observe data s.model).1, { s with model := (Model.observe data s.model).2 }) := rfl
  rw [build_node hvalid]
  exact Script.Ends.runWith (Script.Ends.bind (Script.ends_perform hobserve)
    (Script.Ends.bind (Script.ends_perform hcompile) (Script.ends_done _ s')))

/-- Mount a tree whose directives are those of values, at most one on an element, and the markers in its texts,
on data in which all paths that it binds lead to leaves. Mounting comes back. After any number of writes of
leaves where the data had leaves, and of texts typed over nodes of the document, all of which come back,
every node shows what its directives ask for in the model as it is, and if a text was typed last over a bound
value, the model holds that text. -/
theorem mirrors_throughout {tree : Tree} {view : View ρ} {top : NodeId} {nodes : List NodeId}
    (hstands : view.Stands tree top nodes) (hsilent : ∀ node ∈ nodes, (view.node node).listeners = [])
    {config : Config} (hvalid : config.validate = .ok ()) (hpolicy : config.baseline = .refresh)
    {data : Json} (hbinds : tree.bindsLeaves config data = true) (host : Host ρ σ) (state : σ) {depth : Nat}
    (hlevels : tree.levels ≤ depth) :
    ∃ vm mounted root,
      (ViewModel.build data (.node top) config none {}).run host depth { view, host := state } =
        some (.ok vm, mounted) ∧ vm.data = .reactive root ∧
      ∀ acts : List Act, (∀ act ∈ acts, act.Fits data nodes) → ∃ s,
        (vm.play acts).run host depth mounted = some (.ok vm, s) ∧
        (∀ node ∈ nodes, ∀ directive ∈ view.directives config node, s.Mirrors config root node directive) ∧
        ∀ node text expression path, acts.getLast? = some (.input node text) →
          (.model, expression) ∈ view.directives config node → Path.parse expression = .ok path →
          s.model.peek path root = .ok (.string text) := by
  let plan := Plan.ofDocument hstands hbinds
  obtain ⟨watchers, mounted, hcompile, howing⟩ :=
    compile_document hstands hbinds hsilent hpolicy hlevels (host.respond depth) state
  have hbuild := build_run (s := { view, host := state }) hvalid hcompile
  let vm : ViewModel := { data := .reactive plan.root, root := some top, config, watchers }
  refine ⟨vm, mounted, plan.root, hbuild, rfl, fun acts hfits => ?_⟩
  obtain ⟨s, hends, hrest, hheld⟩ := play_ends host depth vm howing rfl
    (fun path hleaf => Model.observe_leafAt hleaf) hfits
  have hcontent : ∀ node ∈ nodes, ∀ directive ∈ view.directives config node,
      ∃ content, config.content? directive = some content ∧ plan.content? node = some content := by
    intro node hnode directive hdirective
    have hnode' := bindsLeaves_of_stands hstands hbinds node hnode
    obtain ⟨content, hread, -⟩ := Config.content?_of_bindsLeaves (hnode'.leaves directive hdirective)
    have hshown : view.content? config node = some content :=
      hnode'.content?_eq_some_iff.2 ⟨directive, hdirective, hread⟩
    exact ⟨content, hread, (if_pos hnode).trans hshown⟩
  refine ⟨s, hends.runWith, ?_, ?_⟩
  · intro node hnode directive hdirective
    obtain ⟨content, hread, hplanned⟩ := hcontent node hnode directive hdirective
    exact Store.mirrors_of_current hread (hrest.current_nothing hnode hplanned)
  · intro node text expression path hlast hdirective hparse
    have hnode : node ∈ nodes := hfits _ (List.mem_of_getLast? hlast)
    obtain ⟨content, hread, hplanned⟩ := hcontent node hnode _ hdirective
    simp only [Config.content?, hparse, Except.toOption, Option.map_some] at hread
    obtain rfl := Option.some.inj hread
    exact hheld node text path hlast hplanned

/-- The form `<div><input v-model="user.name"><p>{{user.name}} ({{visits}})</p></div>`. -/
def visitorForm : Tree :=
  .element "div" [] [.element "input" [("v-model", "user.name")] [],
    .element "p" [] [.text "\x7b\x7buser.name\x7d\x7d (\x7b\x7bvisits\x7d\x7d)"]]

/-- What the form is mounted on. -/
def visitor : Json := .object [("user", .object [("name", .string "Ada")]), ("visits", .bool true)]

/-- A name is typed, the count is written through the view model, and another name is typed. -/
def visiting : List Act := [.input ⟨0⟩ "Bo", .set "visits" .null, .input ⟨0⟩ "Cy"]

/-- The form stands where it is planted. -/
theorem visitorForm_stands :
    (View.plant visitorForm ({} : View Unit)).2.Stands visitorForm ⟨3⟩ [⟨3⟩, ⟨0⟩, ⟨2⟩, ⟨1⟩] := by
  refine ⟨[⟨0⟩, ⟨2⟩, ⟨1⟩], rfl, by decide, by decide, rfl, rfl,
    ⟨0⟩, [⟨2⟩], [⟨0⟩], [⟨2⟩, ⟨1⟩], rfl, rfl, by decide, ?_, ?_⟩
  · exact ⟨[], rfl, by decide, by decide, rfl, rfl, rfl, rfl⟩
  · refine ⟨⟨2⟩, [], [⟨2⟩, ⟨1⟩], [], rfl, rfl, by decide, ?_, rfl, rfl⟩
    refine ⟨[⟨1⟩], rfl, by decide, by decide, rfl, rfl, ⟨1⟩, [], [⟨1⟩], [], rfl, rfl, by decide, ?_, rfl, rfl⟩
    exact ⟨rfl, by decide, rfl, rfl⟩

/-- The form shows the name and the count after the acts, and the data has the name typed last. -/
theorem mirrors_throughout_visiting : ∃ vm mounted root,
    (ViewModel.build visitor (.node ⟨3⟩) {} none {}).run ⟨fun _ _ => .done (.ok ())⟩ 3
      { view := (View.plant visitorForm ({} : View Unit)).2, host := () } = some (.ok vm, mounted) ∧
    vm.data = .reactive root ∧ ∃ s,
      (vm.play visiting).run ⟨fun _ _ => .done (.ok ())⟩ 3 mounted = some (.ok vm, s) ∧
      s.Mirrors {} root ⟨0⟩ (.model, "user.name") ∧
      s.Mirrors {} root ⟨1⟩ (.text, "\x7b\x7buser.name\x7d\x7d (\x7b\x7bvisits\x7d\x7d)") ∧
      s.model.peek ⟨["user"], "name"⟩ root = .ok (.string "Cy") := by
  have hvalid : ({} : Config).validate = .ok () := by decide
  have hbinds : visitorForm.bindsLeaves {} visitor = true := by decide +kernel
  have hlevels : visitorForm.levels ≤ 3 := by decide
  obtain ⟨vm, mounted, root, hbuild, hdata, hplay⟩ := mirrors_throughout visitorForm_stands (by decide)
    hvalid rfl hbinds ⟨fun _ _ => .done (.ok ())⟩ () hlevels
  have hpath : Path.parse "visits" = .ok ⟨[], "visits"⟩ := by decide +kernel
  have hfits : ∀ act ∈ visiting, act.Fits visitor [⟨3⟩, ⟨0⟩, ⟨2⟩, ⟨1⟩] := by
    intro act hact
    simp only [visiting, List.mem_cons, List.not_mem_nil, or_false] at hact
    rcases hact with rfl | rfl | rfl
    · exact (by decide : (⟨0⟩ : NodeId) ∈ [(⟨3⟩ : NodeId), ⟨0⟩, ⟨2⟩, ⟨1⟩])
    · exact ⟨⟨_, hpath, by decide⟩, rfl⟩
    · exact (by decide : (⟨0⟩ : NodeId) ∈ [(⟨3⟩ : NodeId), ⟨0⟩, ⟨2⟩, ⟨1⟩])
  obtain ⟨s, hrun, hmirrors, htyped⟩ := hplay visiting hfits
  refine ⟨vm, mounted, root, hbuild, hdata, s, hrun, ?_, ?_, ?_⟩
  · exact hmirrors ⟨0⟩ (by decide) _ (by decide +kernel)
  · exact hmirrors ⟨1⟩ (by decide) _ (by decide +kernel)
  · exact htyped ⟨0⟩ "Cy" "user.name" _ rfl (by decide +kernel) (by decide +kernel)

end ViewModel

end DataBinding
