import Mathlib.Algebra.BigOperators.Group.List.Basic
import DataBinding.Proofs.Mirroring.Enrolling
import DataBinding.Proofs.ViewModel.Mirroring

/-!
# How often a write is shown

A tree whose directives are those of values, any number on an element, besides markers in its texts, is mounted on
data in which all paths that it binds lead to leaves. After any number of writes of leaves through the view model,
one more write of a leaf puts the text of a node anew as often as the text has markers with the path of the leaf, and
its live value as often as the node has bindings of values to that path: `ViewModel.rerenders_exactly`. No other node
is touched, and none at all if the leaf is what is written.
-/

set_option autoImplicit false

namespace DataBinding

open Markup (Tree)

variable {ρ σ : Type}

/-! ## Counting sights -/

/-- How many bindings to a path the directives of some kind make on a node, repeated ones included. -/
def View.bindings (v : View ρ) (config : Config) (kind : DirectiveKind) (node : NodeId) (path : Path) : Nat :=
  (((v.directives config node).filter (·.1 = kind)).flatMap config.paths).count path

/-- Whether a write at a path puts anew, for a sight, what directives of some kind show on a node. -/
def Sight.rewrites (kind : DirectiveKind) (node : NodeId) (path : Path) (sight : Sight) : Bool :=
  sight.writes kind node && decide (sight.path = path)

section Counting

variable {config : Config} {kind : DirectiveKind} {node other : NodeId} {path : Path}
  {directive : DirectiveKind × String}

/-- The paths of a directive are those of what it shows, if it can be read. -/
theorem Config.paths_eq (config : Config) (directive : DirectiveKind × String) :
    config.paths directive = ((config.content? directive).map Content.paths).getD [] := by
  obtain ⟨kind, expression⟩ := directive
  cases kind with
  | model =>
    unfold Config.paths Config.content?
    cases Path.parse expression <;> rfl
  | text =>
    unfold Config.paths Config.content?
    cases Template.parse config.delimiters config.trimPaths expression <;> rfl

/-- What a directive shows belongs to its kind. -/
theorem Config.kind_of_content? {content : Content} (h : config.content? directive = some content) :
    content.kind = directive.1 := by
  unfold Config.content? at h
  split at h
  · next hkind =>
    obtain ⟨path, -, rfl⟩ := Option.map_eq_some_iff.1 h
    exact hkind.symm
  · next hkind =>
    obtain ⟨template, -, rfl⟩ := Option.map_eq_some_iff.1 h
    exact hkind.symm

/-- A sight of a node is on that node. -/
theorem View.node_of_mem_sights {v : View ρ} {sight : Sight} (h : sight ∈ v.sights config node) :
    sight.node = node := by
  obtain ⟨directive, -, hsight⟩ := List.mem_flatMap.1 h
  unfold Config.sights at hsight
  split at hsight
  · obtain ⟨path, -, rfl⟩ := List.mem_map.1 hsight
    rfl
  · cases hsight

/-- Of the sights of a directive, those of a path are put anew. -/
theorem Config.countP_sights (config : Config) (directive : DirectiveKind × String) :
    (config.sights node directive).countP (·.rewrites kind node path) =
      if directive.1 = kind then (config.paths directive).count path else 0 := by
  rw [Config.paths_eq]
  unfold Config.sights
  cases hcontent : config.content? directive with
  | none => simp
  | some content =>
    have hkind := Config.kind_of_content? hcontent
    simp only [Content.sights, List.countP_map, Option.map_some, Option.getD_some]
    split
    · next hsame =>
      refine List.countP_congr fun found _ => ?_
      simp [Sight.rewrites, Sight.writes, hkind.trans hsame]
    · next hother =>
      refine List.countP_eq_zero.2 fun found _ => ?_
      simp [Sight.rewrites, Sight.writes, hkind, hother]

/-- Of the sights of a node, those of a path are put anew. -/
theorem View.countP_sights (v : View ρ) (config : Config) :
    (v.sights config node).countP (·.rewrites kind node path) = v.bindings config kind node path := by
  unfold View.sights View.bindings
  induction v.directives config node with
  | nil => rfl
  | cons directive rest ih =>
    rw [List.flatMap_cons, List.countP_append, ih, Config.countP_sights, List.filter_cons]
    by_cases hkind : directive.1 = kind
    · rw [if_pos hkind, if_pos (decide_eq_true hkind), List.flatMap_cons, List.count_append]
    · rw [if_neg hkind, if_neg fun h => hkind (of_decide_eq_true h), Nat.zero_add]

/-- Of the sights of a document, those of a path on a node are put anew, whatever the other nodes show. -/
theorem View.countP_allSights (v : View ρ) (config : Config) {nodes : List NodeId} (hnodup : nodes.Nodup)
    (hnode : node ∈ nodes) :
    ((nodes.flatMap (v.sights config)).filter fun sight => sight.path = path).countP (·.writes kind node) =
      v.bindings config kind node path := by
  have hothers : ∀ other ≠ node, other ∈ nodes →
      (v.sights config other).countP (·.rewrites kind node path) = 0 := by
    refine fun other hne _ => List.countP_eq_zero.2 fun sight hsight => ?_
    simp [Sight.rewrites, Sight.writes, View.node_of_mem_sights hsight, hne]
  calc ((nodes.flatMap (v.sights config)).filter fun sight => sight.path = path).countP (·.writes kind node)
    _ = (nodes.flatMap (v.sights config)).countP (·.rewrites kind node path) := List.countP_filter
    _ = (nodes.map fun other => (v.sights config other).countP (·.rewrites kind node path)).sum :=
        List.countP_flatMap
    _ = nodes.count node • (v.sights config node).countP (·.rewrites kind node path) :=
        List.sum_map_eq_nsmul_single node _ hothers
    _ = v.bindings config kind node path := by
        rw [List.count_eq_one_of_mem hnodup hnode, one_nsmul, View.countP_sights]

/-- A node that has no bindings to a path has no sights of it. -/
theorem View.node_ne_of_bindings {v : View ρ} {nodes : List NodeId}
    (hnone : node ∈ nodes → ∀ kind, v.bindings config kind node path = 0) :
    ∀ sight ∈ (nodes.flatMap (v.sights config)).filter fun sight => sight.path = path, sight.node ≠ node := by
  rintro sight hsight rfl
  obtain ⟨hsight, hpath⟩ := List.mem_filter.1 hsight
  obtain ⟨other, hother, hsight⟩ := List.mem_flatMap.1 hsight
  obtain rfl := View.node_of_mem_sights hsight
  have hcount : (v.sights config sight.node).countP (·.rewrites sight.content.kind sight.node path) = 0 :=
    (View.countP_sights v config).trans (hnone hother _)
  have hrewrites : sight.rewrites sight.content.kind sight.node path = true := by
    simpa [Sight.rewrites, Sight.writes] using hpath
  exact List.countP_eq_zero.1 hcount sight hsight hrewrites

end Counting

/-! ## Mounting, and writing any number of times -/

section Document

variable {tree : Tree} {view : View ρ} {config : Config} {data : Json} {top : NodeId} {nodes : List NodeId}

/-- Compiling a document that shows leaves comes back, and its subscribers are the watchers of its sights. -/
theorem compile_enrolls (hstands : view.Stands tree top nodes) (hshows : tree.showsLeaves config data = true)
    (hpolicy : config.baseline = .refresh) {depth : Nat} (hlevels : tree.levels ≤ depth)
    (respond : Respond ρ σ) (host : σ) :
    ∃ watchers s', Run.compile respond depth (Model.observe data {}).1 config {} top
        { model := (Model.observe data {}).2, view, host } = some (.ok watchers, s') ∧
      Roster (.observed data) (nodes.flatMap (view.sights config)) [] s' := by
  let s : Store ρ σ := { model := (Model.observe data {}).2, view, host }
  let s₁ := (s.addBinder (Model.observe data {}).1 config).2
  let binder := (s.addBinder (Model.observe data {}).1 config).1
  have hroster : Roster (.observed data) [] [] s₁ := by
    refine ⟨rfl, .refl _, rfl, fun {i sight} hsight => ?_, fun {path cell} _ => ?_, nofun⟩
    · cases hsight
    · exact Model.subscribers_observe data {} cell
  have hstart : Enrolling (.observed data) view config binder [] [] s₁ :=
    ⟨hroster, binds_addBinder s _ config, .refl [] view⟩
  have hpass : ∃ s', Run.compileNode respond {} binder config depth top s₁ = some (.ok (), s') ∧
      Enrolling (.observed data) view config binder nodes (nodes.flatMap (view.sights config)) s' :=
    hstart.compileNode hpolicy hstands hshows hlevels
  obtain ⟨s', hrun, hdone⟩ := hpass
  exact ⟨(s'.binder binder).watchers, s', Run.compile_of_pass hrun, hdone.roster⟩

end Document

namespace ViewModel

section Sets

variable (host : Host ρ σ) (depth : Nat) (vm : ViewModel) {data : Json} {sights : List Sight} {s : Store ρ σ}

/-- Sets of leaves come back, and the subscribers are still the watchers of the same sights. -/
theorem sets_end {sets : List (String × Value)} {nodes : List NodeId}
    (h : Roster (.observed data) sights [] s) (hdata : vm.data = .reactive (Model.observe data {}).1)
    (hfits : ∀ set ∈ sets, (Act.set set.1 set.2).Fits data nodes) :
    ∃ s', (vm.play (sets.map fun set => .set set.1 set.2)).Ends (Run.perform (host.respond depth) depth) s
        (.ok vm) s' ∧ Roster (.observed data) sights [] s' := by
  induction sets generalizing s with
  | nil => exact ⟨s, Script.ends_done _ s, h⟩
  | cons set rest ih =>
    obtain ⟨⟨⟨path, hparse, hleaf⟩, hvalue⟩, hrest⟩ := List.forall_mem_cons.1 hfits
    obtain ⟨cell, hleaf⟩ := Model.observe_leafAt hleaf
    obtain ⟨changed, s₁, hassign, h₁, -⟩ := h.assign (h.shape.leafAt hleaf) hvalue
    obtain ⟨s', hends, h'⟩ := ih h₁ hrest
    have hset := set_ends host depth vm hdata hparse hassign
    exact ⟨s', Script.Ends.bind (Script.Ends.bind hset (Script.ends_done _ s₁)) hends, h'⟩

end Sets

/-- Mount a tree whose directives are those of values, and the markers in its texts, on data in which all paths that
it binds lead to leaves. Mounting comes back. After any number of writes of leaves where the data had leaves, one more
such write comes back, and says whether the leaf was another value. If it was not, the view stays as it is. If it
was, the writes of each text of the document have become more by the number of its markers with this path, and the
writes of each live value by the number of bindings of values to this path; nodes without any of these, inside the
document and outside, are as they were. -/
theorem rerenders_exactly {tree : Tree} {view : View ρ} {top : NodeId} {nodes : List NodeId}
    (hstands : view.Stands tree top nodes) {config : Config} (hvalid : config.validate = .ok ())
    (hpolicy : config.baseline = .refresh) {data : Json} (hshows : tree.showsLeaves config data = true)
    (host : Host ρ σ) (state : σ) {depth : Nat} (hlevels : tree.levels ≤ depth) :
    ∃ vm mounted root,
      (ViewModel.build data (.node top) config none {}).run host depth { view, host := state } =
        some (.ok vm, mounted) ∧ vm.data = .reactive root ∧
      ∀ sets : List (String × Value), (∀ set ∈ sets, (Act.set set.1 set.2).Fits data nodes) → ∃ s,
        (vm.play (sets.map fun set => .set set.1 set.2)).run host depth mounted = some (.ok vm, s) ∧
        ∀ text path value, Path.parse text = .ok path → data.isLeafAt path = true → value.object? = none →
          ∃ current changed s', s.model.peek path root = .ok current ∧ changed = !current.strictEq value ∧
            (vm.set text value).run host depth s = some (.ok (changed, vm), s') ∧
            (changed = false → s'.view = s.view) ∧
            (changed = true → s'.view.nodes.size = s.view.nodes.size ∧
              (∀ node ∈ nodes,
                (s'.view.node node).textWrites =
                  (s.view.node node).textWrites + view.bindings config .text node path ∧
                (s'.view.node node).valueWrites =
                  (s.view.node node).valueWrites + view.bindings config .model node path) ∧
              ∀ node, (node ∈ nodes → ∀ kind, view.bindings config kind node path = 0) →
                s'.view.node node = s.view.node node) := by
  obtain ⟨watchers, mounted, hcompile, hroster⟩ :=
    compile_enrolls hstands hshows hpolicy hlevels (host.respond depth) state
  have hbuild := build_run (s := { view, host := state }) hvalid hcompile
  let vm : ViewModel := { data := .reactive (Model.observe data {}).1, root := some top, config, watchers }
  refine ⟨vm, mounted, (Model.observe data {}).1, hbuild, rfl, fun sets hfits => ?_⟩
  obtain ⟨s, hends, hrest⟩ := sets_end host depth vm hroster rfl hfits
  refine ⟨s, hends.runWith, fun text path value hparse hleaf hvalue => ?_⟩
  obtain ⟨cell, hleaf⟩ := Model.observe_leafAt hleaf
  have hleaf : s.model.LeafAt (Model.observe data {}).1 path cell := hrest.shape.leafAt hleaf
  obtain ⟨changed, s', hassign, -, hchanged, hsame, hrewritten⟩ := hrest.assign hleaf hvalue
  have hset := set_ends host depth vm rfl hparse hassign
  refine ⟨_, changed, s', hleaf.peek, hchanged, hset.runWith, hsame, fun htrue => ?_⟩
  have hrewritten := hrewritten htrue
  refine ⟨hrewritten.size, fun node hnode => ⟨?_, ?_⟩, fun node hnone => ?_⟩
  · rw [hrewritten.textWrites, View.countP_allSights view config hstands.nodup hnode]
  · rw [hrewritten.valueWrites, View.countP_allSights view config hstands.nodup hnode]
  · exact hrewritten.same node (View.node_ne_of_bindings hnone)

/-- The form `<form><input v-model="a" v-model-lazy="a">{{a}} {{b}} {{ a }}</form>`. -/
def echoForm : Tree :=
  .element "form" [] [.element "input" [("v-model", "a"), ("v-model-lazy", "a")] [],
    .text "{{a}} {{b}} {{ a }}"]

/-- What the form is mounted on. -/
def echoed : Json := .object [("a", .string "x"), ("b", .bool true)]

/-- Whether a second leaf of the form takes another value, once a first one has been written. -/
def echoChanges : Option Bool := do
  let host : Host Unit Unit := ⟨fun _ _ => .done (.ok ())⟩
  let (built, mounted) ← (ViewModel.build echoed (.node ⟨2⟩) {} none {}).run host 2
    { view := (View.plant echoForm {}).2, host := () }
  let vm ← built.toOption
  let (_, s) ← (vm.play [.set "b" .null]).run host 2 mounted
  let (outcome, _) ← (vm.set "a" (.string "y")).run host 2 s
  let (changed, _) ← outcome.toOption
  return changed

/-- The form stands where it is planted. -/
theorem echoForm_stands :
    (View.plant echoForm ({} : View Unit)).2.Stands echoForm ⟨2⟩ [⟨2⟩, ⟨0⟩, ⟨1⟩] := by
  refine ⟨[⟨0⟩, ⟨1⟩], rfl, by decide, by decide, rfl, rfl,
    ⟨0⟩, [⟨1⟩], [⟨0⟩], [⟨1⟩], rfl, rfl, by decide, ?_, ?_⟩
  · exact ⟨[], rfl, by decide, by decide, rfl, rfl, rfl, rfl⟩
  · exact ⟨⟨1⟩, [], [⟨1⟩], [], rfl, rfl, by decide, ⟨rfl, by decide, rfl, rfl⟩, rfl, rfl⟩

/-- The form binds one path twice in a value and twice in a text, so a write of it puts each of them anew twice. -/
theorem rerenders_exactly_echoed : ∃ vm mounted s s',
    (ViewModel.build echoed (.node ⟨2⟩) {} none {}).run ⟨fun _ _ => .done (.ok ())⟩ 2
      { view := (View.plant echoForm ({} : View Unit)).2, host := () } = some (.ok vm, mounted) ∧
    (vm.play [.set "b" .null]).run ⟨fun _ _ => .done (.ok ())⟩ 2 mounted = some (.ok vm, s) ∧
    (vm.set "a" (.string "y")).run ⟨fun _ _ => .done (.ok ())⟩ 2 s = some (.ok (true, vm), s') ∧
    (s'.view.node ⟨1⟩).textWrites = (s.view.node ⟨1⟩).textWrites + 2 ∧
    (s'.view.node ⟨0⟩).valueWrites = (s.view.node ⟨0⟩).valueWrites + 2 ∧
    s'.view.node ⟨2⟩ = s.view.node ⟨2⟩ := by
  have hvalid : ({} : Config).validate = .ok () := by decide
  have hshows : echoForm.showsLeaves {} echoed = true := by decide +kernel
  have hlevels : echoForm.levels ≤ 2 := by decide
  obtain ⟨vm, mounted, root, hbuild, -, hsets⟩ := rerenders_exactly echoForm_stands hvalid rfl hshows
    ⟨fun _ _ => .done (.ok ())⟩ () hlevels
  have hb : Path.parse "b" = .ok ⟨[], "b"⟩ := by decide +kernel
  have ha : Path.parse "a" = .ok ⟨[], "a"⟩ := by decide +kernel
  obtain ⟨s, hplay, hset⟩ := hsets [("b", .null)] fun set hset => by
    obtain rfl := List.mem_singleton.1 hset
    exact ⟨⟨_, hb, by decide⟩, rfl⟩
  obtain ⟨current, changed, s', -, -, hrun, -, hchanged⟩ := hset "a" _ (.string "y") ha (by decide) rfl
  have htrue : changed = true := by
    have hchanges : echoChanges = some true := by decide +kernel
    unfold echoChanges at hchanges
    simp only [hbuild, Option.bind_eq_bind, Option.bind_some, Except.toOption] at hchanges
    rw [List.map_singleton] at hplay
    simp only [hplay, Option.bind_some, hrun] at hchanges
    exact Option.some.inj hchanges
  subst htrue
  obtain ⟨-, hcounts, hsame⟩ := hchanged rfl
  have htexts : (View.plant echoForm ({} : View Unit)).2.bindings {} .text ⟨1⟩ ⟨[], "a"⟩ = 2 := by decide +kernel
  have hvalues : (View.plant echoForm ({} : View Unit)).2.bindings {} .model ⟨0⟩ ⟨[], "a"⟩ = 2 := by decide +kernel
  refine ⟨vm, mounted, s, s', hbuild, hplay, hrun, ?_, ?_, hsame ⟨2⟩ fun _ kind => ?_⟩
  · exact htexts ▸ (hcounts ⟨1⟩ (by decide)).1
  · exact hvalues ▸ (hcounts ⟨0⟩ (by decide)).2
  · cases kind <;> decide +kernel

end ViewModel

end DataBinding
