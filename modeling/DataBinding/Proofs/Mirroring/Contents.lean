import DataBinding.Proofs.Mirroring.Leaves

/-!
# What nodes show of a model

A built-in directive makes a node show something: its live value is the value at a path, or its text is a
template. `Content` is what a node is to show. A content whose paths all lead to leaves comes to a text, which
depends on these leaves only, and the reaction of a watcher that shows the content puts this text into its
place.
-/

set_option autoImplicit false

namespace DataBinding

variable {ρ σ : Type}

/-- What a node shows of the model. -/
inductive Content where
  /-- The live value of the node is the value at a path. -/
  | value (path : Path)
  /-- The text of the node is a template. -/
  | text (template : Template)

namespace Content

/-- The paths whose values a content shows. -/
def paths : Content → List Path
  | .value path => [path]
  | .text template => template.paths

/-- The text that a content comes to in a model; nothing if a path does not resolve, or a value has no
text. -/
def shown? (m : Model) (root : Value) : Content → Option String
  | .value path =>
    match m.peek path root with
    | .ok found => (m.display? found).map String.ofList
    | .error _ => none
  | .text template =>
    match m.render? template root with
    | some (.ok rendered) => some rendered
    | _ => none

/-- What a node shows in the place where a content belongs. -/
def read (node : Node ρ) : Content → String
  | .value _ => node.value
  | .text _ => node.text

/-- Puts a text where a content belongs. -/
def put (text : String) : Content → Node ρ → Node ρ
  | .value _, node => { node with value := text, valueWrites := node.valueWrites + 1 }
  | .text _, node => { node with text, textWrites := node.textWrites + 1 }

/-- What the watchers of a content do. -/
def reaction (node : NodeId) (root : Value) : Content → Reaction ρ
  | .value _ => .showValue node
  | .text template => .showText node template root

/-- The listeners that a content comes with. -/
def listeners (root : Value) : Content → List (Listener ρ)
  | .value path => [.assign root path]
  | .text _ => []

/-- What is put where a content belongs is read there. -/
theorem read_put (content : Content) (text : String) (node : Node ρ) :
    content.read (content.put text node) = text := by
  cases content <;> rfl

/-- A node keeps its kind when a content is put. -/
theorem kind_put (content : Content) (text : String) (node : Node ρ) :
    (content.put text node).kind = node.kind := by
  cases content <;> rfl

/-- A node keeps its listeners when a content is put. -/
theorem listeners_put (content : Content) (text : String) (node : Node ρ) :
    (content.put text node).listeners = node.listeners := by
  cases content <;> rfl

/-- A node keeps its children when a content is put. -/
theorem children_put (content : Content) (text : String) (node : Node ρ) :
    (content.put text node).children = node.children := by
  cases content <;> rfl

/-- A reaction tells which node it is for. -/
theorem node_of_reaction {content other : Content} {node target : NodeId} {root : Value}
    (h : (content.reaction node root : Reaction ρ) = other.reaction target root) : node = target := by
  cases content <;> cases other <;> cases h <;> rfl

/-! ## What contents come to -/

variable {m m' : Model} {root : Value} {content : Content}

/-- Parts that bind only leaves are rendered. -/
theorem renderParts?_leaves {parts : List TemplatePart}
    (hleaves : ∀ path, .binding path ∈ parts → ∃ cell, m.LeafAt root path cell) :
    ∃ text, m.renderParts? root parts = some (.ok text) := by
  induction parts with
  | nil => exact ⟨[], rfl⟩
  | cons part rest ih =>
    obtain ⟨text, htext⟩ := ih fun path hpath => hleaves path (List.mem_cons_of_mem part hpath)
    cases part with
    | literal written => exact ⟨written.toList ++ text, by simp only [Model.renderParts?, htext]; rfl⟩
    | binding path =>
      obtain ⟨cell, hleaf⟩ := hleaves path List.mem_cons_self
      obtain ⟨shown, hshown⟩ := Model.display?_leaf hleaf.leaf
      exact ⟨shown ++ text, by simp only [Model.renderParts?, hleaf.peek, hshown, htext]; rfl⟩

/-- The paths of a template are those that its parts bind. -/
theorem mem_paths {template : Template} {path : Path} :
    path ∈ template.paths ↔ .binding path ∈ template.parts := by
  unfold Template.paths
  rw [List.mem_filterMap]
  constructor
  · rintro ⟨part, hpart, heq⟩
    cases part with
    | literal text => cases heq
    | binding other =>
      obtain rfl : other = path := Option.some.inj heq
      exact hpart
  · intro hpart
    exact ⟨.binding path, hpart, rfl⟩

/-- A content whose paths all lead to leaves comes to a text. -/
theorem shown?_leaves (hleaves : ∀ path ∈ content.paths, ∃ cell, m.LeafAt root path cell) :
    ∃ text, content.shown? m root = some text := by
  cases content with
  | value path =>
    obtain ⟨cell, hleaf⟩ := hleaves path List.mem_cons_self
    obtain ⟨text, htext⟩ := Model.display?_leaf hleaf.leaf
    exact ⟨String.ofList text, by simp only [shown?, hleaf.peek, htext, Option.map_some]⟩
  | text template =>
    obtain ⟨text, htext⟩ := renderParts?_leaves fun path hpath => hleaves path (mem_paths.2 hpath)
    exact ⟨String.ofList text, by simp only [shown?, Model.render?, htext, Option.map_some, Except.map]⟩

/-- Parts are rendered alike by models with the same values at the paths that they bind. -/
theorem renderParts?_congr {parts : List TemplatePart}
    (hleaves : ∀ path, .binding path ∈ parts → ∃ cell, m.LeafAt root path cell)
    (hsame : ∀ path, .binding path ∈ parts → m'.peek path root = m.peek path root) :
    m'.renderParts? root parts = m.renderParts? root parts := by
  induction parts with
  | nil => rfl
  | cons part rest ih =>
    have hrest := ih (fun path hpath => hleaves path (List.mem_cons_of_mem part hpath))
      fun path hpath => hsame path (List.mem_cons_of_mem part hpath)
    cases part with
    | literal written => simp only [Model.renderParts?, hrest]
    | binding path =>
      obtain ⟨cell, hleaf⟩ := hleaves path List.mem_cons_self
      obtain ⟨shown, hshown⟩ := Model.display?_leaf hleaf.leaf
      simp only [Model.renderParts?, hsame path List.mem_cons_self, hleaf.peek, hshown, hrest]

/-- What a content comes to depends only on the leaves at its paths. -/
theorem shown?_congr (hleaves : ∀ path ∈ content.paths, ∃ cell, m.LeafAt root path cell)
    (hsame : ∀ path ∈ content.paths, m'.peek path root = m.peek path root) :
    content.shown? m' root = content.shown? m root := by
  cases content with
  | value path =>
    obtain ⟨cell, hleaf⟩ := hleaves path List.mem_cons_self
    obtain ⟨text, htext⟩ := Model.display?_leaf hleaf.leaf
    simp only [shown?, hsame path List.mem_cons_self, hleaf.peek, htext]
  | text template =>
    have hparts : m'.renderParts? root template.parts = m.renderParts? root template.parts :=
      renderParts?_congr (fun path hpath => hleaves path (mem_paths.2 hpath))
        fun path hpath => hsame path (mem_paths.2 hpath)
    simp only [shown?, Model.render?, hparts]

/-- A text content that comes to a text is a template rendered. -/
theorem render?_of_shown? {template : Template} {text : String}
    (h : (Content.text template).shown? m root = some text) :
    m.render? template root = some (.ok text) := by
  simp only [shown?] at h
  split at h
  · next found hfound =>
    cases h
    exact hfound
  · cases h

/-! ## Writing contents -/

/-- Writing the text of a text node changes that node only. -/
theorem setText_of_text {v : View ρ} {node : NodeId} (hkind : (v.node node).kind = .text)
    (text : String) (template : Template) :
    v.setText node text = v.update node ((Content.text template).put text) := by
  unfold View.setText
  rw [hkind]
  rfl

/-- The reaction of a content puts there what the content comes to. -/
theorem react {s : Store ρ σ} {node : NodeId} {path : Path} {value : Value} {text : String}
    (respond : Respond ρ σ) (hkind : ∀ template, content = .text template → (s.view.node node).kind = .text)
    (hpath : path ∈ content.paths) (hfound : s.model.peek path root = .ok value)
    (hshown : content.shown? s.model root = some text) :
    ∃ event, Run.react respond (content.reaction node root) value s =
      some (.ok (), (s.withView (·.update node (content.put text))).record event) := by
  cases content with
  | value other =>
    obtain rfl : path = other := List.mem_singleton.1 hpath
    simp only [shown?, hfound] at hshown
    obtain ⟨shown, hdisplay, rfl⟩ := Option.map_eq_some_iff.1 hshown
    refine ⟨.wroteValue node, ?_⟩
    unfold reaction
    rw [Run.react_showValue, hdisplay]
    rfl
  | text template =>
    refine ⟨.wroteText node, ?_⟩
    unfold reaction
    rw [Run.react_showText, render?_of_shown? hshown]
    simp only [Option.map_some, Store.withView, setText_of_text (hkind template rfl) text template]

end Content

end DataBinding
