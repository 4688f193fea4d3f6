import DataBinding.Proofs.Compiling.Pass
import DataBinding.Proofs.View.Standing

/-!
# How directives are handled

What the handlers that come with the library do with one directive, when they come back with a result:
the bindings that they make, and what becomes of the node. The value handler shows the value at its path
and leaves the markup of the node alone. The text handler writes the rendered text, and an element that
it is written to loses its children to it.
-/

set_option autoImplicit false

namespace DataBinding

variable {ρ σ : Type} {binder : BinderId} {root : Value} {config : Config} {s s' : Store ρ σ}

namespace Run

/-- A loop over nothing leaves the store as it is. -/
theorem each_nil_ok {α : Type} {f : α → Run ρ σ Unit} (h : each [] f s = some (.ok (), s')) :
    s' = s := by
  cases h
  rfl

/-- A loop that comes back has come back from its first item, and from the rest. -/
theorem each_cons_ok {α : Type} {item : α} {rest : List α} {f : α → Run ρ σ Unit}
    (h : each (item :: rest) f s = some (.ok (), s')) :
    ∃ s₁, f item s = some (.ok (), s₁) ∧ each rest f s₁ = some (.ok (), s') := by
  obtain ⟨⟨⟩, s₁, hitem, hrest⟩ := bind_eq_ok.1 h
  exact ⟨s₁, hitem, hrest⟩

/-- Going on with a result leaves the store as it is. -/
theorem orRaise_ok {α : Type} {outcome : Except Error α} {a : α}
    (h : orRaise outcome s = some (.ok a, s')) : outcome = .ok a ∧ s' = s := by
  cases outcome with
  | ok b =>
    cases h
    exact ⟨rfl, rfl⟩
  | error e => cases h

/-- A value that is demanded and there leaves the store as it is. -/
theorem demand_ok {α : Type} {value : Option α} {a : α}
    (h : demand value s = some (.ok a, s')) : value = some a ∧ s' = s := by
  cases value with
  | some b =>
    cases h
    exact ⟨rfl, rfl⟩
  | none => cases h

/-- Rendering that comes back with a text leaves the store as it is. -/
theorem render_ok {template : Template} {text : String}
    (h : render template root s = some (.ok text, s')) :
    s.model.render? template root = some (.ok text) ∧ s' = s := by
  unfold render at h
  rw [look_bind] at h
  obtain ⟨outcome, s₁, hdemand, hraise⟩ := bind_eq_ok.1 h
  obtain ⟨hrender, hsame⟩ := demand_ok hdemand
  obtain ⟨hok, hsame'⟩ := orRaise_ok hraise
  exact ⟨hrender.trans (congrArg some hok), hsame'.trans hsame⟩

/-- Displaying a value leaves the store as it is. -/
theorem display_ok {value : Value} {text : String}
    (h : display value s = some (.ok text, s')) : s' = s := by
  unfold display at h
  rw [look_bind] at h
  exact (demand_ok h).2

/-- Binding a path that comes back is a part of a pass with that one binding, and leaves the view alone. -/
theorem bind_ok (hbinder : s.Binds binder root config) {path : Path} {reaction : Reaction ρ}
    {id : SubscriberId} (h : bind binder path reaction s = some (.ok id, s')) :
    Pass binder root config [] [(path, reaction)] s s' ∧ s'.view = s.view := by
  unfold bind at h
  rw [look_bind, hbinder.2.1, hbinder.2.2] at h
  obtain ⟨made, s₁, hwatch, h⟩ := bind_eq_ok.1 h
  cases hfollow : s.model.follow path root with
  | mk cells outcome =>
    cases outcome with
    | error e =>
      rw [watch_error _ _ hfollow] at hwatch
      cases hwatch
    | ok value =>
      rw [watch_ok _ _ hfollow] at hwatch
      cases hwatch
      cases h
      have hpeek : s.model.peek path root = .ok value := by
        unfold Model.peek
        rw [hfollow]
      have hwatcher : Binding.watcher s.model root config (path, reaction) =
          { root, path, policy := config.baseline, reaction, baseline := value } := by
        unfold Binding.watcher
        rw [hpeek]
        rfl
      refine ⟨?_, rfl⟩
      rw [← hwatcher]
      exact .bound hbinder (path, reaction)

/-- One watcher is made for each path. -/
theorem bindAll_ok (hbinder : s.Binds binder root config) {reaction : Reaction ρ} (paths : List Path)
    (h : each paths (fun path => do
      let _ ← bind binder path reaction
      done ()) s = some (.ok (), s')) :
    Pass binder root config [] (paths.map fun path => (path, reaction)) s s' ∧ s'.view = s.view := by
  induction paths generalizing s with
  | nil =>
    obtain rfl := each_nil_ok h
    exact ⟨.refl s', rfl⟩
  | cons path rest ih =>
    obtain ⟨s₁, hpath, hrest⟩ := each_cons_ok h
    obtain ⟨id, s₂, hbind, hdone⟩ := bind_eq_ok.1 hpath
    cases hdone
    obtain ⟨hpass, hview⟩ := bind_ok hbinder hbind
    obtain ⟨hpass', hview'⟩ := ih (hpass.binds hbinder) hrest
    exact ⟨hpass.trans hpass', hview'.trans hview⟩

/-- Binding a value that comes back is a part of a pass with one binding: the node listens, and shows the
value. -/
theorem bindValue_ok (hbinder : s.Binds binder root config) {node : NodeId} {expression : String}
    (h : bindValue binder node expression s = some (.ok (), s')) :
    ∃ path text, Path.parse expression = .ok path ∧
      Pass binder root config [] [(path, .showValue node)] s s' ∧
      s'.view = (s.view.listen node (.assign root path)).setValue node text := by
  unfold bindValue at h
  obtain ⟨path, s₁, hread, hrest⟩ := bind_eq_ok.1 h
  obtain ⟨hparse, heq⟩ := orRaise_ok hread
  subst heq
  rw [look_bind, hbinder.2.1] at hrest
  obtain ⟨id, s₂, hbind, hshow⟩ := bind_eq_ok.1 hrest
  obtain ⟨hpass, hview⟩ := bind_ok hbinder hbind
  rw [change_bind, peek_bind] at hshow
  obtain ⟨value, s₃, hpeek, hdisplay⟩ := bind_eq_ok.1 hshow
  have hsame := (orRaise_ok hpeek).2
  subst hsame
  obtain ⟨text, s₄, htext, hwrite⟩ := bind_eq_ok.1 hdisplay
  have hsame := display_ok htext
  subst hsame
  cases hwrite
  refine ⟨path, text, hparse, ?_, ?_⟩
  · have hlistened : Pass binder root config [] [] s₂
        (s₂.withView (·.listen node (.assign root path))) := .of_same rfl rfl rfl rfl rfl
    exact (hpass.trans hlistened).trans (.shown _ (·.setValue node text) (.wroteValue node) rfl)
  · rw [← hview]
    rfl

/-- Binding a text that comes back is a part of a pass with a binding for each path of the template: the
node shows the rendered text. -/
theorem bindText_ok (hbinder : s.Binds binder root config) {node : NodeId} {expression : String}
    (h : bindText binder node expression s = some (.ok (), s')) :
    ∃ template text, Template.parse config.delimiters config.trimPaths expression = .ok template ∧
      s.model.render? template root = some (.ok text) ∧
      Pass binder root config [] (template.paths.map fun path => (path, .showText node template root))
        s s' ∧
      s'.view = s.view.setText node text := by
  unfold bindText at h
  rw [look_bind, hbinder.2.1, hbinder.2.2] at h
  obtain ⟨template, s₁, hread, hrest⟩ := bind_eq_ok.1 h
  obtain ⟨hparse, heq⟩ := orRaise_ok hread
  subst heq
  obtain ⟨⟨⟩, s₂, hbind, hshow⟩ := bind_eq_ok.1 hrest
  obtain ⟨hpass, hview⟩ := bindAll_ok hbinder template.paths hbind
  obtain ⟨text, s₃, htext, hwrite⟩ := bind_eq_ok.1 hshow
  obtain ⟨hrender, heq⟩ := render_ok htext
  subst heq
  rw [hpass.alike.render?] at hrender
  cases hwrite
  refine ⟨template, text, hparse, hrender, ?_, ?_⟩
  · have hwritten := hpass.trans (.shown s₃ (·.setText node text) (.wroteText node) rfl)
    rw [List.append_nil, List.append_nil] at hwritten
    exact hwritten
  · rw [← hview]
    rfl

end Run

end DataBinding
