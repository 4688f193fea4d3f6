import DataBinding.Proofs.Compiling.ComesBack

/-!
# Trees without bindings

A pass over a tree that has no directives and no markers comes back without having done anything: no handler
is called, and no watcher is made.
-/

set_option autoImplicit false

namespace DataBinding

open Markup (Tree)

namespace Markup.Tree

mutual

/-- Whether a tree has nothing to bind: no attribute is a directive, and no text has a marker. -/
def isBare (config : Config) : Tree → Bool
  | .text content =>
    !Template.containsBinding config.delimiters config.trimPaths (trim content.toList)
  | .comment _ => true
  | .element _ attributes children =>
    attributes.all (fun entry => (directiveName? config.marker entry.1).isNone) &&
      allBare config children

/-- Whether trees that follow each other have nothing to bind. -/
def allBare (config : Config) : List Tree → Bool
  | [] => true
  | tree :: rest => tree.isBare config && allBare config rest

end

/-- Trees have nothing to bind if and only if none of them has. -/
theorem allBare_iff {config : Config} {trees : List Tree} :
    allBare config trees = true ↔ ∀ tree ∈ trees, tree.isBare config = true := by
  induction trees with
  | nil => simp [allBare]
  | cons tree rest ih => simp [allBare, ih]

end Markup.Tree

namespace Run

variable {ρ σ : Type} {s : Store ρ σ} {respond : Respond ρ σ} {directives : Directives ρ}
  {binder : BinderId} {config : Config}

/-- A loop that does nothing for any item does nothing. -/
theorem each_idle {α : Type} {items : List α} {f : α → Run ρ σ Unit}
    (h : ∀ item ∈ items, f item s = some (.ok (), s)) : each items f s = some (.ok (), s) := by
  induction items with
  | nil => rfl
  | cons item rest ih =>
    obtain ⟨hitem, hrest⟩ := List.forall_mem_cons.1 h
    exact bind_eq_ok.2 ⟨(), s, hitem, ih hrest⟩

/-- Compiling an attribute that is no directive does nothing. -/
theorem compileAttribute_plain {marker : String} {node : NodeId} {entry : String × String}
    (hname : directiveName? marker entry.1 = none) :
    compileAttribute respond directives binder marker node entry s = some (.ok (), s) := by
  unfold compileAttribute
  rw [hname]
  rfl

/-- Nothing is done with a node of a tree that has nothing to bind. -/
theorem compileOwn_bare {view : View ρ} {tree : Tree} {id : NodeId} {ids : List NodeId}
    (hstands : view.Stands tree id ids) (hbare : tree.isBare config = true) :
    compileOwn respond directives binder config id (view.node id) s = some (.ok (), s) := by
  unfold compileOwn
  cases tree with
  | text content =>
    obtain ⟨-, -, hkind, htext⟩ := hstands
    have hplain : Template.containsBinding config.delimiters config.trimPaths (trim content.toList) = false := by
      simpa [Tree.isBare] using hbare
    rw [hkind, htext]
    unfold compileText
    simp only [hplain, Bool.false_eq_true, if_false]
    rfl
  | comment body =>
    obtain ⟨-, -, hkind, -⟩ := hstands
    rw [hkind]
    rfl
  | element tag attributes children =>
    obtain ⟨below, -, -, -, hkind, hattributes, -⟩ := hstands
    unfold Tree.isBare at hbare
    obtain ⟨hplain, -⟩ := (Bool.and_eq_true _ _).mp hbare
    rw [hkind, hattributes]
    exact each_idle fun entry hentry =>
      compileAttribute_plain (Option.isNone_iff_eq_none.1 (List.all_eq_true.1 hplain entry hentry))

/-- A walk through a tree that has nothing to bind does nothing, if it goes through enough levels to come
back. -/
theorem compileNode_bare {tree : Tree} {depth : Nat} {id : NodeId} {ids : List NodeId}
    (hstands : s.view.Stands tree id ids) (hbare : tree.isBare config = true) (hlevels : tree.levels ≤ depth) :
    compileNode respond directives binder config depth id s = some (.ok (), s) := by
  have hown : GoesOn respond directives binder config s.view (fun tree => tree.isBare config = true)
      (fun _ => True) fun _ s' => s' = s := by
    constructor
    case below =>
      intro tag attributes children hbare
      unfold Tree.isBare at hbare
      exact Tree.allBare_iff.1 ((Bool.and_eq_true _ _).mp hbare).2
    case changed =>
      rintro done _ rfl
      exact .refl done _
    case own =>
      rintro tree id ids hstands hbare - done _ - rfl
      exact ⟨_, compileOwn_bare hstands hbare, rfl⟩
  obtain ⟨s', hrun, rfl⟩ := compileNode_comes_back hown hstands hbare hlevels
    (fun _ _ => ⟨trivial, List.not_mem_nil⟩) (rfl : s = s)
  exact hrun

/-- Compiling comes back with the watchers of its pass if the pass comes back. -/
theorem compile_of_pass {depth : Nat} {node : NodeId} {root : Value} {s' : Store ρ σ}
    (hpass : compileNode respond directives (s.addBinder root config).1 config depth node
      (s.addBinder root config).2 = some (.ok (), s')) :
    compile respond depth root config directives node s =
      some (.ok (s'.binder (s.addBinder root config).1).watchers, s') := by
  unfold compile
  rw [changeGet_bind, attempt_bind, hpass, Option.bind_some, look_bind]
  rfl

/-- Compiling a tree that has nothing to bind makes no watchers, and changes nothing but that there is one
more binder. -/
theorem compile_bare {tree : Tree} {depth : Nat} {node : NodeId} {ids : List NodeId}
    (hstands : s.view.Stands tree node ids) (hbare : tree.isBare config = true)
    (hlevels : tree.levels ≤ depth) (root : Value) :
    compile respond depth root config directives node s =
      some (.ok [], (s.addBinder root config).2) := by
  have hnode : compileNode respond directives (s.addBinder root config).1 config depth node
      (s.addBinder root config).2 = some (.ok (), (s.addBinder root config).2) :=
    compileNode_bare hstands hbare hlevels
  have hfresh : ((s.addBinder root config).2.binder (s.addBinder root config).1).watchers = [] := by
    simp [Store.binder, Store.addBinder, Array.getD_eq_getD_getElem?]
  rw [compile_of_pass hnode, hfresh]

end Run

end DataBinding
