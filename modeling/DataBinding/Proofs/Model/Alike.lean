import DataBinding.Model.Rendering
import DataBinding.Proofs.Model.Onward

/-!
# Models that read the same

Two models read the same if they hold the same objects, and the same value in every cell; who is
subscribed to a cell makes no difference. Every way of reading then comes to the same: following a path,
the text of a value, and the text of a template.
-/

set_option autoImplicit false

namespace DataBinding

namespace Model

/-- Two models that hold the same values. -/
structure Alike (m m' : Model) : Prop where
  objects : m'.objects = m.objects
  value : ∀ cell, (m'.cell cell).value = (m.cell cell).value

namespace Alike

variable {m m' m'' : Model}

/-- A model holds the same values as itself. -/
theorem refl (m : Model) : Alike m m := ⟨rfl, fun _ => rfl⟩

/-- Models that hold the same values as a third hold the same values. -/
theorem trans (h₁ : Alike m m') (h₂ : Alike m' m'') : Alike m m'' where
  objects := h₂.objects.trans h₁.objects
  value cell := (h₂.value cell).trans (h₁.value cell)

/-- A change of subscribers changes no value. -/
theorem updateSubscribers (m : Model) (id : CellId) (f : List SubscriberId → List SubscriberId) :
    Alike m (m.updateSubscribers id f) where
  objects := rfl
  value cell := by
    rw [cell_updateSubscribers]
    split <;> rfl

/-- Subscribing to any number of cells changes no value. -/
theorem subscribeAll (m : Model) (cells : List CellId) (id : SubscriberId) :
    Alike m (cells.foldl (fun m cell => m.subscribe cell id) m) := by
  induction cells generalizing m with
  | nil => exact refl m
  | cons cell rest ih => exact (updateSubscribers m cell (· ++ [id])).trans (ih (m.subscribe cell id))

/-- Objects have the same fields. -/
theorem fields (h : Alike m m') (id : ObjectId) : m'.fields id = m.fields id := by
  unfold Model.fields
  rw [h.objects]

/-- Keys have the same slots. -/
theorem slot? (h : Alike m m') (id : ObjectId) (key : String) : m'.slot? id key = m.slot? id key := by
  unfold Model.slot?
  rw [h.fields]

/-- Slots have the same values. -/
theorem slotValue (h : Alike m m') (slot : Slot) : m'.slotValue slot = m.slotValue slot := by
  cases slot with
  | reactive cell => exact h.value cell
  | plain value => rfl

/-- Objects have the same entries. -/
theorem entries (h : Alike m m') (id : ObjectId) : m'.entries id = m.entries id := by
  unfold Model.entries
  rw [h.fields]
  exact List.map_congr_left fun ⟨key, slot⟩ _ => by simp only [h.slotValue]

/-- Keys lead through the same cells to the same outcome. -/
theorem followKeys (h : Alike m m') (text : String) (keys : List String) (root : Value) :
    m'.followKeys text keys root = m.followKeys text keys root := by
  induction keys generalizing root with
  | nil => rfl
  | cons key rest ih =>
    cases root with
    | object id =>
      have hslot' := h.slot? id key
      cases hslot : m.slot? id key with
      | none =>
        rw [hslot] at hslot'
        rw [followKeys_missing hslot, followKeys_missing hslot']
      | some slot =>
        rw [hslot] at hslot'
        cases slot with
        | plain value =>
          rw [followKeys_plain hslot, followKeys_plain hslot']
          exact ih value
        | reactive cell =>
          rw [followKeys_reactive hslot, followKeys_reactive hslot', h.value, ih]
    | _ => rfl

/-- Paths lead to the same value. -/
theorem peek (h : Alike m m') (path : Path) (root : Value) : m'.peek path root = m.peek path root := by
  unfold Model.peek Model.follow
  rw [h.followKeys]

/-- Values are encoded the same on any number of levels. -/
theorem encode? (h : Alike m m') (depth : Nat) (value : Value) :
    m'.encode? depth value = m.encode? depth value := by
  induction depth generalizing value with
  | zero => cases value <;> rfl
  | succ depth ih =>
    cases value with
    | object id => simp only [Model.encode?, h.entries, ih]
    | _ => rfl

/-- Values are displayed the same. -/
theorem display? (h : Alike m m') (value : Value) : m'.display? value = m.display? value := by
  have hdepth : m'.depth = m.depth := by
    unfold depth
    rw [h.objects]
  cases value with
  | array id items => simp only [Model.display?, hdepth, h.encode?]
  | object id => simp only [Model.display?, hdepth, h.encode?]
  | bool value => cases value <;> rfl
  | _ => rfl

/-- Templates are rendered the same. -/
theorem render? (h : Alike m m') (template : Template) (root : Value) :
    m'.render? template root = m.render? template root := by
  have hparts : ∀ parts, m'.renderParts? root parts = m.renderParts? root parts := by
    intro parts
    induction parts with
    | nil => rfl
    | cons part rest ih =>
      cases part with
      | literal text => simp only [renderParts?, ih]
      | binding path => simp only [renderParts?, h.peek, h.display?, ih]
  unfold Model.render?
  rw [hparts]

end Alike

end Model

end DataBinding
