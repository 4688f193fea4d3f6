import DataBinding.Proofs.Compiling.Bare
import DataBinding.Proofs.Model.Storing
import DataBinding.Proofs.Model.Subscribers
import DataBinding.Proofs.Runs.Outcomes

/-!
# Plain and observed data

A view model without a place keeps its data as a document, and one that is mounted on a tree without bindings
keeps it in the model. Both take the same calls: `ViewModel.sessions_agree` says that whatever is read and
written, call by call both come back with the same error or both with a result, that what they read is
equal, and that the documents they hold are equal as they are read back.

The two sides are brought together by one relation, which each call keeps: the observed side holds a
document alone (`Store.HoldsAlone`), and the plain document goes with it (`Json.Mirrors`).
-/

set_option autoImplicit false

namespace DataBinding

open Markup (Tree)

variable {ρ σ : Type}

/-! ## A document that is held alone -/

/-- A value of the model stands for a document and shares nothing with itself, nobody is subscribed to its
cells, and the collector slot is empty. -/
structure Store.HoldsAlone (s : Store ρ σ) (json : Json) (value : Value) (parts : List Part) : Prop where
  holds : s.model.Holds json value parts
  nodup : parts.Nodup
  has : ∀ part ∈ parts, s.model.Has part
  quiet : ∀ cell, Part.cell cell ∈ parts → (s.model.cell cell).subscribers = []
  idle : s.collector = none

/-- A value that has just been made for a document. It shares nothing with what was there before. -/
structure Store.Fresh (s : Store ρ σ) (parts : List Part) (json : Json) (value : Value)
    (fresh : List Part) : Prop where
  holds : s.model.Holds json value fresh
  nodup : (parts ++ fresh).Nodup
  has : ∀ part ∈ fresh, s.model.Has part
  quiet : ∀ cell, Part.cell cell ∈ fresh → (s.model.cell cell).subscribers = []

namespace Run

variable {s : Store ρ σ} {id : ObjectId} {key : String}

/-- What a write of a key does if nobody is subscribed: the value is strictly equal to the one that is there, or
it is stored. -/
theorem setKey_quiet (tell : SubscriberId → Run ρ σ Unit) (hid : s.model.Has (.object id))
    (hcells : ∀ cell, s.model.slot? id key = some (.reactive cell) →
      s.model.Has (.cell cell) ∧ (s.model.cell cell).subscribers = []) (value : Value) :
    (∃ slot, s.model.slot? id key = some slot ∧ (s.model.slotValue slot).strictEq value = true ∧
      setKey tell id key value s = some (.ok false, s)) ∨
    ∃ slot s', setKey tell id key value s = some (.ok true, s') ∧
      s.model.Stores s'.model id key slot value ∧ s'.collector = s.collector ∧
      ∀ cell, (s.model.cell cell).subscribers = [] → (s'.model.cell cell).subscribers = [] := by
  let put := (s.withModel (·.putPlain id key value)).record (.storedPlain id key value)
  have hput : putPlain id key value s = some (.ok true, put) := rfl
  have hstored : s.model.Stores put.model id key (.plain value) value :=
    Model.stores_putPlain hid key value
  cases hslot : s.model.slot? id key with
  | none => exact .inr ⟨_, put, (setKey_missing hslot value).trans hput, hstored, rfl, fun _ h => h⟩
  | some slot =>
    cases hsame : (s.model.slotValue slot).strictEq value with
    | true =>
      refine .inl ⟨slot, rfl, hsame, ?_⟩
      cases slot with
      | reactive cell => rw [setKey_reactive hslot, setCell_same hsame]
      | plain current => exact setKey_plain_same hslot hsame
    | false =>
      cases slot with
      | plain current =>
        exact .inr ⟨_, put, (setKey_plain_other hslot hsame).trans hput, hstored, rfl, fun _ h => h⟩
      | reactive cell =>
        obtain ⟨hcell, hquiet⟩ := hcells cell hslot
        let s' := (s.storeCell cell value).withModel
          (·.updateSubscribers cell (·.filter (s.storeCell cell value).isLive))
        refine .inr ⟨.reactive cell, s', (setKey_reactive hslot value).trans (setCell_quiet hsame hquiet),
          Model.stores_setCellValue hslot hcell value _, rfl, fun other hother => ?_⟩
        change ((((s.model.setCellValue cell value)).updateSubscribers cell _).cell other).subscribers = []
        rw [Model.cell_updateSubscribers, Model.cell_setCellValue]
        split <;> split <;> simp [hother]

end Run

namespace Store.HoldsAlone

variable {s : Store ρ σ} {tell : SubscriberId → Run ρ σ Unit} {json stored : Json} {root value : Value}
  {parts fresh : List Part}

/-- What was held stays held while documents are observed. -/
theorem observe (h : s.HoldsAlone json root parts) (document : Json) :
    ∃ fresh, ({ s with model := (Model.observe document s.model).2 } : Store ρ σ).HoldsAlone json root
        parts ∧
      ({ s with model := (Model.observe document s.model).2 } : Store ρ σ).Fresh parts
        document.normalize (Model.observe document s.model).1 fresh := by
  obtain ⟨fresh, hholds, hnews⟩ := Model.observe_holds document s.model
  have hwithin := Model.observe_within document s.model
  have hquiet : ∀ cell, (s.model.cell cell).subscribers = [] →
      ((Model.observe document s.model).2.cell cell).subscribers = [] := fun cell hcell =>
    (Model.subscribers_observe document s.model cell).trans hcell
  refine ⟨fresh, ⟨?_, h.nodup, fun part hpart => hwithin.has (h.has part hpart),
    fun cell hcell => hquiet cell (h.quiet cell hcell), h.idle⟩, hholds, ?_, hnews.has,
    fun cell hcell => hquiet cell (Model.subscribers_of_le (Nat.not_lt.1 (hnews.new _ hcell)))⟩
  · exact h.holds.frame fun part hpart => hwithin.samePart (h.has part hpart)
  · exact h.nodup.append hnews.nodup fun part hpart hpart' => hnews.new part hpart' (h.has part hpart)

/-- A write at a path of something that was just made. The document takes it, also if the write finds that nothing
changes. -/
theorem assign (h : s.HoldsAlone json root parts) (hfresh : s.Fresh parts stored value fresh)
    {path : Path} {members : List (String × Json)} (hcontainer : Json.container path json = .ok members) :
    ∃ changed s' parts', Run.assign tell path root value s = some (.ok changed, s') ∧
      s'.HoldsAlone (Json.putAt path.last stored path.parents json) root parts' := by
  have hjson := Json.followKeys_of_container hcontainer
  have hfollow := h.holds.followKeys path.text path.parents
  rw [hjson] at hfollow
  generalize houtcome : (s.model.followKeys path.text path.parents root).outcome = outcome at hfollow
  cases hfollow with
  | ok hfollow =>
    obtain ⟨here, hsub, id, below, rfl, rfl, hall⟩ := hfollow
    have hbelow : ∀ {slot : Slot}, s.model.slot? id path.last = some slot →
        ∃ current there, Keyed.get? path.last members = some current ∧
          s.model.Holds current (s.model.slotValue slot) there ∧ slot.parts ++ there ⊆ parts := by
      intro slot hslot
      obtain ⟨current, there, hget, hholds, hsub'⟩ := hall.of_slot hslot
      exact ⟨current, there, hget, hholds, fun part hpart =>
        hsub.subset (List.mem_cons_of_mem _ (hsub' hpart))⟩
    rw [Run.assign_found h.idle houtcome]
    have hcells : ∀ cell, s.model.slot? id path.last = some (.reactive cell) →
        s.model.Has (.cell cell) ∧ (s.model.cell cell).subscribers = [] := by
      intro cell hslot
      obtain ⟨-, there, -, -, hsub'⟩ := hbelow hslot
      have hcell := hsub' (List.mem_append_left there List.mem_cons_self)
      exact ⟨h.has _ hcell, h.quiet cell hcell⟩
    obtain ⟨slot, hslot, hsame, hrun⟩ | ⟨slot, s', hrun, hstores, hidle, hquiet⟩ :=
      Run.setKey_quiet tell (h.has _ (hsub.subset List.mem_cons_self)) hcells value
    · -- The value that is there stands for the same document.
      obtain ⟨current, there, hget, hholds, hsub'⟩ := hbelow hslot
      have hdisjoint : there.Disjoint fresh := fun part hpart hpart' =>
        List.disjoint_of_nodup_append hfresh.nodup (hsub' (List.mem_append_right _ hpart)) hpart'
      obtain rfl := hholds.eq_of_strictEq hfresh.holds hdisjoint hsame
      refine ⟨false, s, parts, hrun, ?_⟩
      rw [Json.putAt_self hjson hget]
      exact h
    · -- What was made for the write is apart from what the write touches, so it still holds.
      have htouched := h.holds.touched hjson houtcome hstores
      have hstored : s'.model.Holds stored value fresh := hfresh.holds.frame fun part hpart =>
        hstores.same part fun hmem =>
          List.disjoint_of_nodup_append hfresh.nodup (htouched part hmem) hpart
      obtain ⟨parts', hholds, hsub'⟩ := h.holds.store hstored h.nodup hjson houtcome hstores
      refine ⟨true, s', parts', hrun, hholds, ?_, fun part hpart => hstores.has ?_,
        fun cell hcell => hquiet cell ?_, hidle.trans h.idle⟩
      · obtain ⟨middle, hperm, hsublist⟩ := hsub'
        exact hperm.nodup_iff.1 (hfresh.nodup.sublist hsublist)
      · exact (List.mem_append.1 (hsub'.subset hpart)).elim (h.has part) (hfresh.has part)
      · exact (List.mem_append.1 (hsub'.subset hcell)).elim (h.quiet cell) (hfresh.quiet cell)

/-- A write at a path that leads to no object fails as it does in the document. -/
theorem assign_error (h : s.HoldsAlone json root parts) {path : Path} {e : Error}
    (hcontainer : Json.container path json = .error e) (value : Value) :
    ∃ s', Run.assign tell path root value s = some (.error e, s') ∧ s'.HoldsAlone json root parts := by
  obtain ⟨e', hjson, hmodel⟩ | ⟨found, found', hjson, hmodel, here, -, hholds⟩ :=
    sameOutcome_iff.1 (h.holds.followKeys path.text path.parents)
  · rw [Json.container_error hjson] at hcontainer
    cases hcontainer
    exact ⟨_, Run.assign_error h.idle hmodel value, h.holds, h.nodup, h.has, h.quiet, h.idle⟩
  · cases hobject : found.isObject with
    | true =>
      cases found with
      | object members =>
        rw [Json.container_ok hjson] at hcontainer
        cases hcontainer
      | _ => cases hobject
    | false =>
      rw [Json.container_not_object hjson hobject] at hcontainer
      cases hcontainer
      have hleaf := Model.ne_object_of_toJson?_zero ((Model.holds_leaf hobject _ _).1 hholds).2
      exact ⟨_, Run.assign_leaf h.idle hmodel hleaf value, h.holds, h.nodup, h.has, h.quiet, h.idle⟩

/-- A document that is held alone is what the value is read back as. -/
theorem json? (h : s.HoldsAlone json root parts) : s.model.json? root = some json :=
  h.holds.json? h.nodup h.has

end Store.HoldsAlone

/-! ## Sessions -/

namespace ViewModel

/-- What a value is built from for one call: a document, or a number, which need not be finite. Any other
scalar is built as its document is. -/
inductive Argument where
  | document (json : Json)
  | number (value : Double)

/-- A call of a view model. -/
inductive Call where
  | get (path : String)
  | set (path : String) (argument : Argument)

/-- What is seen of a call: its error, or its result and with it the document of what was read, and the document of
all data after the call. -/
structure Reply where
  outcome : Except Error (Option Json)
  snapshot : Json

namespace Argument

/-- Builds a new value. -/
def build : Argument → Script ρ σ Value
  | .document json => Script.perform (.observe json)
  | .number value => pure (.number value)

/-- The document of the value. -/
def json : Argument → Json
  | .document json => json.normalize
  | .number value => .ofDouble value

/-- Whether the value is built from a document as reading makes it. -/
def isProper : Argument → Bool
  | .document json => json.isProper
  | .number _ => true

end Argument

/-- Whether the value that a call takes is built from a document as reading makes it. -/
def Call.isProper : Call → Bool
  | .get _ => true
  | .set _ argument => argument.isProper

/-- Makes a call, and then looks at all data. -/
def call (vm : ViewModel) : Call → Script ρ σ (Reply × ViewModel)
  | .get path => do
    let outcome ← Script.attempt do
      let value ← vm.get path
      Script.perform (.toJson value)
    return (⟨outcome.map some, ← vm.snapshot⟩, vm)
  | .set path argument => do
    let value ← argument.build
    match ← (vm.set path value).attempt with
    | .ok (_, vm) => return (⟨.ok none, ← vm.snapshot⟩, vm)
    | .error e => return (⟨.error e, ← vm.snapshot⟩, vm)

/-- Makes calls one after the other. -/
def session (vm : ViewModel) : List Call → Script ρ σ (List Reply)
  | [] => return []
  | first :: rest => do
    let (reply, vm) ← vm.call first
    return reply :: (← vm.session rest)

/-- Two replies agree: both are the same error, or both are results and what was read is equal, and the
documents of all data are equal as they are read back. -/
structure Reply.Agree (plain observed : Reply) : Prop where
  outcome : SameOutcome (Option.Rel fun a b => a.same b = true) plain.outcome observed.outcome
  snapshot : plain.snapshot.normalize.same observed.snapshot = true

section Calls

variable (host : Host ρ σ) (depth : Nat) {vm : ViewModel} {s : Store ρ σ} {json : Json} {text : String}

/-- To read a value back ends with its document and leaves the store. -/
theorem ends_toJson {value : Value} (h : s.model.json? value = some json) :
    (Script.perform (.toJson value)).Ends (Run.perform (host.respond depth) depth) s (.ok json) s := by
  refine Script.ends_perform ?_
  change Run.toJson value s = some (.ok json, s)
  rw [Run.toJson_apply, h]
  rfl

/-! ### Plain data -/

/-- An observed document is read back in its normal form. -/
theorem observe_json? (json : Json) (m : Model) :
    (Model.observe json m).2.json? (Model.observe json m).1 = some json.normalize := by
  obtain ⟨parts, hholds, hnews⟩ := Model.observe_holds json m
  exact hholds.json? hnews.nodup hnews.has

/-- A value is built for a call whatever it is built from, and is read back as its document. -/
theorem ends_build (argument : Argument) (s : Store ρ σ) :
    ∃ value s', argument.build.Ends (Run.perform (host.respond depth) depth) s (.ok value) s' ∧
      s'.model.json? value = some argument.json := by
  cases argument with
  | document json => exact ⟨_, _, Script.ends_perform rfl, observe_json? json s.model⟩
  | number value => exact ⟨_, s, Script.ends_done _ s, rfl⟩

/-- To observe a document ends with its value. -/
theorem ends_observe (json : Json) (s : Store ρ σ) :
    (Script.perform (.observe json)).Ends (Run.perform (host.respond depth) depth) s
      (.ok (Model.observe json s.model).1) { s with model := (Model.observe json s.model).2 } :=
  Script.ends_perform rfl

/-- A path read from plain data ends with what the document has there, in its normal form. -/
theorem ends_get_plain (hdata : vm.data = .plain json) (text : String) (s : Store ρ σ) :
    ∃ s', (do let value ← vm.get text; Script.perform (.toJson value)).Ends
      (Run.perform (host.respond depth) depth) s ((json.readAt text).map Json.normalize) s' := by
  cases hparse : Path.parse text with
  | error e =>
    rw [Json.readAt_invalid hparse, get_invalid hparse]
    exact ⟨s, Script.ends_done (.error e) s⟩
  | ok path =>
    rw [Json.readAt_valid hparse, get_plain hdata hparse]
    cases Json.followKeys path.text path.segments json with
    | error e => exact ⟨s, Script.ends_done (.error e) s⟩
    | ok found =>
      exact ⟨_, (ends_observe host depth found s).bind
        (ends_toJson host depth (observe_json? found s.model))⟩

/-- A write of plain data stores the document of the value, or finds an equal one there and leaves it. -/
theorem ends_set_plain (hdata : vm.data = .plain json) (text : String) {value : Value} {stored : Json}
    (hvalue : s.model.json? value = some stored) :
    (∃ e, (vm.set text value).Ends (Run.perform (host.respond depth) depth) s (.error e) s ∧
      json.writeAt text stored = .error e) ∨
    ∃ changed vm' json' taken, (vm.set text value).Ends (Run.perform (host.respond depth) depth) s
        (.ok (changed, vm')) s ∧ vm'.data = .plain json' ∧ json.writeAt text taken = .ok json' ∧
      (taken = stored ∨ (taken.same stored = true ∧ (json.isProper = true → taken.isProper = true))) := by
  cases hparse : Path.parse text with
  | error e =>
    rw [set_invalid hparse]
    exact .inl ⟨e, Script.ends_done (.error e) s, Json.writeAt_invalid hparse⟩
  | ok path =>
    rw [set_plain hdata hparse]
    cases hcontainer : Json.container path json with
    | error e => exact .inl ⟨e, Script.ends_done (.error e) s, Json.writeAt_error hparse hcontainer⟩
    | ok members =>
      refine .inr ?_
      cases hsame : (Keyed.get? path.last members).any (·.same stored) with
      | false =>
        refine ⟨true, { vm with data := .plain (Json.putAt path.last stored path.parents json) }, _,
          stored, (ends_toJson host depth hvalue).bind ?_, rfl, Json.writeAt_ok hparse hcontainer, .inl rfl⟩
        rw [hsame]
        exact Script.ends_done _ s
      | true =>
        cases hget : Keyed.get? path.last members with
        | none =>
          rw [hget] at hsame
          cases hsame
        | some taken =>
          have htaken : taken.same stored = true := by
            rw [hget] at hsame
            exact hsame
          refine ⟨false, vm, json, taken, (ends_toJson host depth hvalue).bind ?_, hdata,
            Json.writeAt_self hparse hcontainer hget, .inr ⟨htaken, fun hproper =>
              Json.isProper_of_get? (Json.isProper_of_container hproper hcontainer) hget⟩⟩
          rw [hsame]
          exact Script.ends_done _ s

/-! ### Observed data -/

variable {root : Value} {parts : List Part}

/-- A value is built beside observed data without touching it. -/
theorem ends_build_observed (h : s.HoldsAlone json root parts) (argument : Argument) :
    ∃ value s' fresh, argument.build.Ends (Run.perform (host.respond depth) depth) s (.ok value) s' ∧
      s'.HoldsAlone json root parts ∧ s'.Fresh parts argument.json value fresh := by
  cases argument with
  | document document =>
    obtain ⟨fresh, hholds, hfresh⟩ := h.observe document
    exact ⟨_, _, fresh, ends_observe host depth document s, hholds, hfresh⟩
  | number value =>
    refine ⟨.number value, s, [], Script.ends_done _ s, h, ?_, by simpa using h.nodup, nofun, nofun⟩
    exact (Model.holds_leaf (Json.isObject_ofDouble value) _ _).2 ⟨rfl, rfl⟩

/-- A path read from observed data ends with what the document has there. -/
theorem ends_get_observed (hdata : vm.data = .reactive root) (h : s.HoldsAlone json root parts)
    (text : String) :
    (do let value ← vm.get text; Script.perform (.toJson value)).Ends
      (Run.perform (host.respond depth) depth) s (json.readAt text) s := by
  cases hparse : Path.parse text with
  | error e =>
    rw [Json.readAt_invalid hparse, get_invalid hparse]
    exact Script.ends_done (.error e) s
  | ok path =>
    have hlook : (Script.perform .look : Script ρ σ (Store ρ σ)).Ends
        (Run.perform (host.respond depth) depth) s (.ok s) s := Script.ends_perform rfl
    have hpeek : (vm.get text).Ends (Run.perform (host.respond depth) depth) s
        (s.model.followKeys path.text path.segments root).outcome s := by
      rw [get_reactive hdata hparse]
      exact hlook.bind (Script.ends_done _ s)
    rw [Json.readAt_valid hparse]
    obtain ⟨e, hjson, hmodel⟩ | ⟨found, value, hjson, hmodel, here, hsub, hholds⟩ :=
      sameOutcome_iff.1 (h.holds.followKeys path.text path.segments) <;> rw [hmodel] at hpeek <;> rw [hjson]
    · exact hpeek.bind_error _
    · refine hpeek.bind (ends_toJson host depth
        (hholds.json? ?_ fun part hpart => h.has part (hsub.subset hpart)))
      obtain ⟨middle, hperm, hsublist⟩ := hsub
      exact hperm.nodup_iff.1 (h.nodup.sublist hsublist)

/-- A path written into observed data fails as in the document, or succeeds and holds the document written. -/
theorem ends_set_observed (hdata : vm.data = .reactive root) (h : s.HoldsAlone json root parts)
    {value : Value} {stored : Json} {fresh : List Part} (hfresh : s.Fresh parts stored value fresh)
    (text : String) :
    (∃ e s', (vm.set text value).Ends (Run.perform (host.respond depth) depth) s (.error e) s' ∧
      json.writeAt text stored = .error e ∧ s'.HoldsAlone json root parts) ∨
    ∃ changed json' s' parts', (vm.set text value).Ends (Run.perform (host.respond depth) depth) s
      (.ok (changed, vm)) s' ∧ json.writeAt text stored = .ok json' ∧
      s'.HoldsAlone json' root parts' := by
  cases hparse : Path.parse text with
  | error e =>
    rw [set_invalid hparse]
    exact .inl ⟨e, s, Script.ends_done (.error e) s, Json.writeAt_invalid hparse, h⟩
  | ok path =>
    rw [set_reactive hdata hparse]
    cases hcontainer : Json.container path json with
    | error e =>
      obtain ⟨s', hassign, hholds⟩ := h.assign_error hcontainer value
      have hperform : (Script.perform (.assign path root value) : Script ρ σ Bool).Ends
          (Run.perform (host.respond depth) depth) s (.error e) s' := Script.ends_perform hassign
      exact .inl ⟨e, s', hperform.bind_error _, Json.writeAt_error hparse hcontainer, hholds⟩
    | ok members =>
      obtain ⟨changed, s', parts', hassign, hholds⟩ := h.assign hfresh hcontainer
      have hperform : (Script.perform (.assign path root value) : Script ρ σ Bool).Ends
          (Run.perform (host.respond depth) depth) s (.ok changed) s' := Script.ends_perform hassign
      exact .inr ⟨changed, _, s', parts', hperform.bind (Script.ends_done _ s'),
        Json.writeAt_ok hparse hcontainer, hholds⟩

/-! ### One call and all calls -/

/-- The snapshot of plain data is the document. -/
theorem ends_snapshot_plain (hdata : vm.data = .plain json) (s : Store ρ σ) :
    vm.snapshot.Ends (Run.perform (host.respond depth) depth) s (.ok json) s := by
  rw [snapshot_plain hdata]
  exact Script.ends_done (.ok json) s

/-- The snapshot of observed data is the document that is held. -/
theorem ends_snapshot_observed (hdata : vm.data = .reactive root) (h : s.HoldsAlone json root parts) :
    vm.snapshot.Ends (Run.perform (host.respond depth) depth) s (.ok json) s := by
  rw [snapshot_reactive hdata]
  exact ends_toJson host depth h.json?

/-- A view model of plain data and one of observed data that stand at the same point: the document that is held
goes with the plain one. -/
def Paired (plain observed : ViewModel) (t : Store ρ σ) : Prop :=
  ∃ json json' root parts, plain.data = .plain json ∧ observed.data = .reactive root ∧
    t.HoldsAlone json' root parts ∧ Json.Mirrors json json'

variable {plain observed : ViewModel} {t : Store ρ σ}

/-- A read is answered alike by plain and by observed data. -/
theorem get_agrees (h : Paired plain observed t) (path : String) (s : Store ρ σ) :
    ∃ reply reply' s', (plain.call (.get path)).Ends (Run.perform (host.respond depth) depth) s
        (.ok (reply, plain)) s' ∧
      (observed.call (.get path)).Ends (Run.perform (host.respond depth) depth) t
        (.ok (reply', observed)) t ∧ reply.Agree reply' := by
  obtain ⟨json, json', root, parts, hplain, hobserved, hholds, hmirrors⟩ := h
  obtain ⟨s', hget⟩ := ends_get_plain host depth hplain path s
  have hget' := ends_get_observed host depth hobserved hholds path
  have hsnapshot := ends_snapshot_plain host depth hplain s'
  have hsnapshot' := ends_snapshot_observed host depth hobserved hholds
  refine ⟨⟨((json.readAt path).map Json.normalize).map some, json⟩, ⟨(json'.readAt path).map some, json'⟩,
    s', hget.attempt.bind (hsnapshot.bind (Script.ends_done _ s')),
    hget'.attempt.bind (hsnapshot'.bind (Script.ends_done _ t)), ?_, hmirrors.same⟩
  obtain ⟨e, hread, hread'⟩ | ⟨a, b, hread, hread', hab⟩ := sameOutcome_iff.1 (hmirrors.readAt path) <;>
    rw [hread, hread']
  · exact .error e
  · exact .ok (.some hab.same)

/-- An argument that is proper has a proper document. -/
theorem isProper_json {argument : Argument} (h : argument.isProper = true) :
    argument.json.isProper = true := by
  cases argument with
  | document json => exact Json.isProper_normalize h
  | number value => exact Json.isProper_ofDouble value

/-- The document of an argument is in normal form. -/
theorem normalize_json (argument : Argument) : argument.json.normalize = argument.json := by
  cases argument with
  | document json => exact Json.normalize_normalize json
  | number value => exact Json.normalize_ofDouble value

/-- A write is answered alike by plain and by observed data, and leaves both at the same point. -/
theorem set_agrees (h : Paired plain observed t) (path : String) {argument : Argument}
    (hargument : argument.isProper = true) (s : Store ρ σ) :
    ∃ reply reply' plain' s' t', (plain.call (.set path argument)).Ends
        (Run.perform (host.respond depth) depth) s (.ok (reply, plain')) s' ∧
      (observed.call (.set path argument)).Ends (Run.perform (host.respond depth) depth) t
        (.ok (reply', observed)) t' ∧ reply.Agree reply' ∧ Paired plain' observed t' := by
  obtain ⟨json, json', root, parts, hplain, hobserved, hholds, hmirrors⟩ := h
  have hproper := isProper_json hargument
  have hnormal := normalize_json argument
  have hself := Json.mirrors_of_same hproper hproper hnormal (Json.same_self hproper)
  obtain ⟨value, s', hbuild, hvalue⟩ := ends_build host depth argument s
  obtain ⟨value', t₁, fresh, hbuild', hholds₁, hfresh⟩ := ends_build_observed host depth hholds argument
  obtain ⟨e, hset, hwrite⟩ | ⟨changed, plain', json₁, taken, hset, hplain', hwrite, htaken⟩ :=
    ends_set_plain host depth hplain path hvalue
  · -- Whether a write fails does not depend on what is written.
    have hfails := hmirrors.writeAt hself path
    rw [hwrite] at hfails
    obtain ⟨e', t', hset', hwrite', hholds'⟩ | ⟨changed, json₁, t', parts', -, hwrite', -⟩ :=
      ends_set_observed host depth hobserved hholds₁ hfresh path <;> rw [hwrite'] at hfails <;>
      cases hfails
    have hsnapshot := ends_snapshot_plain host depth hplain s'
    have hsnapshot' := ends_snapshot_observed host depth hobserved hholds'
    exact ⟨⟨.error e, json⟩, ⟨.error e, json'⟩, plain, s', t',
      hbuild.bind (hset.attempt.bind (hsnapshot.bind (Script.ends_done _ s'))),
      hbuild'.bind (hset'.attempt.bind (hsnapshot'.bind (Script.ends_done _ t'))),
      ⟨.error e, hmirrors.same⟩, json, json', root, parts, hplain, hobserved, hholds', hmirrors⟩
  · -- What plain data has there then goes with what was to be written, even where it was left as it was.
    have htaken' : Json.Mirrors taken argument.json := by
      obtain rfl | ⟨hsame, htakenProper⟩ := htaken
      · exact hself
      · exact Json.mirrors_of_same (htakenProper hmirrors.properPlain) hproper hnormal hsame
    have hwritten := hmirrors.writeAt htaken' path
    rw [hwrite] at hwritten
    obtain ⟨e', t', -, hwrite', -⟩ | ⟨changed', json₂, t', parts', hset', hwrite', hholds'⟩ :=
      ends_set_observed host depth hobserved hholds₁ hfresh path <;> rw [hwrite'] at hwritten <;>
      cases hwritten
    next hmirrors' =>
    have hsnapshot := ends_snapshot_plain host depth hplain' s'
    have hsnapshot' := ends_snapshot_observed host depth hobserved hholds'
    exact ⟨⟨.ok none, json₁⟩, ⟨.ok none, json₂⟩, plain', s', t',
      hbuild.bind (hset.attempt.bind (hsnapshot.bind (Script.ends_done _ s'))),
      hbuild'.bind (hset'.attempt.bind (hsnapshot'.bind (Script.ends_done _ t'))),
      ⟨.ok .none, hmirrors'.same⟩, json₁, json₂, root, parts', hplain', hobserved, hholds', hmirrors'⟩

/-- A call is answered alike by plain and by observed data, and leaves both at the same point. -/
theorem call_agrees (h : Paired plain observed t) {call : Call} (hcall : call.isProper = true)
    (s : Store ρ σ) :
    ∃ reply reply' plain' s' t', (plain.call call).Ends (Run.perform (host.respond depth) depth) s
        (.ok (reply, plain')) s' ∧
      (observed.call call).Ends (Run.perform (host.respond depth) depth) t
        (.ok (reply', observed)) t' ∧ reply.Agree reply' ∧ Paired plain' observed t' := by
  cases call with
  | get path =>
    obtain ⟨reply, reply', s', hget, hget', hagree⟩ := get_agrees host depth h path s
    exact ⟨reply, reply', plain, s', t, hget, hget', hagree, h⟩
  | set path argument => exact set_agrees host depth h path hcall s

/-- View models that stand at the same point take the same calls, and their replies agree one by one. -/
theorem session_agrees (h : Paired plain observed t) {calls : List Call}
    (hcalls : ∀ call ∈ calls, call.isProper = true) (s : Store ρ σ) :
    ∃ replies replies' s' t', (plain.session calls).Ends (Run.perform (host.respond depth) depth) s
        (.ok replies) s' ∧
      (observed.session calls).Ends (Run.perform (host.respond depth) depth) t (.ok replies') t' ∧
      List.Forall₂ Reply.Agree replies replies' := by
  induction calls generalizing plain s t with
  | nil => exact ⟨[], [], s, t, Script.ends_done _ s, Script.ends_done _ t, .nil⟩
  | cons call rest ih =>
    obtain ⟨hcall, hrest⟩ := List.forall_mem_cons.1 hcalls
    obtain ⟨reply, reply', plain', s₁, t₁, hcall, hcall', hagree, hpaired⟩ :=
      call_agrees host depth h hcall s
    obtain ⟨replies, replies', s', t', hsession, hsession', hagree'⟩ := ih hpaired hrest s₁
    exact ⟨reply :: replies, reply' :: replies', s', t',
      hcall.bind (hsession.bind (Script.ends_done _ s')),
      hcall'.bind (hsession'.bind (Script.ends_done _ t')), .cons hagree hagree'⟩

/-! ### From the data on -/

variable {config : Config} (resolver : Option (Resolver ρ σ)) (directives : Directives ρ)

/-- A view model that is mounted nowhere is built with its data as it is. -/
theorem ends_build_nowhere (hvalid : config.validate = .ok ()) (data : Json) (s : Store ρ σ) :
    (build data .nowhere config resolver directives).Ends (Run.perform (host.respond depth) depth) s
      (.ok { data := .plain data, root := none, config, watchers := [] }) s := by
  rw [build_nowhere hvalid]
  exact Script.ends_done _ s

/-- Building a view model on a tree without bindings only observes the data. -/
theorem ends_build_bare {tree : Tree} {node : NodeId} {ids : List NodeId}
    (hvalid : config.validate = .ok ()) (hidle : t.collector = none)
    (hstands : t.view.Stands tree node ids) (hbare : tree.isBare config = true)
    (hlevels : tree.levels ≤ depth) (data : Json) :
    ∃ vm t' root parts, (build data (.node node) config resolver directives).Ends
        (Run.perform (host.respond depth) depth) t (.ok vm) t' ∧
      vm.data = .reactive root ∧ t'.HoldsAlone data.normalize root parts := by
  have hnothing : t.HoldsAlone .null .null [] := ⟨⟨rfl, rfl⟩, .nil, nofun, nofun, hidle⟩
  obtain ⟨fresh, -, hfresh⟩ := hnothing.observe data
  let observed : Store ρ σ := { t with model := (Model.observe data t.model).2 }
  let root := (Model.observe data t.model).1
  have hstands' : observed.view.Stands tree node ids := hstands
  have hcompile : (Script.perform (.compile root config directives node)).Ends
      (Run.perform (host.respond depth) depth) observed (.ok []) (observed.addBinder root config).2 :=
    Script.ends_perform (Run.compile_bare hstands' hbare hlevels root)
  have hmount : (mount data config directives node).Ends (Run.perform (host.respond depth) depth) t
      (.ok { data := .reactive root, root := some node, config, watchers := [] })
      (observed.addBinder root config).2 :=
    (ends_observe host depth data t).bind (hcompile.bind (Script.ends_done _ _))
  refine ⟨{ data := .reactive root, root := some node, config, watchers := [] },
    (observed.addBinder root config).2, root, fresh, ?_, rfl, hfresh.holds, hfresh.nodup, hfresh.has, hfresh.quiet, hidle⟩
  rw [build_node hvalid]
  exact hmount

/-- A view model without a place and one on a tree without bindings agree: from the same data, the same calls
come back with the same errors or with results, and what is read and what is there afterwards is equal. -/
theorem sessions_agree {data : Json} (hdata : data.isProper = true) {calls : List Call}
    (hcalls : ∀ call ∈ calls, call.isProper = true) (hvalid : config.validate = .ok ())
    {tree : Tree} {node : NodeId} {ids : List NodeId} (hidle : t.collector = none)
    (hstands : t.view.Stands tree node ids) (hbare : tree.isBare config = true)
    (hlevels : tree.levels ≤ depth) (s : Store ρ σ) :
    ∃ replies replies' s' t',
      (do let vm ← build data .nowhere config resolver directives; vm.session calls).run host depth s =
        some (.ok replies, s') ∧
      (do let vm ← build data (.node node) config resolver directives; vm.session calls).run host depth t =
        some (.ok replies', t') ∧
      List.Forall₂ Reply.Agree replies replies' := by
  obtain ⟨observed, t₁, root, parts, hbuild, hobserved, hholds⟩ :=
    ends_build_bare host depth resolver directives hvalid hidle hstands hbare hlevels data
  have hpaired : Paired { data := .plain data, root := none, config, watchers := [] } observed t₁ :=
    ⟨data, data.normalize, root, parts, rfl, hobserved, hholds, Json.mirrors_normalize hdata⟩
  obtain ⟨replies, replies', s', t', hsession, hsession', hagree⟩ :=
    session_agrees host depth hpaired hcalls s
  have hbuild' := ends_build_nowhere host depth resolver directives hvalid data s
  refine ⟨replies, replies', s', t', ?_, ?_, hagree⟩
  · exact Script.Ends.runWith (hbuild'.bind hsession)
  · exact Script.Ends.runWith (hbuild.bind hsession')

end Calls

/-- The paragraph `<p>note</p>`, which binds nothing. -/
def plainNote : Tree := .element "p" [("class", "note")] [.text "note"]

/-- Calls that write a new key, replace an object by a leaf, and then fail on the way through it. -/
def editing : List Call :=
  [.set "user.age" (.number .zero), .get "user", .set "user" (.document (.array [.number (.int 1)])),
    .get "user.name", .set "missing.key" (.document .null)]

/-- The editing calls are answered alike without a mount and on a paragraph that binds nothing. -/
theorem sessions_agree_of_editing : ∃ replies replies' s' t',
    (do
      let vm ← build (.object [("user", .object [("name", .string "Ada")])]) .nowhere {} none {}
      vm.session editing).run ⟨fun _ _ => .done (.ok ())⟩ 2 ({ host := () } : Store Unit Unit) =
        some (.ok replies, s') ∧
    (do
      let vm ← build (.object [("user", .object [("name", .string "Ada")])])
        (.node (View.plant plainNote ({} : View Unit)).1) {} none {}
      vm.session editing).run ⟨fun _ _ => .done (.ok ())⟩ 2
        ({ view := (View.plant plainNote {}).2, host := () } : Store Unit Unit) =
        some (.ok replies', t') ∧
    List.Forall₂ Reply.Agree replies replies' := by
  obtain ⟨ids, hstands, -⟩ := View.plant_stands plainNote ({} : View Unit)
  exact sessions_agree _ 2 none {} (by decide) (by decide) (by decide) rfl hstands
    (by decide +kernel) (by decide) _

end ViewModel

end DataBinding
