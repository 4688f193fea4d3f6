import Mathlib.Data.List.Perm.Subperm
import Mathlib.Data.Option.Basic
import DataBinding.Json.AtPath
import DataBinding.Proofs.Keyed
import DataBinding.Proofs.Model.Equality
import DataBinding.Proofs.Number.Whole

/-!
# Documents as plain data and as observed data

Observing a document turns the numbers outside its arrays into doubles, and the document that is read back
writes those doubles anew: `Json.normalize` is the document after that. Apart from it a document of plain
data and the document of observed data that goes with it are equal, `Json.Mirrors`, and what is read and
written at a path keeps them so.

Documents are taken as reading makes them, `Json.isProper`: numbers are finite, and no object has a key
twice. Equality of such documents is equality at every key.
-/

set_option autoImplicit false

namespace DataBinding

/-- Two outcomes are both errors, and the same one, or both results, and related. -/
inductive SameOutcome {α β : Type} (R : α → β → Prop) : Except Error α → Except Error β → Prop where
  | error (e : Error) : SameOutcome R (.error e) (.error e)
  | ok {a : α} {b : β} (h : R a b) : SameOutcome R (.ok a) (.ok b)

/-- Two outcomes are alike in exactly two ways: with one error, or with related results. -/
theorem sameOutcome_iff {α β : Type} {R : α → β → Prop} {x : Except Error α} {y : Except Error β} :
    SameOutcome R x y ↔
      (∃ e, x = .error e ∧ y = .error e) ∨ ∃ a b, x = .ok a ∧ y = .ok b ∧ R a b := by
  constructor
  · intro h
    cases h with
    | error e => exact .inl ⟨e, rfl, rfl⟩
    | ok h => exact .inr ⟨_, _, rfl, rfl, h⟩
  · rintro (⟨e, rfl, rfl⟩ | ⟨a, b, rfl, rfl, h⟩)
    · exact .error e
    · exact .ok h

/-- Two optional things are related if both are missing, or both are there and are. -/
theorem rel_iff {α β : Type} {R : α → β → Prop} {x : Option α} {y : Option β} :
    Option.Rel R x y ↔ (x = none ∧ y = none) ∨ ∃ a b, x = some a ∧ y = some b ∧ R a b := by
  constructor
  · intro h
    cases h with
    | none => exact .inl ⟨rfl, rfl⟩
    | some h => exact .inr ⟨_, _, rfl, rfl, h⟩
  · rintro (⟨rfl, rfl⟩ | ⟨a, b, rfl, rfl, h⟩)
    · exact .none
    · exact .some h

/-- Of two related options one is empty if and only if the other is. -/
theorem none_iff_of_rel {α β : Type} {R : α → β → Prop} {x : Option α} {y : Option β}
    (h : Option.Rel R x y) : x = none ↔ y = none := by
  cases h <;> simp

namespace JsonNumber

/-- Whether a number is neither a NaN nor infinite. -/
def isFinite : JsonNumber → Bool
  | .int _ => true
  | .double d => d.units?.isSome

/-- A finite number equals itself. A NaN would not, so finiteness is needed. -/
theorem same_self {n : JsonNumber} (h : n.isFinite = true) : n.same n = true := by
  cases n with
  | int value => exact beq_self_eq_true value
  | double d =>
    refine Double.numEq_self ?_
    rintro rfl
    cases h

/-- Equal numbers are written in the same way once they are doubles. -/
theorem ofDouble?_of_same {a b : JsonNumber} (h : a.same b = true) :
    ofDouble? a.toDouble = ofDouble? b.toDouble := by
  cases a with
  | int n =>
    cases b with
    | int m => rw [show n = m from eq_of_beq h]
    | double d => cases h
  | double d =>
    cases b with
    | int m => cases h
    | double e => exact JsonNumber.ofDouble?_of_numEq h

/-- Only finite doubles can be written. -/
theorem isFinite_of_ofDouble? {d : Double} {n : JsonNumber} (h : ofDouble? d = some n) :
    n.isFinite = true := by
  unfold ofDouble? at h
  split at h
  · next k hk =>
    split at h
    · cases h
      rfl
    · cases h
      unfold Double.toInt? at hk
      obtain ⟨units, hunits, -⟩ := Option.bind_eq_some_iff.1 hk
      exact Option.isSome_iff_exists.2 ⟨units, hunits⟩
  · split at h
    · next hsome =>
      cases h
      exact hsome
    · cases h

end JsonNumber

namespace Json

/-- Induction on a document: what is to be shown of an array or an object is known of each of its parts. -/
theorem induction {motive : Json → Prop} (null : motive .null) (bool : ∀ value, motive (.bool value))
    (number : ∀ value, motive (.number value)) (string : ∀ text, motive (.string text))
    (array : ∀ items, (∀ item ∈ items, motive item) → motive (.array items))
    (object : ∀ members, (∀ entry ∈ members, motive entry.2) → motive (.object members))
    (json : Json) : motive json :=
  Json.rec (motive_1 := motive) (motive_2 := fun items => ∀ item ∈ items, motive item)
    (motive_3 := fun members => ∀ entry ∈ members, motive entry.2)
    (motive_4 := fun entry => motive entry.2) null bool number string array object
    (fun _ h => absurd h List.not_mem_nil)
    (fun _ _ hhead htail => List.forall_mem_cons.2 ⟨hhead, htail⟩)
    (fun _ h => absurd h List.not_mem_nil)
    (fun _ _ hhead htail => List.forall_mem_cons.2 ⟨hhead, htail⟩)
    (fun _ _ h => h) json

/-! ## Proper documents -/

mutual

/-- A document as reading makes it: its numbers are finite, and no object has a key twice. -/
def isProper : Json → Bool
  | .number n => n.isFinite
  | .array items => allProper items
  | .object members => membersProper members
  | _ => true

/-- Whether all items of an array are proper. -/
def allProper : List Json → Bool
  | [] => true
  | item :: rest => item.isProper && allProper rest

/-- Whether all members of an object are proper, and their keys distinct. -/
def membersProper : List (String × Json) → Bool
  | [] => true
  | (key, json) :: rest =>
    !(rest.map Prod.fst).contains key && json.isProper && membersProper rest

end

/-- An array is proper if and only if all of its items are. -/
theorem isProper_array {items : List Json} :
    (Json.array items).isProper = true ↔ ∀ item ∈ items, item.isProper = true := by
  change allProper items = true ↔ _
  induction items with
  | nil => simp [allProper]
  | cons item rest ih => simp [allProper, ih]

/-- An object is proper if and only if its keys are distinct and all of its values are proper. -/
theorem isProper_object {members : List (String × Json)} :
    (Json.object members).isProper = true ↔
      (members.map Prod.fst).Nodup ∧ ∀ entry ∈ members, entry.2.isProper = true := by
  change membersProper members = true ↔ _
  induction members with
  | nil => simp [membersProper]
  | cons entry rest ih =>
    obtain ⟨key, json⟩ := entry
    simp only [membersProper, Bool.and_eq_true, ih, List.map_cons, List.nodup_cons,
      List.forall_mem_cons, Bool.not_eq_true', List.contains_eq_mem, decide_eq_false_iff_not]
    tauto

/-- What an object holds under a key is proper. -/
theorem isProper_of_get? {members : List (String × Json)} {key : String} {json : Json}
    (hproper : (Json.object members).isProper = true) (h : Keyed.get? key members = some json) :
    json.isProper = true :=
  (isProper_object.1 hproper).2 _ (Keyed.mem_of_get? h)

/-! ## Equality at every key -/

/-- An array equals itself if each of its items does. -/
theorem sameItems_self {items : List Json} (h : ∀ item ∈ items, item.same item = true) :
    sameItems items items = true := by
  induction items with
  | nil => rfl
  | cons item rest ih =>
    rw [List.forall_mem_cons] at h
    simp only [sameItems, h.1, ih h.2, Bool.and_self]

/-- Members are the same if each of them is found among the others under its key, with an equal value. -/
theorem sameMembers_iff {as bs : List (String × Json)} :
    sameMembers as bs = true ↔
      ∀ entry ∈ as, ∃ b, Keyed.get? entry.1 bs = some b ∧ entry.2.same b = true := by
  induction as with
  | nil => simp [sameMembers]
  | cons entry rest ih =>
    obtain ⟨key, a⟩ := entry
    simp only [sameMembers, Bool.and_eq_true, ih, List.forall_mem_cons]
    refine and_congr_left fun _ => ?_
    cases Keyed.get? key bs with
    | none => simp
    | some b => simp

/-- Objects with distinct keys are equal if they hold equal documents under every key. -/
theorem same_object {as bs : List (String × Json)} (has : (as.map Prod.fst).Nodup)
    (hbs : (bs.map Prod.fst).Nodup) :
    (Json.object as).same (.object bs) = true ↔ ∀ key,
      Option.Rel (fun a b => a.same b = true) (Keyed.get? key as) (Keyed.get? key bs) := by
  simp only [same, Bool.and_eq_true, beq_iff_eq, sameMembers_iff]
  constructor
  · rintro ⟨hlength, hmembers⟩ key
    cases ha : Keyed.get? key as with
    | some a =>
      obtain ⟨b, hb, hsame⟩ := hmembers _ (Keyed.mem_of_get? ha)
      rw [hb]
      exact .some hsame
    | none =>
      -- The keys on the right are as many as those on the left, all of which are among them.
      have hsubset : as.map Prod.fst ⊆ bs.map Prod.fst := by
        intro k hk
        obtain ⟨entry, hentry, rfl⟩ := List.mem_map.1 hk
        obtain ⟨b, hb, -⟩ := hmembers entry hentry
        exact List.mem_map.2 ⟨_, Keyed.mem_of_get? hb, rfl⟩
      have hperm : (as.map Prod.fst).Perm (bs.map Prod.fst) :=
        (List.subperm_of_subset has hsubset).perm_of_length_le (by simp [hlength])
      have hnone : Keyed.get? key bs = none := by
        rw [Keyed.get?_eq_none_iff] at ha ⊢
        exact fun hmem => ha (hperm.mem_iff.2 hmem)
      rw [hnone]
      exact .none
  · intro h
    have hkeys : (as.map Prod.fst).Perm (bs.map Prod.fst) := by
      refine (List.perm_ext_iff_of_nodup has hbs).2 fun key => not_iff_not.1 ?_
      rw [← Keyed.get?_eq_none_iff, ← Keyed.get?_eq_none_iff]
      exact none_iff_of_rel (h key)
    refine ⟨by simpa using hkeys.length_eq, fun entry hentry => ?_⟩
    have hkey := h entry.1
    rw [Keyed.get?_of_mem has hentry] at hkey
    obtain ⟨hnone, -⟩ | ⟨a, b, ha, hb, hsame⟩ := rel_iff.1 hkey
    · cases hnone
    · cases ha
      exact ⟨b, hb, hsame⟩

/-- A proper document equals itself. -/
theorem same_self {json : Json} (h : json.isProper = true) : json.same json = true := by
  induction json using Json.induction with
  | null => rfl
  | bool value => exact beq_self_eq_true value
  | number n => exact JsonNumber.same_self h
  | string text => exact beq_self_eq_true text
  | array items ih =>
    exact sameItems_self fun item hitem => ih item hitem (isProper_array.1 h item hitem)
  | object members ih =>
    obtain ⟨hnodup, hproper⟩ := isProper_object.1 h
    refine (same_object hnodup hnodup).2 fun key => ?_
    cases hget : Keyed.get? key members with
    | none => exact .none
    | some json =>
      have hmem := Keyed.mem_of_get? hget
      exact .some (ih _ hmem (hproper _ hmem))

/-! ## Normal documents -/

mutual

/-- A document once it has been observed and read back: the numbers outside its arrays have become doubles
and are written anew. -/
def normalize : Json → Json
  | .number n => .ofDouble n.toDouble
  | .object members => .object (normalizeMembers members)
  | json => json

/-- The members of an object once it has been observed and read back. -/
def normalizeMembers : List (String × Json) → List (String × Json)
  | [] => []
  | (key, json) :: rest => (key, json.normalize) :: normalizeMembers rest

end

/-- The members of an observed object are normalized one by one. -/
theorem normalizeMembers_eq_map (members : List (String × Json)) :
    normalizeMembers members = members.map fun entry => (entry.1, entry.2.normalize) := by
  induction members with
  | nil => rfl
  | cons entry rest ih => rw [normalizeMembers, ih, List.map_cons]

/-- The keys of an object and their order survive observing. -/
theorem keys_normalizeMembers (members : List (String × Json)) :
    (normalizeMembers members).map Prod.fst = members.map Prod.fst := by
  rw [normalizeMembers_eq_map, List.map_map]
  rfl

/-- What stands under a key of an observed object is the normal form of what stood there. -/
theorem get?_normalizeMembers (key : String) (members : List (String × Json)) :
    Keyed.get? key (normalizeMembers members) = (Keyed.get? key members).map normalize := by
  rw [normalizeMembers_eq_map]
  exact Keyed.get?_map normalize key members

/-- A double that is written anew is in normal form. -/
theorem normalize_ofDouble (d : Double) : (Json.ofDouble d).normalize = .ofDouble d := by
  unfold ofDouble
  split
  · next n hn => simp only [normalize, ofDouble, JsonNumber.ofDouble?_toDouble hn]
  · rfl

/-- A double is written as a proper document; those that are no numbers become null. -/
theorem isProper_ofDouble (d : Double) : (Json.ofDouble d).isProper = true := by
  unfold ofDouble
  split
  · next n hn => exact JsonNumber.isFinite_of_ofDouble? hn
  · rfl

/-- Observing and reading back again makes no difference. -/
theorem normalize_normalize (json : Json) : json.normalize.normalize = json.normalize := by
  induction json using Json.induction with
  | number n => exact normalize_ofDouble n.toDouble
  | object members ih =>
    simp only [normalize, normalizeMembers_eq_map, List.map_map]
    refine congrArg Json.object (List.map_congr_left fun entry hentry => ?_)
    exact congrArg (Prod.mk entry.1) (ih entry hentry)
  | _ => rfl

/-- A number stands in a document, not inside an array. -/
inductive HasNumber (n : JsonNumber) : Json → Prop where
  | number : HasNumber n (.number n)
  | object {members : List (String × Json)} {entry : String × Json} (hentry : entry ∈ members)
      (h : HasNumber n entry.2) : HasNumber n (.object members)

/-- The numbers of an object are those of its values. -/
theorem hasNumber_object {n : JsonNumber} {members : List (String × Json)} :
    HasNumber n (.object members) ↔ ∃ entry ∈ members, HasNumber n entry.2 :=
  ⟨fun | .object hentry h => ⟨_, hentry, h⟩, fun ⟨_, hentry, h⟩ => .object hentry h⟩

/-- A document is left as it is exactly if its numbers outside arrays are written as they are. -/
theorem normalize_eq_self_iff {json : Json} :
    json.normalize = json ↔ ∀ n, json.HasNumber n → JsonNumber.ofDouble? n.toDouble = some n := by
  induction json using Json.induction with
  | number n =>
    have hnumber : ∀ {other}, HasNumber other (.number n) ↔ other = n := fun {_} =>
      ⟨fun | .number => rfl, fun h => h ▸ .number⟩
    simp only [hnumber, forall_eq, normalize, ofDouble]
    cases JsonNumber.ofDouble? n.toDouble <;> simp
  | object members ih =>
    have hmembers : (members.map fun entry => (entry.1, entry.2.normalize)) = members ↔
        ∀ entry ∈ members, entry.2.normalize = entry.2 := by
      conv_lhs => rw [← List.map_id members, List.map_map, List.map_inj_left]
      exact forall₂_congr fun entry _ => Prod.ext_iff.trans (and_iff_right rfl)
    simp only [normalize, normalizeMembers_eq_map, Json.object.injEq, hasNumber_object, hmembers]
    constructor
    · rintro h n ⟨entry, hentry, hnumber⟩
      exact (ih entry hentry).1 (h entry hentry) n hnumber
    · exact fun h entry hentry => (ih entry hentry).2 fun n hnumber => h n ⟨entry, hentry, hnumber⟩
  | _ => exact ⟨fun _ _ h => (nomatch h), fun _ => rfl⟩

/-- Observing keeps a document proper. -/
theorem isProper_normalize {json : Json} (h : json.isProper = true) :
    json.normalize.isProper = true := by
  induction json using Json.induction with
  | number n => exact isProper_ofDouble n.toDouble
  | object members ih =>
    obtain ⟨hnodup, hproper⟩ := isProper_object.1 h
    refine isProper_object.2 ⟨by rwa [keys_normalizeMembers], ?_⟩
    rw [normalizeMembers_eq_map, List.forall_mem_map]
    exact fun entry hentry => ih entry hentry (hproper entry hentry)
  | _ => exact h

/-- Equal documents are still equal once they are observed and read back. -/
theorem same_normalize {a b : Json} (ha : a.isProper = true) (hb : b.isProper = true)
    (h : a.same b = true) : a.normalize.same b.normalize = true := by
  induction a using Json.induction generalizing b with
  | number n =>
    cases b with
    | number m =>
      have heq : (Json.number n).normalize = (Json.number m).normalize := by
        simp only [normalize, ofDouble, JsonNumber.ofDouble?_of_same h]
      rw [heq]
      exact same_self (isProper_normalize hb)
    | _ => cases h
  | object as ih =>
    cases b with
    | object bs =>
      have has := (isProper_object.1 ha).1
      have hbs := (isProper_object.1 hb).1
      rw [same_object has hbs] at h
      simp only [normalize]
      refine (same_object (by rwa [keys_normalizeMembers]) (by rwa [keys_normalizeMembers])).2
        fun key => ?_
      rw [get?_normalizeMembers, get?_normalizeMembers]
      obtain ⟨hka, hkb⟩ | ⟨a, b, hka, hkb, hsame⟩ := rel_iff.1 (h key) <;> rw [hka, hkb]
      · exact .none
      · exact .some (ih _ (Keyed.mem_of_get? hka) (isProper_of_get? ha hka)
          (isProper_of_get? hb hkb) hsame)
    | _ => cases h
  | _ => cases b <;> first | exact h | cases h

/-! ## Documents of plain and of observed data -/

/-- The document of observed data that goes with a document of plain data: equal to it as read back. -/
structure Mirrors (plain observed : Json) : Prop where
  properPlain : plain.isProper = true
  properObserved : observed.isProper = true
  same : plain.normalize.same observed = true

/-- A document that was read back goes with what it was read back from, and with itself. -/
theorem mirrors_normalize {json : Json} (h : json.isProper = true) :
    Mirrors json json.normalize where
  properPlain := h
  properObserved := isProper_normalize h
  same := same_self (isProper_normalize h)

/-- A document goes with what it equals, if that was read back. -/
theorem mirrors_of_same {json stored : Json} (hjson : json.isProper = true)
    (hstored : stored.isProper = true) (hnormal : stored.normalize = stored)
    (h : json.same stored = true) : Mirrors json stored where
  properPlain := hjson
  properObserved := hstored
  same := hnormal ▸ same_normalize hjson hstored h

/-- Objects go with each other if what they hold under every key does. -/
theorem mirrors_object {as bs : List (String × Json)} :
    Mirrors (.object as) (.object bs) ↔ (as.map Prod.fst).Nodup ∧ (bs.map Prod.fst).Nodup ∧
      ∀ key, Option.Rel Mirrors (Keyed.get? key as) (Keyed.get? key bs) := by
  have hkeys := keys_normalizeMembers as
  constructor
  · rintro ⟨has, hbs, hsame⟩
    have hnodup := (isProper_object.1 has).1
    have hnodup' := (isProper_object.1 hbs).1
    refine ⟨hnodup, hnodup', fun key => ?_⟩
    have hkey := (same_object (hkeys ▸ hnodup) hnodup').1 hsame key
    rw [get?_normalizeMembers] at hkey
    obtain ⟨ha, hb⟩ | ⟨a', b, ha, hb, hab⟩ := rel_iff.1 hkey
    · rw [Option.map_eq_none_iff.1 ha, hb]
      exact .none
    · obtain ⟨a, hget, rfl⟩ := Option.map_eq_some_iff.1 ha
      rw [hget, hb]
      exact .some ⟨isProper_of_get? has hget, isProper_of_get? hbs hb, hab⟩
  · rintro ⟨has, hbs, hrel⟩
    refine ⟨isProper_object.2 ⟨has, fun entry hentry => ?_⟩,
      isProper_object.2 ⟨hbs, fun entry hentry => ?_⟩, ?_⟩
    · have hget := Keyed.get?_of_mem has hentry
      obtain ⟨ha, -⟩ | ⟨a, b, ha, -, hab⟩ := rel_iff.1 (hrel entry.1) <;> rw [hget] at ha <;> cases ha
      exact hab.properPlain
    · have hget := Keyed.get?_of_mem hbs hentry
      obtain ⟨-, hb⟩ | ⟨a, b, -, hb, hab⟩ := rel_iff.1 (hrel entry.1) <;> rw [hget] at hb <;> cases hb
      exact hab.properObserved
    · refine (same_object (hkeys ▸ has) hbs).2 fun key => ?_
      rw [get?_normalizeMembers]
      obtain ⟨ha, hb⟩ | ⟨a, b, ha, hb, hab⟩ := rel_iff.1 (hrel key) <;> rw [ha, hb]
      · exact .none
      · exact .some hab.same

/-- Whether a document is an object. -/
def isObject : Json → Bool
  | .object _ => true
  | _ => false

/-- A number is no object. -/
theorem isObject_ofDouble (d : Double) : (Json.ofDouble d).isObject = false := by
  unfold ofDouble
  split <;> rfl

/-- Observing makes no object out of anything else, and nothing else out of an object. -/
theorem isObject_normalize (json : Json) : json.normalize.isObject = json.isObject := by
  cases json with
  | number n => exact isObject_ofDouble n.toDouble
  | _ => rfl

/-- Of two equal documents one is an object if the other is. -/
theorem isObject_of_same {a b : Json} (h : a.same b = true) : a.isObject = b.isObject := by
  cases a <;> cases b <;> first | rfl | cases h

/-- Only objects have members. -/
theorem member?_of_not_object {json : Json} (h : json.isObject = false) (key : String) :
    json.member? key = none := by
  cases json with
  | object members => cases h
  | _ => rfl

/-- Nothing is stored in what is no object. -/
theorem putAt_of_not_object {json : Json} (h : json.isObject = false) (last : String) (value : Json)
    (keys : List String) : putAt last value keys json = json := by
  cases json with
  | object members => cases h
  | _ => cases keys <;> rfl

/-- A path ends with an error at the first key that is missing, and the error names that key. -/
theorem followKeys_missing {json : Json} {key : String} (h : json.member? key = none) (text : String)
    (rest : List String) :
    followKeys text (key :: rest) json = .error (.pathResolution text key) := by
  rw [followKeys, h]

/-- A path goes on from what stands under its first key. -/
theorem followKeys_found {json next : Json} {key : String} (h : json.member? key = some next)
    (text : String) (rest : List String) :
    followKeys text (key :: rest) json = followKeys text rest next := by
  rw [followKeys, h]

section Container

variable {path : Path} {json : Json}

/-- A path whose parents cannot be followed has no container, for the same reason. -/
theorem container_error {e : Error} (h : followKeys path.text path.parents json = .error e) :
    container path json = .error e := by
  unfold container
  rw [h]
  rfl

/-- The container of a path is the object that its parents lead to. -/
theorem container_ok {members : List (String × Json)}
    (h : followKeys path.text path.parents json = .ok (.object members)) :
    container path json = .ok members := by
  unfold container
  rw [h]
  rfl

/-- If the parents of a path lead to anything but an object, the error names the last key. -/
theorem container_not_object {found : Json} (h : followKeys path.text path.parents json = .ok found)
    (hfound : found.isObject = false) :
    container path json = .error (.pathResolution path.text path.last) := by
  unfold container
  rw [h]
  cases found with
  | object members => cases hfound
  | _ => rfl

/-- The parents of a path lead to its container. -/
theorem followKeys_of_container {members : List (String × Json)}
    (h : container path json = .ok members) :
    followKeys path.text path.parents json = .ok (.object members) := by
  cases hfollow : followKeys path.text path.parents json with
  | error e =>
    rw [container_error hfollow] at h
    cases h
  | ok found =>
    cases found with
    | object other =>
      rw [container_ok hfollow] at h
      cases h
      rfl
    | _ =>
      rw [container_not_object hfollow rfl] at h
      cases h

end Container

/-- Writing what is there already changes nothing. -/
theorem putAt_self {text last : String} {keys : List String} {json stored : Json}
    {members : List (String × Json)} (hfollow : followKeys text keys json = .ok (.object members))
    (hstored : Keyed.get? last members = some stored) : putAt last stored keys json = json := by
  induction keys generalizing json with
  | nil =>
    cases hfollow
    exact congrArg Json.object (Keyed.put_of_get? hstored)
  | cons key rest ih =>
    cases json with
    | object outer =>
      cases hget : (Json.object outer).member? key with
      | none =>
        rw [followKeys_missing hget] at hfollow
        cases hfollow
      | some next =>
        rw [followKeys_found hget] at hfollow
        change Keyed.get? key outer = some next at hget
        unfold putAt
        rw [hget]
        simp only [ih hfollow, Keyed.put_of_get? hget]
    | _ => cases hfollow

/-- Objects that go with each other still do once documents that do are stored under the same key. -/
theorem mirrors_put {as bs : List (String × Json)} (h : Mirrors (.object as) (.object bs))
    {value value' : Json} (hvalue : Mirrors value value') (key : String) :
    Mirrors (.object (Keyed.put key value as)) (.object (Keyed.put key value' bs)) := by
  obtain ⟨has, hbs, hrel⟩ := mirrors_object.1 h
  refine mirrors_object.2 ⟨Keyed.nodup_put has key value, Keyed.nodup_put hbs key value', fun k => ?_⟩
  rw [Keyed.get?_put, Keyed.get?_put]
  split
  · exact .some hvalue
  · exact hrel k

namespace Mirrors

variable {plain observed : Json}

/-- Both documents are objects or neither is. -/
theorem cases (h : Mirrors plain observed) :
    (∃ as bs, plain = .object as ∧ observed = .object bs) ∨
      (plain.isObject = false ∧ observed.isObject = false) := by
  have hsame := isObject_of_same h.same
  rw [isObject_normalize] at hsame
  cases plain with
  | object as =>
    cases observed with
    | object bs => exact .inl ⟨as, bs, rfl, rfl⟩
    | _ => cases hsame
  | _ => exact .inr ⟨rfl, hsame.symm⟩

/-- Plain and observed data that mirror each other do so under every key, and lack the same keys. -/
theorem member? (h : Mirrors plain observed) (key : String) :
    Option.Rel Mirrors (plain.member? key) (observed.member? key) := by
  obtain ⟨as, bs, rfl, rfl⟩ | ⟨hplain, hobserved⟩ := h.cases
  · exact (mirrors_object.1 h).2.2 key
  · rw [member?_of_not_object hplain, member?_of_not_object hobserved]
    exact .none

/-- The same keys lead to documents that go with each other, or fail in the same way. -/
theorem followKeys (h : Mirrors plain observed) (text : String) (keys : List String) :
    SameOutcome Mirrors (Json.followKeys text keys plain) (Json.followKeys text keys observed) := by
  induction keys generalizing plain observed with
  | nil => exact .ok h
  | cons key rest ih =>
    obtain ⟨ha, hb⟩ | ⟨a, b, ha, hb, hab⟩ := rel_iff.1 (h.member? key)
    · rw [followKeys_missing ha, followKeys_missing hb]
      exact .error _
    · rw [followKeys_found ha, followKeys_found hb]
      exact ih hab

/-- Mirroring data have mirroring containers for every path, or lack them with the same error. -/
theorem container (h : Mirrors plain observed) (path : Path) :
    SameOutcome (fun as bs => Mirrors (.object as) (.object bs)) (Json.container path plain)
      (Json.container path observed) := by
  obtain ⟨e, ha, hb⟩ | ⟨a, b, ha, hb, hab⟩ :=
    sameOutcome_iff.1 (h.followKeys path.text path.parents)
  · rw [container_error ha, container_error hb]
    exact .error e
  · obtain ⟨as, bs, rfl, rfl⟩ | ⟨hplain, hobserved⟩ := hab.cases
    · rw [container_ok ha, container_ok hb]
      exact .ok hab
    · rw [container_not_object ha hplain, container_not_object hb hobserved]
      exact .error _

/-- Documents that go with each other still do after writes at the same place of documents that do. -/
theorem putAt (h : Mirrors plain observed) {value value' : Json} (hvalue : Mirrors value value')
    (last : String) (keys : List String) :
    Mirrors (Json.putAt last value keys plain) (Json.putAt last value' keys observed) := by
  induction keys generalizing plain observed with
  | nil =>
    obtain ⟨as, bs, rfl, rfl⟩ | ⟨hplain, hobserved⟩ := h.cases
    · exact mirrors_put h hvalue last
    · rwa [putAt_of_not_object hplain, putAt_of_not_object hobserved]
  | cons key rest ih =>
    obtain ⟨as, bs, rfl, rfl⟩ | ⟨hplain, hobserved⟩ := h.cases
    · unfold Json.putAt
      obtain ⟨ha, hb⟩ | ⟨a, b, ha, hb, hab⟩ := rel_iff.1 ((mirrors_object.1 h).2.2 key) <;>
        rw [ha, hb]
      · exact h
      · exact mirrors_put h (ih hab) key
    · rwa [putAt_of_not_object hplain, putAt_of_not_object hobserved]

end Mirrors

/-- The object that a path leads to in a proper document is proper. -/
theorem isProper_of_container {path : Path} {json : Json} {members : List (String × Json)}
    (hproper : json.isProper = true) (h : container path json = .ok members) :
    (Json.object members).isProper = true := by
  obtain ⟨e, herror, -⟩ | ⟨as, bs, hok, -, hmirrors⟩ :=
    sameOutcome_iff.1 ((mirrors_normalize hproper).container path)
  · rw [h] at herror
    cases herror
  · rw [h] at hok
    cases hok
    exact hmirrors.properPlain

/-! ## Reading and writing at a path -/

/-- What a document comes to at a path. -/
def readAt (json : Json) (text : String) : Except Error Json := do
  let path ← Path.parse text
  followKeys path.text path.segments json

/-- A document once another one is stored at a path. -/
def writeAt (json : Json) (text : String) (stored : Json) : Except Error Json := do
  let path ← Path.parse text
  let _ ← container path json
  return putAt path.last stored path.parents json

section Paths

variable {json stored : Json} {text : String}

/-- A text that is no path is refused in reading, with the error of parsing it. -/
theorem readAt_invalid {e : Error} (h : Path.parse text = .error e) : json.readAt text = .error e := by
  unfold readAt
  rw [h]
  rfl

/-- Reading at a path follows its keys from the root. -/
theorem readAt_valid {path : Path} (h : Path.parse text = .ok path) :
    json.readAt text = followKeys path.text path.segments json := by
  unfold readAt
  rw [h]
  rfl

/-- A text that is no path is refused in writing, with the error of parsing it. -/
theorem writeAt_invalid {e : Error} (h : Path.parse text = .error e) :
    json.writeAt text stored = .error e := by
  unfold writeAt
  rw [h]
  rfl

/-- A write without a container fails for want of it. -/
theorem writeAt_error {path : Path} {e : Error} (h : Path.parse text = .ok path)
    (hcontainer : container path json = .error e) : json.writeAt text stored = .error e := by
  unfold writeAt
  rw [h]
  change (container path json).bind _ = _
  rw [hcontainer]
  rfl

/-- A write puts the new document under the last key of the container. -/
theorem writeAt_ok {path : Path} {members : List (String × Json)} (h : Path.parse text = .ok path)
    (hcontainer : container path json = .ok members) :
    json.writeAt text stored = .ok (putAt path.last stored path.parents json) := by
  unfold writeAt
  rw [h]
  change (container path json).bind _ = _
  rw [hcontainer]
  rfl

/-- A document with what is there already stored at a path. -/
theorem writeAt_self {path : Path} {members : List (String × Json)} (h : Path.parse text = .ok path)
    (hcontainer : container path json = .ok members) (hget : Keyed.get? path.last members = some stored) :
    json.writeAt text stored = .ok json := by
  rw [writeAt_ok h hcontainer, putAt_self (followKeys_of_container hcontainer) hget]

end Paths

namespace Mirrors

variable {plain observed : Json}

/-- Reading at a path gives mirroring documents or the same error on plain and on observed data. -/
theorem readAt (h : Mirrors plain observed) (text : String) :
    SameOutcome Mirrors (plain.readAt text) (observed.readAt text) := by
  cases hparse : Path.parse text with
  | error e =>
    rw [readAt_invalid hparse, readAt_invalid hparse]
    exact .error e
  | ok path =>
    rw [readAt_valid hparse, readAt_valid hparse]
    exact h.followKeys path.text path.segments

/-- Writing mirroring documents at a path keeps data mirroring, or fails on both with the same error. -/
theorem writeAt (h : Mirrors plain observed) {value value' : Json} (hvalue : Mirrors value value')
    (text : String) :
    SameOutcome Mirrors (plain.writeAt text value) (observed.writeAt text value') := by
  cases hparse : Path.parse text with
  | error e =>
    rw [writeAt_invalid hparse, writeAt_invalid hparse]
    exact .error e
  | ok path =>
    obtain ⟨e, ha, hb⟩ | ⟨as, bs, ha, hb, -⟩ := sameOutcome_iff.1 (h.container path)
    · rw [writeAt_error hparse ha, writeAt_error hparse hb]
      exact .error e
    · rw [writeAt_ok hparse ha, writeAt_ok hparse hb]
      exact .ok (h.putAt hvalue path.last path.parents)

end Mirrors

end Json

end DataBinding
