import Mathlib
import DataBinding.Config
import DataBinding.Proofs.Json.ReadBack

/-!
# Reading configurations

A usable configuration is read back from its text, and whatever is read is usable. Of an object only the
values of the known members count: `Json.Written.given` is what an object gives for a key, with the default where the key
is left out, and two objects that give the same are read as the same configuration. The order of the members
and members with other keys do not show in what is given.

A key is a text. One with an escape for half of a surrogate pair is none, and an object with such a key is
refused, whatever its known members are.
-/

set_option autoImplicit false

namespace DataBinding

open Json (Written)

namespace Json.Written

/-- The members of an object; nothing else has any. -/
def entries : Written → List (Option String × Written)
  | .object members => members
  | _ => []

/-- The value of the first member with a key. -/
def lookup (key : String) (members : List (Option String × Written)) : Option Written :=
  (members.find? (·.1 == some key)).map Prod.snd

/-- What an object gives for a key: the value of its member, or of the member of the standard object. -/
def given (standard : Written) (members : List (Option String × Written)) (key : String) : Written :=
  ((lookup key members).or (lookup key standard.entries)).getD .null

variable {names : List String} {key : String} {members members' : List (Option String × Written)}

/-- Every key is a text. -/
def Spelled (members : List (Option String × Written)) : Prop := ∀ member ∈ members, member.1.isSome = true

/-- None of these keys occurs twice. -/
def Once (names : List String) (members : List (Option String × Written)) : Prop :=
  ∀ key ∈ names, (members.filter (·.1 == some key)).length ≤ 1

instance : Decidable (Spelled members) := inferInstanceAs (Decidable (∀ member ∈ members, _))

instance : Decidable (Once names members) := inferInstanceAs (Decidable (∀ key ∈ names, _))

/-- Two objects give the same for these keys. -/
def GiveSame (standard : Written) (names : List String)
    (members members' : List (Option String × Written)) : Prop :=
  ∀ key ∈ names, given standard members key = given standard members' key

/-! ## Known members -/

/-- The member that is found is the first of those with the key. -/
theorem lookup_eq_head? (key : String) (members : List (Option String × Written)) :
    lookup key members = (members.filter (·.1 == some key)).head?.map Prod.snd := by
  rw [lookup, List.head?_filter]

/-- A first member with the key is the one that is found. -/
theorem lookup_cons_self (key : String) (value : Written) (members : List (Option String × Written)) :
    lookup key ((some key, value) :: members) = some value := by
  rw [lookup, List.find?_cons_of_pos (by simp)]
  rfl

/-- A first member with another key is passed over. -/
theorem lookup_cons_of_ne {other : String} (hne : key ≠ other) (value : Written)
    (members : List (Option String × Written)) :
    lookup other ((some key, value) :: members) = lookup other members := by
  rw [lookup, lookup, List.find?_cons_of_neg (by simp [hne])]

/-- A key that does not occur twice is known by its only member, if it has one. -/
theorem known?_eq_lookup (honce : (members.filter (·.1 == some key)).length ≤ 1) :
    known? members key = some (lookup key members) := by
  rw [known?, lookup_eq_head?]
  generalize members.filter (·.1 == some key) = found at honce
  match found with
  | [] => rfl
  | [member] => rfl
  | first :: second :: rest =>
    rw [List.length_cons, List.length_cons] at honce
    omega

/-- An object whose keys are texts, and which has no field twice, has the fields that are looked up. -/
theorem fields?_object (hspelled : Spelled members) (honce : Once names members) :
    (Written.object members).fields? names = some (names.map (lookup · members)) := by
  have hall : members.all (·.1.isSome) = true := List.all_eq_true.2 hspelled
  rw [fields?, if_pos hall]
  have hknown : ∀ key ∈ names, known? members key = some (lookup key members) :=
    fun key hkey => known?_eq_lookup (honce key hkey)
  clear honce hall
  induction names with
  | nil => rfl
  | cons key names ih =>
    obtain ⟨hkey, hrest⟩ := List.forall_mem_cons.1 hknown
    rw [List.mapM_cons, hkey, ih hrest]
    rfl

/-- An object one of whose keys is no text has no fields at all. -/
theorem fields?_unspelled (h : ¬ Spelled members) : (Written.object members).fields? names = none := by
  rw [fields?]
  exact if_neg fun hall => h (List.all_eq_true.1 hall)

/-- A field that is left out is read as its value in the standard object. -/
theorem orDefault_eq {α : Type} (default : α) (decode : Written → Option α) (standard : Written)
    (key : String) (hstandard : (lookup key standard.entries).bind decode = some default)
    (members : List (Option String × Written)) :
    orDefault default decode (lookup key members) = decode (given standard members key) := by
  obtain ⟨value, hvalue, hdecode⟩ := Option.bind_eq_some_iff.1 hstandard
  rw [given, hvalue]
  cases lookup key members with
  | none => exact hdecode.symm
  | some written => rfl

/-! ## What does not show in what is given -/

/-- The order of the members does not show in what an object gives. -/
theorem giveSame_of_perm (standard : Written) (honce : Once names members) (h : members.Perm members') :
    GiveSame standard names members members' := by
  intro key hkey
  have hsame : members.filter (·.1 == some key) = members'.filter (·.1 == some key) := by
    have hfilter := h.filter (·.1 == some key)
    have hle := honce key hkey
    generalize members.filter (·.1 == some key) = found at hfilter hle
    match found with
    | [] => exact hfilter.nil_eq
    | [member] => exact (List.perm_singleton.1 hfilter.symm).symm
    | first :: second :: rest =>
      rw [List.length_cons, List.length_cons] at hle
      omega
  rw [given, given, lookup_eq_head?, lookup_eq_head? key members', hsame]

/-- A member that is not among the names does not show in what an object gives. -/
theorem giveSame_of_unknown (standard : Written) (hkey : key ∉ names) (value : Written)
    (members : List (Option String × Written)) :
    GiveSame standard names members ((some key, value) :: members) := by
  intro other hother
  have hne : key ≠ other := fun heq => hkey (heq ▸ hother)
  rw [given, given, lookup_cons_of_ne hne]

/-- A member that is left out gives what the default gives. -/
theorem giveSame_of_leftOut {standard value : Written} (hvalue : lookup key standard.entries = some value)
    (habsent : lookup key members = none) :
    GiveSame standard names members ((some key, value) :: members) := by
  intro other _
  by_cases heq : key = other
  · subst heq
    rw [given, given, habsent, hvalue, lookup_cons_self]
    rfl
  · rw [given, given, lookup_cons_of_ne heq]

end Json.Written

open Json.Written

/-! ## Delimiters -/

namespace Delimiters

/-- The names of the two delimiters. -/
def names : List String := ["open", "close"]

/-- The default delimiters as they would be written. -/
def standard : Written := given (Config.toJson {}).toWritten [] "delimiters"

/-- The delimiters with these values. -/
def ofGiven? (opening closing : Written) : Option Delimiters := do
  let opening ← asString? opening
  let closing ← asString? closing
  some { opening, closing }

/-- Delimiters are decoded from what their object gives for the two names. -/
theorem decode?_object {members : List (Option String × Written)} (hspelled : Spelled members)
    (honce : Once names members) : decode? (.object members) =
      ofGiven? (given standard members "open") (given standard members "close") := by
  have hfields : (Written.object members).fields? ["open", "close"] =
      some [lookup "open" members, lookup "close" members] := fields?_object hspelled honce
  have hopening := orDefault_eq "\x7b\x7b" asString? standard "open" rfl members
  have hclosing := orDefault_eq "\x7d\x7d" asString? standard "close" rfl members
  rw [decode?, hfields, ofGiven?, ← hopening, ← hclosing]
  rfl

end Delimiters

/-- Two values for the delimiters that mean the same: they are equal, or two objects that give the same. -/
inductive SameDelimiters : Written → Written → Prop where
  | refl (written : Written) : SameDelimiters written written
  | members {members members' : List (Option String × Written)} (hspelled : Spelled members)
      (hspelled' : Spelled members') (honce : Once Delimiters.names members)
      (honce' : Once Delimiters.names members')
      (hsame : GiveSame Delimiters.standard Delimiters.names members members') :
      SameDelimiters (.object members) (.object members')

/-- Values that mean the same decode to the same delimiters. -/
theorem SameDelimiters.decode? {written written' : Written} (h : SameDelimiters written written') :
    Delimiters.decode? written = Delimiters.decode? written' := by
  cases h with
  | refl => rfl
  | members hspelled hspelled' honce honce' hsame =>
    rw [Delimiters.decode?_object hspelled honce, Delimiters.decode?_object hspelled' honce',
      hsame "open" (by decide), hsame "close" (by decide)]

namespace Config

/-- The default configuration as it would be written. -/
def standard : Written := (Config.toJson {}).toWritten

/-- Two objects that mean the same as configurations. -/
structure SameSettings (members members' : List (Option String × Written)) : Prop where
  plain : GiveSame standard ["directive_prefix", "trim_interpolation", "baseline"] members members'
  delimiters : SameDelimiters (given standard members "delimiters") (given standard members' "delimiters")

/-- The configuration with these values. -/
def ofGiven? (marker delimiters trimPaths baseline : Written) : Option Config := do
  let marker ← asString? marker
  let delimiters ← Delimiters.decode? delimiters
  let trimPaths ← asBool? trimPaths
  let baseline ← BaselinePolicy.decode? baseline
  some { marker, delimiters, trimPaths, baseline }

/-- A configuration is decoded from what its object gives for the four names. -/
theorem decode?_object {members : List (Option String × Written)} (hspelled : Spelled members)
    (honce : Once fieldNames members) : decode? (.object members) =
      ofGiven? (given standard members "directive_prefix") (given standard members "delimiters")
        (given standard members "trim_interpolation") (given standard members "baseline") := by
  have hfields : (Written.object members).fields? fieldNames = some [lookup "directive_prefix" members,
      lookup "delimiters" members, lookup "trim_interpolation" members, lookup "baseline" members] :=
    fields?_object hspelled honce
  have hmarker := orDefault_eq "v-" asString? standard "directive_prefix" rfl members
  have hdelimiters := orDefault_eq {} Delimiters.decode? standard "delimiters" rfl members
  have htrim := orDefault_eq true asBool? standard "trim_interpolation" rfl members
  have hbaseline := orDefault_eq .refresh BaselinePolicy.decode? standard "baseline" rfl members
  rw [decode?, hfields, ofGiven?, ← hmarker, ← hdelimiters, ← htrim, ← hbaseline]
  rfl

/-- Objects that mean the same decode to the same configuration. -/
theorem SameSettings.decode? {members members' : List (Option String × Written)}
    (h : SameSettings members members') (hspelled : Spelled members) (hspelled' : Spelled members')
    (honce : Once fieldNames members) (honce' : Once fieldNames members') :
    Config.decode? (.object members) = Config.decode? (.object members') := by
  rw [decode?_object hspelled honce, decode?_object hspelled' honce', h.plain "directive_prefix" (by decide),
    h.plain "trim_interpolation" (by decide), h.plain "baseline" (by decide), ofGiven?, ofGiven?,
    h.delimiters.decode?]

/-! ## Texts -/

/-- The document of a configuration is read back. -/
theorem decode?_toJson (config : Config) : decode? config.toJson.toWritten = some config := by
  obtain ⟨marker, ⟨opening, closing⟩, trimPaths, baseline⟩ := config
  cases baseline with
  | frozen => rfl
  | refresh => rfl

/-- No configuration is written with a number. -/
theorem numberFree_toJson (config : Config) : config.toJson.NumberFree := by
  have hdelimiters : (Json.object [("open", .string config.delimiters.opening),
      ("close", .string config.delimiters.closing)]).NumberFree := by
    refine .object ?_
    simp only [List.forall_mem_cons]
    exact ⟨.string _, .string _, List.forall_mem_nil _⟩
  refine .object ?_
  simp only [List.forall_mem_cons]
  exact ⟨.string _, hdelimiters, .bool _, .string _, List.forall_mem_nil _⟩

/-- A valid configuration is parsed from the text that it is written as. -/
theorem parse_compact {config : Config} (h : config.validate = .ok ()) :
    parse config.toJson.compact = .ok config := by
  rw [parse, Json.compact, String.toList_ofList, Json.read?_write config.numberFree_toJson, Option.bind_some,
    decode?_toJson]
  simp only [h]
  rfl

/-- Whatever is parsed as a configuration is a valid one. -/
theorem validate_of_parse {text : String} {config : Config} (h : parse text = .ok config) :
    config.validate = .ok () := by
  unfold parse at h
  split at h
  · next found _ =>
    cases hvalid : found.validate with
    | error e =>
      rw [hvalid] at h
      cases h
    | ok valid =>
      rw [hvalid] at h
      cases h
      exact hvalid
  · cases h

/-- A text with a key that is no text is refused. -/
theorem parse_unspelled {text : String} {members : List (Option String × Written)}
    (htext : Written.read? text.toList = some (.object members)) (h : ¬ Spelled members) :
    parse text = .error .configDecode := by
  rw [parse, htext, Option.bind_some, decode?, fields?_unspelled h]
  rfl

/-- Texts of objects that mean the same, and whose known members occur once, are read alike. -/
theorem SameSettings.parse {text text' : String} {members members' : List (Option String × Written)}
    (h : SameSettings members members') (htext : Written.read? text.toList = some (.object members))
    (htext' : Written.read? text'.toList = some (.object members')) (hspelled : Spelled members)
    (hspelled' : Spelled members') (honce : Once fieldNames members) (honce' : Once fieldNames members') :
    Config.parse text = Config.parse text' := by
  rw [Config.parse, Config.parse, htext, htext', Option.bind_some, Option.bind_some,
    h.decode? hspelled hspelled' honce honce']

/-- A usable configuration is read back from its text, and what is read is usable. Texts of objects that mean
the same are read alike; and an object goes on to give the same if its members change places, if a member
with an unknown key is added, and if one that is left out is written with its default. -/
theorem parse_determined :
    (∀ config : Config, config.validate = .ok () → parse config.toJson.compact = .ok config) ∧
    (∀ text config, parse text = .ok config → config.validate = .ok ()) ∧
    (∀ text text' members members', Written.read? text.toList = some (.object members) →
      Written.read? text'.toList = some (.object members') → Spelled members → Spelled members' →
      Once fieldNames members → Once fieldNames members' → SameSettings members members' →
      parse text = parse text') ∧
    ∀ standard names members, Once names members →
      (∀ members', members.Perm members' → GiveSame standard names members members') ∧
      (∀ key value, key ∉ names → GiveSame standard names members ((some key, value) :: members)) ∧
      ∀ key value, lookup key standard.entries = some value → lookup key members = none →
        GiveSame standard names members ((some key, value) :: members) := by
  refine ⟨fun config h => parse_compact h, fun text config h => validate_of_parse h, ?_, ?_⟩
  · intro text text' members members' htext htext' hspelled hspelled' honce honce' hsame
    exact hsame.parse htext htext' hspelled hspelled' honce honce'
  · intro standard names members honce
    refine ⟨fun members' hperm => giveSame_of_perm standard honce hperm, fun key value hkey => ?_, ?_⟩
    · exact giveSame_of_unknown standard hkey value members
    · exact fun key value hvalue habsent => giveSame_of_leftOut hvalue habsent

/-! Two texts of one configuration. -/

/-- The settings that both texts have. -/
def narrow : Config := { delimiters := ⟨"\x7b\x7b", ">"⟩, baseline := .frozen }

/-- A text with unknown members, one of which no document could have, that leaves out the defaults. -/
def looseText : String :=
  "\x7b\"x\":[1e999,\"\\ud800\"],\"baseline\":\"frozen\",\"delimiters\":\x7b\"close\":\">\",\"y\":0\x7d\x7d"

/-- A text with the same settings in another order, and with defaults written out. -/
def strictText : String :=
  "\x7b\"delimiters\":\x7b\"open\":\"\\u007b\x7b\",\"close\":\">\"\x7d,\"directive_prefix\":\"v-\",\"baseline\":\"frozen\"\x7d"

set_option maxRecDepth 2000 in
/-- The text with unknown members is read as the document that it spells. -/
theorem read?_looseText : Written.read? looseText.toList = some (.object [
    (some "x", .array [.number ⟨false, ⟨1, 999⟩, false⟩, .string none]),
    (some "baseline", .string (some "frozen")),
    (some "delimiters", .object [
      (some "close", .string (some ">")), (some "y", .number ⟨false, ⟨0, 0⟩, true⟩)])]) := by
  cbv

set_option maxRecDepth 2000 in
/-- The text with the same settings in another order is read as the document that it spells. -/
theorem read?_strictText : Written.read? strictText.toList = some (.object [
    (some "delimiters", .object [
      (some "open", .string (some "\x7b\x7b")), (some "close", .string (some ">"))]),
    (some "directive_prefix", .string (some "v-")), (some "baseline", .string (some "frozen"))]) := by
  cbv

/-- They are read alike, and a configuration whose text needs escapes of every kind is read back. -/
theorem parse_determined_rearranged :
    let config : Config := {
      marker := "\"\\😀", delimiters := ⟨"\x01\n", "\x7f"⟩, trimPaths := false, baseline := .frozen }
    config.validate = .ok () ∧ parse config.toJson.compact = .ok config ∧ parse looseText = .ok narrow ∧
      narrow.validate = .ok () ∧ parse looseText = parse strictText ∧
      GiveSame standard fieldNames [(some "baseline", .string (some "frozen")), (some "x", .null)]
        [(some "x", .null), (some "baseline", .string (some "frozen"))] := by
  intro config
  obtain ⟨hback, hvalid, halike, hgive⟩ := parse_determined
  have hconfig : config.validate = .ok () := rfl
  have hread : parse looseText = .ok narrow := by
    rw [parse, read?_looseText]
    rfl
  refine ⟨hconfig, hback config hconfig, hread, hvalid _ _ hread, ?_, ?_⟩
  · refine halike _ _ _ _ read?_looseText read?_strictText (by decide) (by decide) (by decide) (by decide)
      ⟨?_, ?_⟩
    · intro key hkey
      simp only [List.mem_cons, List.not_mem_nil, or_false] at hkey
      rcases hkey with rfl | rfl | rfl
      · rfl
      · rfl
      · rfl
    · refine .members (by decide) (by decide) (by decide) (by decide) fun key hkey => ?_
      simp only [Delimiters.names, List.mem_cons, List.not_mem_nil, or_false] at hkey
      rcases hkey with rfl | rfl
      · rfl
      · rfl
  · exact (hgive standard fieldNames _ (by decide)).1 _ (.swap _ _ _)

/-- A member with a key that is no text is not passed over. -/
theorem key_without_text_refused : ∃ members,
    Written.read? "\x7b\x7d".toList = some (.object []) ∧
    Written.read? "\x7b\"\\ud800\":1\x7d".toList = some (.object members) ∧
    Once fieldNames members ∧ SameSettings [] members ∧
    parse "\x7b\x7d" = .ok {} ∧ parse "\x7b\"\\ud800\":1\x7d" = .error .configDecode := by
  have htext : Written.read? "\x7b\"\\ud800\":1\x7d".toList =
      some (.object [(none, .number ⟨false, ⟨1, 0⟩, true⟩)]) := by cbv
  refine ⟨_, by cbv, htext, by decide, ⟨fun _ _ => rfl, .refl _⟩, by cbv, parse_unspelled htext (by decide)⟩

end Config

end DataBinding
