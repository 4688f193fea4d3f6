import DataBinding.Proofs.Markup.Entities

/-!
# Entities are read in one pass

Unescaping goes over the whole text once for each kind of entity. It comes to the same as going over it once for
all of them, from the left, and never looking at what has been put down: no entity has a character in it that an
earlier replacement has put down, because the ampersand, which all of them start with, is put down last. Replaced
in another order they would be read twice.
-/

set_option autoImplicit false

namespace DataBinding.Markup

/-- A text with its entities replaced in one pass from the left. What is put down for an entity is never looked
at again. -/
def readEntities : List Char → List Char
  | '&' :: 'l' :: 't' :: ';' :: rest => '<' :: readEntities rest
  | '&' :: 'g' :: 't' :: ';' :: rest => '>' :: readEntities rest
  | '&' :: 'q' :: 'u' :: 'o' :: 't' :: ';' :: rest => '"' :: readEntities rest
  | '&' :: '#' :: '3' :: '9' :: ';' :: rest => '\'' :: readEntities rest
  | '&' :: 'a' :: 'm' :: 'p' :: ';' :: rest => '&' :: readEntities rest
  | c :: rest => c :: readEntities rest
  | [] => []

/-- A character at which no entity starts is kept. -/
theorem readEntities_of_none {c : Char} {rest : List Char} (h : ∀ entry ∈ entities, ¬ entry.1 <+: c :: rest) :
    readEntities (c :: rest) = c :: readEntities rest := by
  have hmissing : ∀ entity meant, (entity, meant) ∈ entities → ∀ after, c :: rest ≠ entity ++ after :=
    fun _ _ hmem after htext => h _ hmem ⟨after, htext.symm⟩
  rw [readEntities.eq_def]
  split
  · exact absurd ‹_› (hmissing "&lt;".toList '<' (by decide) _)
  · exact absurd ‹_› (hmissing "&gt;".toList '>' (by decide) _)
  · exact absurd ‹_› (hmissing "&quot;".toList '"' (by decide) _)
  · exact absurd ‹_› (hmissing "&#39;".toList '\'' (by decide) _)
  · exact absurd ‹_› (hmissing "&amp;".toList '&' (by decide) _)
  · next htext =>
    obtain ⟨rfl, rfl⟩ := List.cons.inj htext
    rfl
  · next htext => cases htext

/-- A pass from the left over a text, with the entities of a table: an entity gives way to what it stands for, and
a character that no entity starts at is kept. -/
inductive OnePass (table : List (List Char × Char)) : List Char → List Char → Prop where
  | done : OnePass table [] []
  | read {entity text rest out : List Char} {c : Char} : (entity, c) ∈ table → text = entity ++ rest →
      OnePass table rest out → OnePass table text (c :: out)
  | keep {c : Char} {rest out : List Char} : (∀ entry ∈ table, ¬ entry.1 <+: c :: rest) →
      OnePass table rest out → OnePass table (c :: rest) (c :: out)

/-- An entity starts with an ampersand and has no other one. -/
def IsEntity (entity : List Char) : Prop := ∃ body, entity = '&' :: body ∧ '&' ∉ body

namespace OnePass

variable {table : List (List Char × Char)} {text out : List Char}

/-- A pass with no entities changes nothing. -/
theorem nothing (text : List Char) : OnePass [] text text := by
  induction text with
  | nil => exact .done
  | cons c rest ih => exact .keep (fun _ hentry => absurd hentry List.not_mem_nil) ih

/-- Characters among which no entity starts are kept. -/
theorem skip (htable : ∀ entry ∈ table, IsEntity entry.1) {plain rest : List Char} (hplain : '&' ∉ plain)
    (h : OnePass table (plain ++ rest) out) : ∃ after, out = plain ++ after ∧ OnePass table rest after := by
  induction plain generalizing out with
  | nil => exact ⟨out, rfl, h⟩
  | cons c plain ih =>
    cases h with
    | read hmem htext hafter =>
      obtain ⟨body, rfl, -⟩ := htable _ hmem
      exact absurd (List.cons.inj htext).1 fun hc => hplain (hc ▸ List.mem_cons_self)
    | keep hnone hrest =>
      obtain ⟨after, rfl, hafter⟩ := ih (fun hmem => hplain (List.mem_cons_of_mem c hmem)) hrest
      exact ⟨after, rfl, hafter⟩

/-- What has no character that the pass puts down stands at the start of the result only if it did before. -/
theorem starts_of_starts {start : List Char} (hapart : ∀ entry ∈ table, entry.2 ∉ start)
    (h : OnePass table text out) (hstart : start <+: out) : start <+: text := by
  induction start generalizing text out with
  | nil => exact List.nil_prefix
  | cons d start ih =>
    cases h with
    | done => exact absurd (List.prefix_nil.1 hstart) (List.cons_ne_nil d start)
    | read hmem _ _ =>
      obtain ⟨rfl, -⟩ := List.cons_prefix_cons.1 hstart
      exact absurd List.mem_cons_self (hapart _ hmem)
    | keep _ hrest =>
      obtain ⟨rfl, hbelow⟩ := List.cons_prefix_cons.1 hstart
      have hfresh := fun entry hentry hmem => hapart entry hentry (List.mem_cons_of_mem d hmem)
      exact List.cons_prefix_cons.2 ⟨rfl, ih hfresh hrest hbelow⟩

/-- Replacing one more kind of entity afterwards is reading it in the same pass, if it has no character that the
pass puts down. -/
theorem replaceAll {entity : List Char} {c : Char} (htable : ∀ entry ∈ table, IsEntity entry.1)
    (hentity : IsEntity entity) (hapart : ∀ entry ∈ table, entry.2 ∉ entity) (h : OnePass table text out) :
    OnePass (table ++ [(entity, c)]) text (DataBinding.replaceAll entity [c] out) := by
  obtain ⟨body, rfl, hbody⟩ := hentity
  -- An entity is read at one stroke, so the induction is on the length of what is left.
  induction hlength : text.length using Nat.strongRecOn generalizing text out with
  | _ length ih =>
    cases h with
    | done => exact .done
    | @read written _ rest out meant hmem htext hrest =>
      have hshorter : rest.length < length := by
        obtain ⟨body', hbody', -⟩ := htable _ hmem
        have hread : written.length = body'.length + 1 := congrArg List.length hbody'
        rw [← hlength, htext, List.length_append]
        omega
      have hother : ¬ '&' :: body <+: meant :: out := fun hstarts =>
        hapart _ hmem ((List.cons_prefix_cons.1 hstarts).1 ▸ List.mem_cons_self)
      rw [replaceAll_cons_of_other [c] hother]
      exact .read (List.mem_append_left _ hmem) htext (ih _ hshorter hrest rfl)
    | @keep d rest out hnone hrest =>
      by_cases hstarts : '&' :: body <+: d :: rest
      · obtain ⟨after, hafter⟩ := hstarts
        rw [List.cons_append] at hafter
        obtain ⟨rfl, rfl⟩ := List.cons.inj hafter
        obtain ⟨out, rfl, hout⟩ := hrest.skip htable hbody
        have hshorter : after.length < length := by
          rw [← hlength, List.length_cons, List.length_append]
          omega
        have hfound := replaceAll_self_append '&' body [c] out
        rw [List.cons_append] at hfound
        rw [hfound]
        exact .read (List.mem_append_right _ List.mem_cons_self) rfl (ih _ hshorter hout rfl)
      · have hother : ¬ '&' :: body <+: d :: out := fun hstarts' =>
          hstarts ((OnePass.keep hnone hrest).starts_of_starts hapart hstarts')
        rw [replaceAll_cons_of_other [c] hother]
        refine .keep (fun entry hentry => ?_) (ih _ ?_ hrest rfl)
        · rcases List.mem_append.1 hentry with hold | hnew
          · exact hnone entry hold
          · rw [List.mem_singleton.1 hnew]
            exact hstarts
        · rw [← hlength]
          exact Nat.lt_succ_self _

/-- Replacing kinds of entities one after the other is one pass for all of them, if none has a character that was
put down for an earlier one. -/
theorem foldl (later : List (List Char × Char)) (hentities : ∀ entry ∈ table ++ later, IsEntity entry.1)
    (hapart : (table ++ later).Pairwise fun first second => first.2 ∉ second.1) (h : OnePass table text out) :
    OnePass (table ++ later) text
      (later.foldl (fun text (entity, c) => DataBinding.replaceAll entity [c] text) out) := by
  induction later generalizing table out with
  | nil =>
    rw [List.append_nil]
    exact h
  | cons entry later ih =>
    have hsplit : table ++ entry :: later = (table ++ [entry]) ++ later := by simp
    have hfresh := (List.pairwise_append.1 hapart).2.2
    have hnext := h.replaceAll (c := entry.2) (fun old hold => hentities old (List.mem_append_left _ hold))
      (hentities entry (List.mem_append_right _ List.mem_cons_self))
      fun old hold => hfresh old hold entry List.mem_cons_self
    rw [hsplit] at hentities hapart ⊢
    exact ih hentities hapart hnext

/-- With the entities of markup there is only one pass, and it is the one that reads them. -/
theorem eq_readEntities (h : OnePass entities text out) : out = readEntities text := by
  induction h with
  | done => rfl
  | @read entity text rest out c hmem htext _ ih =>
    rw [ih, htext]
    simp only [entities, List.mem_cons, Prod.mk.injEq, List.not_mem_nil, or_false] at hmem
    rcases hmem with ⟨rfl, rfl⟩ | ⟨rfl, rfl⟩ | ⟨rfl, rfl⟩ | ⟨rfl, rfl⟩ | ⟨rfl, rfl⟩ <;> rfl
  | keep hnone _ ih => rw [ih, readEntities_of_none hnone]

end OnePass

/-- All five entities start with an ampersand and have no other one. -/
theorem isEntity_entities : ∀ entry ∈ entities, IsEntity entry.1 := by
  simp only [entities, List.forall_mem_cons, List.not_mem_nil, false_imp_iff, implies_true, and_true]
  exact ⟨⟨['l', 't', ';'], rfl, by decide⟩, ⟨['g', 't', ';'], rfl, by decide⟩,
    ⟨['q', 'u', 'o', 't', ';'], rfl, by decide⟩, ⟨['#', '3', '9', ';'], rfl, by decide⟩,
    ⟨['a', 'm', 'p', ';'], rfl, by decide⟩⟩

/-- No entity has a character that is put down before it is replaced: the ampersand comes last. -/
theorem entities_apart : entities.Pairwise fun first second => first.2 ∉ second.1 := by decide

/-- Replacing the five entities one after the other in a text, the ampersand last, is one pass from the left that
never looks at what it has put down. It gives every text back that has been escaped, and an escaped text has no
angle bracket and no quote in it. -/
theorem unescape_one_pass (text : List Char) :
    unescape text = readEntities text ∧ unescape (escape text) = text ∧
      '<' ∉ escape text ∧ '>' ∉ escape text ∧ '"' ∉ escape text := by
  have hpass : OnePass ([] ++ entities) text (unescape text) :=
    (OnePass.nothing text).foldl entities isEntity_entities entities_apart
  exact ⟨hpass.eq_readEntities, unescape_escape text, not_mem_escape (by decide) (by decide) text,
    not_mem_escape (by decide) (by decide) text, not_mem_escape (by decide) (by decide) text⟩

/-- What has been escaped twice is read once. -/
example : unescape "&amp;lt;&lt;&#39;&amp;".toList = "&lt;<'&".toList := by decide

end DataBinding.Markup
