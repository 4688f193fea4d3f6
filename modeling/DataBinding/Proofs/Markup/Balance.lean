import DataBinding.Markup.Document
import Mathlib.Data.List.Induction

/-!
# Balanced tokens

Building a forest succeeds exactly on the tokens that spell it out: a text and a comment are one token, so is
an element that closes itself or is void, and every other element is its opening tag, what is inside it, and
a closing tag of the same name. `Spells` is this grammar.

Building keeps a stack of open elements, of which the grammar knows nothing. `Reached` ties the two together:
after some tokens the stack has one element for each opening tag whose closing tag is still to come, and
between two of these tags stands what is balanced. It is built up along the tokens as long as every closing
tag closes the innermost element that is open (`Orderly`), and the first tag that does not, or the innermost
element that is left over, is the fault that is reported (`Faulty`).
-/

set_option autoImplicit false

namespace DataBinding.Markup

/-- The tag that a name stands for. -/
def tagOf (name : List Char) : String := lowercase (String.ofList name)

/-- Tokens that spell out trees that follow each other. -/
inductive Spells : List Placed → List Tree → Prop where
  | nil : Spells [] []
  | text {offset : Nat} {content : List Char} {rest : List Placed} {others : List Tree}
      (hrest : Spells rest others) :
      Spells (⟨offset, .text content⟩ :: rest) (.text (String.ofList (unescape content)) :: others)
  | comment {offset : Nat} {body : List Char} {rest : List Placed} {others : List Tree}
      (hrest : Spells rest others) :
      Spells (⟨offset, .comment body⟩ :: rest) (.comment (String.ofList body) :: others)
  /-- An element that closes itself or is void. -/
  | single {offset : Nat} {name : List Char} {attributes : List (List Char × List Char)}
      {selfClosing : Bool} {rest : List Placed} {others : List Tree}
      (hsingle : (selfClosing || isVoid (tagOf name)) = true) (hrest : Spells rest others) :
      Spells (⟨offset, .opening name attributes selfClosing⟩ :: rest)
        (.element (tagOf name) (readAttributes attributes) [] :: others)
  /-- An element between its two tags. -/
  | element {offset offset' : Nat} {name name' : List Char} {attributes : List (List Char × List Char)}
      {inside rest : List Placed} {children others : List Tree}
      (hopen : isVoid (tagOf name) = false) (hsame : tagOf name = tagOf name')
      (hinside : Spells inside children) (hrest : Spells rest others) :
      Spells (⟨offset, .opening name attributes false⟩ :: (inside ++ ⟨offset', .closing name'⟩ :: rest))
        (.element (tagOf name) (readAttributes attributes) children :: others)

/-- Tokens that spell out something. -/
def Balanced (tokens : List Placed) : Prop := ∃ trees, Spells tokens trees

/-- After these tokens the innermost element that is open has this tag, and its opening tag this offset: what
follows that tag is balanced. -/
def Innermost (tokens : List Placed) (offset : Nat) (tag : String) : Prop :=
  ∃ outside name attributes inside,
    tokens = outside ++ ⟨offset, .opening name attributes false⟩ :: inside ∧
      isVoid (tagOf name) = false ∧ tagOf name = tag ∧ Balanced inside

/-- Each closing tag closes the innermost element that is open where it stands. -/
def Orderly (tokens : List Placed) : Prop :=
  ∀ before offset name after, tokens = before ++ ⟨offset, .closing name⟩ :: after →
    ∃ opened, Innermost before opened (tagOf name)

/-- What is wrong with tokens that spell out nothing, and the offset of the tag that is to blame: the first
closing tag that does not close the innermost open element, or else the opening tag of the innermost element
that is still open at the end. -/
inductive Faulty (tokens : List Placed) : Nat → MarkupFault → Prop where
  | unexpected {before after : List Placed} {offset : Nat} {name : List Char}
      (htokens : tokens = before ++ ⟨offset, .closing name⟩ :: after) (horderly : Orderly before)
      (hnone : Balanced before) : Faulty tokens offset (.unexpected (tagOf name))
  | mismatched {before after : List Placed} {offset opened : Nat} {name : List Char} {tag : String}
      (htokens : tokens = before ++ ⟨offset, .closing name⟩ :: after) (horderly : Orderly before)
      (hopen : Innermost before opened tag) (hother : tag ≠ tagOf name) :
      Faulty tokens offset (.mismatched tag (tagOf name))
  | unclosed {offset : Nat} {tag : String} (horderly : Orderly tokens)
      (hopen : Innermost tokens offset tag) : Faulty tokens offset (.unclosed tag)

/-! ## Building what is spelled out -/

/-- Tokens that spell out trees may follow each other. -/
theorem Spells.append {first second : List Placed} {trees others : List Tree} (h₁ : Spells first trees)
    (h₂ : Spells second others) : Spells (first ++ second) (trees ++ others) := by
  induction h₁ with
  | nil => exact h₂
  | text _ ih => exact .text ih
  | comment _ ih => exact .comment ih
  | single hsingle _ ih => exact .single hsingle ih
  | element hopen hsame hinside _ _ ih =>
    rw [List.cons_append, List.append_assoc]
    exact .element hopen hsame hinside ih

section Grow

variable {offset : Nat} {name : List Char} {attributes : List (List Char × List Char)}
  {rest : List Placed} {stack : List OpenElement} {before : List Tree}

/-- A tag that closes itself, or is void, adds an element without children. -/
theorem grow_single {selfClosing : Bool} (hsingle : (selfClosing || isVoid (tagOf name)) = true) :
    grow (⟨offset, .opening name attributes selfClosing⟩ :: rest) stack before =
      grow rest stack (.element (tagOf name) (readAttributes attributes) [] :: before) := by
  rw [grow]
  exact if_pos hsingle

/-- Any other opening tag opens an element. -/
theorem grow_opens (hopen : isVoid (tagOf name) = false) :
    grow (⟨offset, .opening name attributes false⟩ :: rest) stack before =
      grow rest (⟨tagOf name, readAttributes attributes, offset, before⟩ :: stack) [] := by
  rw [grow]
  refine if_neg ?_
  rw [Bool.false_or]
  exact ne_true_of_eq_false hopen

/-- A closing tag completes the innermost open element if it is that of the element. -/
theorem grow_closes {inner : OpenElement} (hsame : inner.tag = tagOf name) :
    grow (⟨offset, .closing name⟩ :: rest) (inner :: stack) before =
      grow rest stack (.element inner.tag inner.attributes before.reverse :: inner.siblings) := by
  rw [grow]
  exact if_pos hsame

/-- A closing tag of another element is refused, with both names. -/
theorem grow_mismatched {inner : OpenElement} (hother : inner.tag ≠ tagOf name) :
    grow (⟨offset, .closing name⟩ :: rest) (inner :: stack) before =
      .error (.markup offset (.mismatched inner.tag (tagOf name))) := by
  rw [grow]
  exact if_neg hother

end Grow

/-- What is spelled out is added to the element that is open. -/
theorem Spells.grow {tokens : List Placed} {trees : List Tree} (h : Spells tokens trees)
    (more : List Placed) (stack : List OpenElement) (before : List Tree) :
    Markup.grow (tokens ++ more) stack before = Markup.grow more stack (trees.reverse ++ before) := by
  induction h generalizing more stack before with
  | nil => rfl
  | text _ ih =>
    rw [List.cons_append, Markup.grow, List.reverse_cons, List.append_assoc]
    exact ih more stack _
  | comment _ ih =>
    rw [List.cons_append, Markup.grow, List.reverse_cons, List.append_assoc]
    exact ih more stack _
  | single hsingle _ ih =>
    rw [List.cons_append, grow_single hsingle, List.reverse_cons, List.append_assoc]
    exact ih more stack _
  | element hopen hsame _ _ ihinside ih =>
    rw [List.cons_append, grow_opens hopen, List.append_assoc, ihinside, List.cons_append,
      grow_closes hsame, List.append_nil, List.reverse_reverse, List.reverse_cons, List.append_assoc]
    exact ih more stack _

/-! ## Where building is -/

/-- What building has come to after some tokens. -/
inductive Reached : List Placed → List OpenElement → List Tree → Prop where
  | outermost {done : List Placed} {before : List Tree} (hdone : Spells done before.reverse) :
      Reached done [] before
  | inside {outside within : List Placed} {offset : Nat} {name : List Char}
      {attributes : List (List Char × List Char)} {outer : List OpenElement} {siblings before : List Tree}
      (hopen : isVoid (tagOf name) = false) (houtside : Reached outside outer siblings)
      (hwithin : Spells within before.reverse) :
      Reached (outside ++ ⟨offset, .opening name attributes false⟩ :: within)
        (⟨tagOf name, readAttributes attributes, offset, siblings⟩ :: outer) before

namespace Reached

variable {done : List Placed} {stack : List OpenElement} {before : List Tree}

/-- Building goes on from what it has come to. -/
theorem grow (h : Reached done stack before) (more : List Placed) :
    Markup.grow (done ++ more) [] [] = Markup.grow more stack before := by
  induction h generalizing more with
  | outermost hdone => rw [hdone.grow, List.reverse_reverse, List.append_nil]
  | inside hopen _ hwithin ih =>
    rw [List.append_assoc, ih, List.cons_append, grow_opens hopen, hwithin.grow, List.reverse_reverse,
      List.append_nil]

/-- The innermost open element is the one on top of the stack. -/
theorem innermost {inner : OpenElement} {outer : List OpenElement}
    (h : Reached done (inner :: outer) before) : Innermost done inner.offset inner.tag := by
  cases h with
  | inside hopen _ hwithin => exact ⟨_, _, _, _, rfl, hopen, rfl, _, hwithin⟩

/-- What is spelled out next joins the innermost element. -/
theorem extend (h : Reached done stack before) {more : List Placed} {trees : List Tree}
    (hmore : Spells more trees) : Reached (done ++ more) stack (trees.reverse ++ before) := by
  have hjoined : ∀ {within : List Placed} {before : List Tree}, Spells within before.reverse →
      Spells (within ++ more) (trees.reverse ++ before).reverse := by
    intro within before hwithin
    rw [List.reverse_append, List.reverse_reverse]
    exact hwithin.append hmore
  cases h with
  | outermost hdone => exact .outermost (hjoined hdone)
  | inside hopen houtside hwithin =>
    rw [List.append_assoc, List.cons_append]
    exact .inside hopen houtside (hjoined hwithin)

/-- An element whose two tags have been read has joined the one around it. -/
theorem close (h : Reached done stack before) {offset offset' : Nat} {name name' : List Char}
    {attributes : List (List Char × List Char)} {inside : List Placed} {children : List Tree}
    (hopen : isVoid (tagOf name) = false) (hsame : tagOf name = tagOf name')
    (hinside : Spells inside children) :
    Reached (done ++ ⟨offset, .opening name attributes false⟩ :: inside ++ [⟨offset', .closing name'⟩]) stack
      (.element (tagOf name) (readAttributes attributes) children :: before) := by
  rw [List.append_assoc, List.cons_append]
  exact h.extend (.element hopen hsame hinside .nil)

end Reached

namespace Orderly

variable {tokens done : List Placed}

/-- Without tokens, no closing tag is out of order. -/
theorem nil : Orderly [] := by
  intro before offset name after h
  exact absurd h.symm (List.append_ne_nil_of_right_ne_nil before (List.cons_ne_nil _ _))

/-- What comes first of orderly tokens is orderly. -/
theorem of_append {more : List Placed} (h : Orderly (done ++ more)) : Orderly done := by
  intro before offset name after hdone
  refine h before offset name (after ++ more) ?_
  rw [hdone, List.append_assoc, List.cons_append]

/-- One more token, which closes the innermost element if it closes any. -/
theorem concat (h : Orderly done) {last : Placed}
    (hlast : ∀ offset name, last = ⟨offset, .closing name⟩ → ∃ opened, Innermost done opened (tagOf name)) :
    Orderly (done ++ [last]) := by
  intro before offset name after heq
  rcases List.eq_nil_or_concat after with rfl | ⟨after, final, rfl⟩
  · obtain ⟨rfl, hsingle⟩ := List.append_inj' heq rfl
    exact hlast offset name (List.cons.inj hsingle).1
  · rw [List.concat_eq_append, ← List.cons_append, ← List.append_assoc] at heq
    obtain ⟨hdone, -⟩ := List.append_inj' heq rfl
    exact h before offset name after hdone

/-- Tokens whose closing tags all close the innermost element are read to their end. The element that such a
tag closes was opened earlier, so the induction is on the number of tokens. -/
theorem reached (h : Orderly tokens) : ∃ stack before, Reached tokens stack before := by
  induction hlength : tokens.length using Nat.strongRecOn generalizing tokens with
  | ind length ih =>
    rcases List.eq_nil_or_concat tokens with rfl | ⟨done, last, rfl⟩
    · exact ⟨[], [], .outermost .nil⟩
    rw [List.concat_eq_append] at h hlength ⊢
    rw [List.length_append, List.length_singleton] at hlength
    obtain ⟨stack, before, hdone⟩ := ih done.length (by omega) h.of_append rfl
    obtain ⟨offset, token⟩ := last
    cases token with
    | text content => exact ⟨stack, _, hdone.extend (.text .nil)⟩
    | comment body => exact ⟨stack, _, hdone.extend (.comment .nil)⟩
    | opening name attributes selfClosing =>
      by_cases hsingle : (selfClosing || isVoid (tagOf name)) = true
      · exact ⟨stack, _, hdone.extend (.single hsingle .nil)⟩
      · obtain ⟨rfl, hopen⟩ : selfClosing = false ∧ isVoid (tagOf name) = false := by
          simpa using hsingle
        exact ⟨_, [], .inside hopen hdone .nil⟩
    | closing name =>
      obtain ⟨opened, outside, name', attributes, inside, rfl, hopen, hsame, children, hinside⟩ :=
        h done offset name [] rfl
      have hshorter : outside.length < length := by
        rw [List.length_append, List.length_cons] at hlength
        omega
      obtain ⟨stack, before, houtside⟩ := ih outside.length hshorter h.of_append.of_append rfl
      exact ⟨stack, _, houtside.close hopen hsame hinside⟩

/-- The innermost element that is open is on top of the stack. -/
theorem reached_innermost (h : Orderly tokens) {offset : Nat} {tag : String}
    (hopen : Innermost tokens offset tag) : ∃ inner outer before,
      Reached tokens (inner :: outer) before ∧ inner.offset = offset ∧ inner.tag = tag := by
  obtain ⟨outside, name, attributes, inside, rfl, hvoid, htag, children, hinside⟩ := hopen
  obtain ⟨stack, before, houtside⟩ := h.of_append.reached
  rw [← List.reverse_reverse children] at hinside
  exact ⟨_, _, _, .inside hvoid houtside hinside, rfl, htag⟩

end Orderly

/-! ## Accepted and refused -/

/-- Tokens that spell out trees build them. -/
theorem Spells.build {tokens : List Placed} {forest : List Tree} (h : Spells tokens forest) :
    Markup.build tokens = .ok forest := by
  have hgrow := h.grow [] [] []
  rw [List.append_nil, List.append_nil] at hgrow
  rw [Markup.build, hgrow, Markup.grow, List.reverse_reverse]

/-- Faulty tokens are refused, with the fault and the offset of the tag that is to blame. -/
theorem Faulty.build {tokens : List Placed} {offset : Nat} {fault : MarkupFault}
    (h : Faulty tokens offset fault) : Markup.build tokens = .error (.markup offset fault) := by
  unfold Markup.build
  cases h with
  | unexpected htokens _ hnone =>
    obtain ⟨trees, hspells⟩ := hnone
    rw [htokens, hspells.grow]
    rfl
  | mismatched htokens horderly hopen hother =>
    obtain ⟨inner, outer, before, hreached, -, rfl⟩ := horderly.reached_innermost hopen
    rw [htokens, hreached.grow, grow_mismatched hother]
  | unclosed horderly hopen =>
    obtain ⟨inner, outer, before, hreached, rfl, rfl⟩ := horderly.reached_innermost hopen
    have hgrow := hreached.grow []
    rw [List.append_nil] at hgrow
    rw [hgrow]
    rfl

/-- Either all closing tags close the innermost element, or there is a first one that does not. -/
theorem orderly_or_stray (tokens : List Placed) :
    Orderly tokens ∨ ∃ before offset name after, tokens = before ++ ⟨offset, .closing name⟩ :: after ∧
      Orderly before ∧ ¬∃ opened, Innermost before opened (tagOf name) := by
  induction tokens using List.reverseRecOn with
  | nil => exact .inl .nil
  | append_singleton done last ih =>
    rcases ih with horderly | ⟨before, offset, name, after, rfl, horderly, hstray⟩
    · by_cases hlast : ∀ offset name, last = ⟨offset, .closing name⟩ →
          ∃ opened, Innermost done opened (tagOf name)
      · exact .inl (horderly.concat hlast)
      · push Not at hlast
        obtain ⟨offset, name, rfl, hstray⟩ := hlast
        exact .inr ⟨done, offset, name, [], rfl, horderly, fun ⟨opened, hopen⟩ => hstray opened hopen⟩
    · refine .inr ⟨before, offset, name, after ++ [last], ?_, horderly, hstray⟩
      rw [List.append_assoc, List.cons_append]

/-- Tokens spell out something, or something is wrong with them. -/
theorem balanced_or_faulty (tokens : List Placed) :
    Balanced tokens ∨ ∃ offset fault, Faulty tokens offset fault := by
  rcases orderly_or_stray tokens with horderly | ⟨before, offset, name, after, htokens, horderly, hstray⟩
  · obtain ⟨stack, trees, hreached⟩ := horderly.reached
    cases stack with
    | nil =>
      cases hreached with
      | outermost hdone => exact .inl ⟨_, hdone⟩
    | cons inner outer => exact .inr ⟨_, _, .unclosed horderly hreached.innermost⟩
  · obtain ⟨stack, trees, hreached⟩ := horderly.reached
    cases stack with
    | nil =>
      cases hreached with
      | outermost hdone => exact .inr ⟨_, _, .unexpected htokens horderly ⟨_, hdone⟩⟩
    | cons inner outer =>
      refine .inr ⟨_, _, .mismatched htokens horderly hreached.innermost fun hsame => hstray ⟨inner.offset, ?_⟩⟩
      rw [← hsame]
      exact hreached.innermost

/-- Building gives a forest exactly for the tokens that spell it out. It fails on all others, and blames the
first closing tag that does not close the innermost open element, or else the opening tag of the innermost
element that is never closed. -/
theorem build_balanced (tokens : List Placed) :
    (∀ forest, build tokens = .ok forest ↔ Spells tokens forest) ∧
      ∀ e, build tokens = .error e ↔
        ∃ offset fault, e = .markup offset fault ∧ Faulty tokens offset fault := by
  constructor
  · refine fun forest => ⟨fun h => ?_, Spells.build⟩
    rcases balanced_or_faulty tokens with ⟨trees, hspells⟩ | ⟨offset, fault, hfaulty⟩
    · cases h.symm.trans hspells.build
      exact hspells
    · cases h.symm.trans hfaulty.build
  · intro e
    constructor
    · intro h
      rcases balanced_or_faulty tokens with ⟨trees, hspells⟩ | ⟨offset, fault, hfaulty⟩
      · cases h.symm.trans hspells.build
      · cases h.symm.trans hfaulty.build
        exact ⟨offset, fault, rfl, hfaulty⟩
    · rintro ⟨offset, fault, rfl, hfaulty⟩
      exact hfaulty.build

end DataBinding.Markup
