import Mathlib.Computability.ContextFreeGrammar
import LoxSyntax.Proofs.Grammar.Nests

/-! # Forms as languages

The words of a form make up a language, and so do its words in nested derivations, open or not.
Sequence, choice and repetition of forms are product, sum and iteration of languages, so forms can
be compared by the laws of Kleene algebra.

The same goes for every reading of forms that is built in this way (`Form.interpret`).  One of them
leaves the nonterminals as they are: the right-hand sides that a production allows
(`Form.expansions`). -/

namespace LoxSyntax

open Computability

namespace Form

/-- The words of a form. -/
def language (form : Form) : Language Kind := {word | Derives form word}

/-- The words of a form in nested derivations, open or not. -/
def nested (form : Form) (isOpen : Bool) : Language Kind := {word | Nests form isOpen word}

variable {first second left right item form : Form} {isOpen : Bool} {word : List Kind}

/-- The language of a form is made up of its words. -/
theorem mem_language : word ∈ form.language ↔ Derives form word := Iff.rfl

/-- The nested words of a form are those with a nested derivation. -/
theorem mem_nested : word ∈ form.nested isOpen ↔ Nests form isOpen word := Iff.rfl

@[simp] theorem language_empty : language empty = 1 := by
  ext word
  rw [mem_language, derives_empty_iff, Language.mem_one]

/-- No token is of a kind among none. -/
@[simp] theorem language_token_nil : (token []).language = ⊥ := by
  ext word
  rw [mem_language, derives_token_iff]
  refine iff_of_false (fun h => ?_) (Language.notMem_zero word)
  obtain ⟨_, member, _⟩ := h
  exact List.not_mem_nil member

@[simp] theorem language_seq :
    (seq first second).language = first.language * second.language := by
  ext word
  rw [mem_language, derives_seq_iff, Language.mem_mul]
  constructor
  · intro h
    obtain ⟨start, rest, rfl, h, h'⟩ := h
    exact ⟨start, h, rest, h', rfl⟩
  · intro h
    obtain ⟨start, h, rest, h', rfl⟩ := h
    exact ⟨start, rest, rfl, h, h'⟩

@[simp] theorem language_choice :
    (choice left right).language = left.language ⊔ right.language := by
  ext word
  rw [mem_language, derives_choice_iff]
  rfl

@[simp] theorem language_many : (many item).language = item.language∗ := by
  ext word
  rw [mem_language, Language.mem_kstar]
  constructor
  · intro h
    -- The rounds of the repetition are the words that it is made up of.
    generalize same : many item = form at h
    induction h with
    | manyNil => exact ⟨[], rfl, by simp⟩
    | @manyCons _ start _ once _ _ ih =>
      cases same
      obtain ⟨words, rfl, all⟩ := ih rfl
      exact ⟨start :: words, rfl, List.forall_mem_cons.mpr ⟨once, all⟩⟩
    | empty | token | category | seq | left | right => cases same
  · intro h
    obtain ⟨words, rfl, all⟩ := h
    induction words with
    | nil => exact .manyNil
    | cons start words ih =>
      rw [List.forall_mem_cons] at all
      exact .manyCons all.1 (ih all.2)

@[simp] theorem nested_seq :
    (seq first second).nested isOpen = first.language * second.nested isOpen := by
  ext word
  -- Only the second part decides whether the word is open, so any nesting of the first will do.
  rw [mem_nested, nests_seq_iff, Language.mem_mul]
  constructor
  · intro h
    obtain ⟨start, rest, rfl, ⟨_, h⟩, h'⟩ := h
    exact ⟨start, h.derives, rest, h', rfl⟩
  · intro h
    obtain ⟨start, h, rest, h', rfl⟩ := h
    exact ⟨start, rest, rfl, h.exists_nests, h'⟩

/-- A form without open words has all its words in nested derivations that are not open. -/
theorem nested_of_closed (closed : form.opens = false) :
    form.nested isOpen = bif isOpen then ⊥ else form.language := by
  ext word
  cases isOpen with
  | true =>
    refine iff_of_false (fun h => ?_) (Language.notMem_zero word)
    cases Nests.eq_false h closed
  | false =>
    refine ⟨Nests.derives, fun h => ?_⟩
    -- Some nested derivation exists, and it can only be closed.
    obtain ⟨_, nested⟩ := Derives.exists_nests h
    exact nested.eq_false closed ▸ nested

end Form

/-! ## Other readings of forms -/

namespace Form

/-- A form read as a language over any letters, given what its tokens and nonterminals stand for. -/
def interpret {α : Type} (token : List Kind → Language α) (category : Nonterminal → Language α) :
    Form → Language α
  | .empty => 1
  | .token kinds => token kinds
  | .category n => category n
  | .seq first second => first.interpret token category * second.interpret token category
  | .choice left right => left.interpret token category ⊔ right.interpret token category
  | .many item => (item.interpret token category)∗

/-- The words of a form are what it stands for if its nonterminals stand for their words. -/
theorem language_eq_interpret (form : Form) : form.language =
    form.interpret (fun kinds => (token kinds).language) (fun n => (category n).language) := by
  induction form with
  | empty => exact language_empty
  | token | category => rfl
  | seq _ _ ih ih' => rw [language_seq, interpret, ← ih, ← ih']
  | choice _ _ ih ih' => rw [language_choice, interpret, ← ih, ← ih']
  | many _ ih => rw [language_many, interpret, ← ih]

/-- The sequences of tokens and nonterminals that a form stands for, its nonterminals being left as
    they are. -/
def expansions (form : Form) : Language (Symbol Kind Nonterminal) :=
  form.interpret (fun kinds => {word | ∃ kind ∈ kinds, word = [.terminal kind]})
    (fun n => {word | word = [.nonterminal n]})

end Form

/-- Allowing the empty word as a round makes no difference to iteration. -/
@[simp] theorem kstar_one_sup {α : Type} (l : Language α) : (1 ⊔ l)∗ = l∗ := by
  apply le_antisymm
  · apply kstar_le_of_mul_le_right one_le_kstar
    rw [← add_eq_sup, add_mul, one_mul]
    exact add_le le_rfl mul_kstar_le_kstar
  · exact kstar_mono le_sup_right

@[simp] theorem kstar_sup_one {α : Type} (l : Language α) : (l ⊔ 1)∗ = l∗ := by
  rw [sup_comm, kstar_one_sup]

end LoxSyntax
