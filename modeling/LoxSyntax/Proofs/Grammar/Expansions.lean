import LoxSyntax.Proofs.Grammar.Language

/-! # Right-hand sides

A production allows a set of right-hand sides, which are sequences of tokens and nonterminals
(`Form.expansions`).  Each symbol of such a sequence is written in the production
(`mem_symbols_of_mem_expansions`), and a word that is put together from the words of its symbols is
a word of the production (`derives_of_mem_expansions`). -/

namespace LoxSyntax

open Computability

variable {form first second left right item : Form} {kinds : List Kind} {n : Nonterminal}
  {side more : List (Symbol Kind Nonterminal)} {word : List Kind}

namespace Form

/-- Nothing but the empty sequence is allowed. -/
private theorem mem_expansions_empty : side ∈ expansions empty ↔ side = [] := Iff.rfl

/-- A sequence of one token of any of the kinds is allowed. -/
private theorem mem_expansions_token :
    side ∈ (token kinds).expansions ↔ ∃ kind ∈ kinds, side = [.terminal kind] := Iff.rfl

/-- The nonterminal by itself is allowed. -/
private theorem mem_expansions_category :
    side ∈ (category n).expansions ↔ side = [.nonterminal n] := Iff.rfl

/-- What the one form allows is followed by what the other one allows. -/
private theorem mem_expansions_seq : side ∈ (seq first second).expansions ↔
    ∃ front ∈ first.expansions, ∃ back ∈ second.expansions, front ++ back = side :=
  Language.mem_mul

/-- What one of the two forms allows is allowed. -/
private theorem mem_expansions_choice : side ∈ (choice left right).expansions ↔
    side ∈ left.expansions ∨ side ∈ right.expansions := Iff.rfl

/-- Any number of sequences that the form allows are allowed one after another. -/
private theorem mem_expansions_many : side ∈ (many item).expansions ↔
    ∃ rounds : List (List (Symbol Kind Nonterminal)), side = rounds.flatten ∧
      ∀ round ∈ rounds, round ∈ item.expansions := Language.mem_kstar

/-- One round, and then others. -/
theorem append_mem_expansions_many (h : side ∈ item.expansions)
    (h' : more ∈ (many item).expansions) : side ++ more ∈ (many item).expansions := by
  obtain ⟨rounds, rfl, all⟩ := mem_expansions_many.mp h'
  exact mem_expansions_many.mpr ⟨side :: rounds, rfl, List.forall_mem_cons.mpr ⟨h, all⟩⟩

/-- Whether nothing counts as a round makes no difference. -/
theorem expansions_many_optional : (many (optional item)).expansions = (many item).expansions := by
  simp [expansions, interpret, optional]

/-! ## The symbols of a form -/

/-- The tokens and nonterminals that are written in a form. -/
def symbols : Form → List (Symbol Kind Nonterminal)
  | empty => []
  | token kinds => kinds.map .terminal
  | category n => [.nonterminal n]
  | seq first second => first.symbols ++ second.symbols
  | choice left right => left.symbols ++ right.symbols
  | many item => item.symbols

/-- Each symbol of a sequence that a form allows is written in the form. -/
theorem mem_symbols_of_mem_expansions {symbol : Symbol Kind Nonterminal}
    (h : side ∈ form.expansions) (member : symbol ∈ side) : symbol ∈ form.symbols := by
  induction form generalizing side with
  | empty =>
    rw [mem_expansions_empty.mp h] at member
    cases member
  | token kinds =>
    obtain ⟨kind, isKind, rfl⟩ := mem_expansions_token.mp h
    rw [List.mem_singleton.mp member]
    exact List.mem_map_of_mem isKind
  | category n =>
    rw [mem_expansions_category.mp h] at member
    exact member
  | seq first second ih ih' =>
    obtain ⟨front, inFirst, back, inSecond, rfl⟩ := mem_expansions_seq.mp h
    rw [Form.symbols, List.mem_append]
    exact (List.mem_append.mp member).imp (ih inFirst) (ih' inSecond)
  | choice left right ih ih' =>
    rw [Form.symbols, List.mem_append]
    exact (mem_expansions_choice.mp h).imp (fun h => ih h member) (fun h => ih' h member)
  | many item ih =>
    obtain ⟨rounds, rfl, all⟩ := mem_expansions_many.mp h
    -- The symbol stands in one of the rounds, and each round comes from the item.
    obtain ⟨round, isRound, member⟩ := List.mem_flatten.mp member
    exact ih (all round isRound) member

end Form

namespace Nonterminal

/-- No production uses whole programs. -/
theorem program_not_mem_symbols (n : Nonterminal) :
    .nonterminal .program ∉ n.production.symbols := by
  cases n <;> decide

/-- Only a `print` and a program can have the marker. -/
theorem eq_of_marker_mem_symbols {n : Nonterminal}
    (h : .terminal .endOfInput ∈ n.production.symbols) : n = .printStmt ∨ n = .program := by
  cases n <;> first | exact .inl rfl | exact .inr rfl | exact absurd h (by decide)

end Nonterminal

/-! ## The words of symbols -/

/-- A word is put together from words of symbols: a token stands for itself, and a nonterminal for
    any of its words. -/
def StandsFor : List (Symbol Kind Nonterminal) → List Kind → Prop
  | [], word => word = []
  | .terminal kind :: side, word => ∃ rest, word = kind :: rest ∧ StandsFor side rest
  | .nonterminal n :: side, word =>
    ∃ start rest, word = start ++ rest ∧ Derives (.category n) start ∧ StandsFor side rest

/-- The words of two sequences one after the other are words of the one followed by words of the
    other. -/
private theorem standsFor_append : StandsFor (side ++ more) word ↔
    ∃ start rest, word = start ++ rest ∧ StandsFor side start ∧ StandsFor more rest := by
  induction side generalizing word with
  | nil =>
    constructor
    · intro h
      exact ⟨[], word, rfl, rfl, h⟩
    · intro h
      obtain ⟨_, _, rfl, rfl, h⟩ := h
      exact h
  | cons symbol side ih =>
    cases symbol with
    | terminal kind =>
      simp only [List.cons_append, StandsFor, ih]
      constructor
      · intro h
        obtain ⟨_, rfl, start, rest, rfl, h, h'⟩ := h
        exact ⟨kind :: start, rest, rfl, ⟨start, rfl, h⟩, h'⟩
      · intro h
        obtain ⟨_, rest, rfl, ⟨start, rfl, h⟩, h'⟩ := h
        exact ⟨_, rfl, start, rest, rfl, h, h'⟩
    | nonterminal n =>
      simp only [List.cons_append, StandsFor, ih]
      constructor
      · intro h
        obtain ⟨first, _, rfl, derived, start, rest, rfl, h, h'⟩ := h
        -- What the nonterminal stands for belongs to the word of the first sequence.
        exact ⟨first ++ start, rest, (List.append_assoc ..).symm, ⟨first, start, rfl, derived, h⟩,
          h'⟩
      · intro h
        obtain ⟨_, rest, rfl, ⟨first, start, rfl, derived, h⟩, h'⟩ := h
        exact ⟨first, _, List.append_assoc .., derived, start, rest, rfl, h, h'⟩

/-- What a right-hand side of a form stands for is a word of the form. -/
theorem derives_of_mem_expansions (h : side ∈ form.expansions) (stands : StandsFor side word) :
    Derives form word := by
  induction form generalizing side word with
  | empty =>
    rw [Form.mem_expansions_empty.mp h] at stands
    rw [show word = [] from stands]
    exact .empty
  | token kinds =>
    obtain ⟨kind, member, rfl⟩ := Form.mem_expansions_token.mp h
    obtain ⟨_, rfl, rfl⟩ := stands
    exact .token member
  | category n =>
    rw [Form.mem_expansions_category.mp h] at stands
    obtain ⟨start, _, rfl, derived, rfl⟩ := stands
    rw [List.append_nil]
    exact derived
  | seq first second ih ih' =>
    obtain ⟨front, inFirst, back, inSecond, rfl⟩ := Form.mem_expansions_seq.mp h
    obtain ⟨start, rest, rfl, first, second⟩ := standsFor_append.mp stands
    exact .seq (ih inFirst first) (ih' inSecond second)
  | choice left right ih ih' =>
    rcases Form.mem_expansions_choice.mp h with h | h
    · exact .left (ih h stands)
    · exact .right (ih' h stands)
  | many item ih =>
    obtain ⟨rounds, rfl, all⟩ := Form.mem_expansions_many.mp h
    -- The rounds are taken one by one, each with its own part of the word.
    clear h
    induction rounds generalizing word with
    | nil =>
      rw [show word = [] from stands]
      exact .manyNil
    | cons round rounds ih' =>
      rw [List.forall_mem_cons] at all
      obtain ⟨start, rest, rfl, once, others⟩ := standsFor_append.mp stands
      exact .manyCons (ih all.1 once) (ih' all.2 others)

end LoxSyntax
