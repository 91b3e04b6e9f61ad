import LoxSyntax.Proofs.Grammar.Writable
import LoxSyntax.Proofs.Recognizer.Completeness

/-! # How far a nonterminal reaches

From any index, the recognizer takes a nonterminal exactly as far as the next token neither goes on
with the nonterminal nor is an `else` that the word could take (`follows_call_iff`).  So the
recognizer is greedy, and where a nonterminal ends is determined by the tokens alone.

For the nonterminals of expressions no `else` has to be kept in view
(`recognizeFrom_expression_iff`).  For statements and declarations it is all that has to be kept in
view (`recognizeFrom_statement_iff`), and whether a word of theirs can take one is settled by the
word (`isOpen_unique`). -/

namespace LoxSyntax

/-- The nonterminals of expressions, those that bind tightest first, and of argument lists. -/
def Nonterminal.expressions : List Nonterminal :=
  [.primary, .call, .unary, .factor, .term, .comparison, .equality, .logicAnd, .logicOr,
   .assignment, .expression, .arguments]

/-- Words of expressions are never open. -/
private theorem Nonterminal.opens_of_mem_expressions {n : Nonterminal} (h : n ∈ expressions) :
    n.opens = false := by
  revert h
  cases n <;> decide

/-- An `else` goes on with a nonterminal only if its word can take it. -/
private theorem Nonterminal.else_not_mem_continuations (n : Nonterminal) :
    .kwElse ∉ n.continuations := by
  cases n <;> decide

namespace Recognizer

variable {tokens : Array Token} {n : Nonterminal} {i j : Nat} {word : List Kind} {isOpen : Bool}

/-- The next token does not go on with a nonterminal. -/
private theorem stops_call_iff : (Plan.call n).stops (kindAt? tokens j) = true ↔
    ∀ kind ∈ n.continuations, kindAt? tokens j ≠ some kind := by
  rw [Plan.stops]
  -- Where no token is left, nothing can go on.
  cases next : kindAt? tokens j with
  | none => simp
  | some kind =>
    rw [Option.all_some, Bool.not_eq_true', ← Bool.not_eq_true, List.contains_iff_mem]
    constructor
    · intro notMember other member same
      rw [Option.some.inj same] at notMember
      exact notMember member
    · intro h member
      exact h kind member rfl

/-- The recognizer takes a word of a nonterminal where nothing goes on with it. -/
theorem follows_call_of_nests (inner : n ≠ .program) (nested : Nests (.category n) isOpen word)
    (spelled : Spells tokens i word j)
    (stops : ∀ kind ∈ n.continuations, kindAt? tokens j ≠ some kind)
    (notElse : isOpen = true → kindAt? tokens j ≠ some .kwElse) :
    ∃ events, Follows tokens (.call n) i events (.ok ()) j := by
  have predictive : (Plan.call n).predictive = true := by simpa [Plan.predictive] using inner
  exact takes (.call n) predictive _ (ne_nil_of_derives_category nested.derives) isOpen i j nested
    spelled (stops_call_iff.mpr stops) notElse

/-- The recognizer takes the tokens of a nonterminal from an index up to another one if they have
    a nested derivation, and the token behind them neither goes on with the nonterminal nor is an
    `else` while the word is open. -/
theorem follows_call_iff (inner : n ≠ .program) :
    (∃ events, Follows tokens (.call n) i events (.ok ()) j) ↔
      i < j ∧ j ≤ tokens.size ∧
        ∃ isOpen, Nests (.category n) isOpen (kindsIn tokens i j) ∧
          (∀ kind ∈ n.continuations, kindAt? tokens j ≠ some kind) ∧
          (isOpen = true → kindAt? tokens j ≠ some .kwElse) := by
  have innerCall := Plan.inner_call.mpr inner
  constructor
  · intro h
    obtain ⟨_, h⟩ := h
    obtain ⟨isOpen, word, spelled, nested, notElse⟩ := h.covers innerCall
    have moved := spelled.lt (ne_nil_of_derives_category nested.derives)
    refine ⟨moved, h.stop_le moved, isOpen, ?_, ?_, notElse⟩
    · -- The word that was taken is the one that the tokens up to the end spell.
      rw [spelled.kindsIn_eq]
      exact nested
    · -- A token that goes on with the nonterminal would have been taken.
      intro kind member next
      have := h.goesOn_eq_false innerCall moved next
      rw [Plan.goesOn, List.contains_iff_mem.mpr member] at this
      cases this
  · intro h
    obtain ⟨moved, within, isOpen, nested, stops, notElse⟩ := h
    exact follows_call_of_nests inner nested (spells_kindsIn (Nat.le_of_lt moved) within) stops
      notElse

/-! ## Expressions -/

/-- The recognizer takes an expression from an index up to another one exactly if the tokens in
    between are one, by the grammar, and the token behind them does not go on with it. -/
theorem recognizeFrom_expression_iff (tokens : Array Token) (n : Nonterminal) (i j : Nat)
    (expression : n ∈ Nonterminal.expressions) :
    ((recognizeFrom tokens n i).outcome = .ok () ∧ (recognizeFrom tokens n i).index = j) ↔
      i < j ∧ j ≤ tokens.size ∧ Derives (.category n) (kindsIn tokens i j) ∧
        ∀ kind ∈ n.continuations, kindAt? tokens j ≠ some kind := by
  have inner : n ≠ .program := by
    intro isProgram
    subst isProgram
    exact absurd expression (by decide)
  have closed : (Form.category n).opens = false := Nonterminal.opens_of_mem_expressions expression
  rw [recognizeFrom_iff, follows_call_iff inner, derives_iff_exists_nests]
  constructor
  · intro h
    obtain ⟨moved, within, isOpen, nested, stops, _⟩ := h
    exact ⟨moved, within, ⟨isOpen, nested⟩, stops⟩
  · intro h
    obtain ⟨moved, within, ⟨isOpen, nested⟩, stops⟩ := h
    -- An expression cannot take an `else`, so none has to be kept from it.
    refine ⟨moved, within, isOpen, nested, stops, fun opened => ?_⟩
    cases opened.symm.trans (nested.eq_false closed)

/-- In `a.b - 1 == c`, the left side of `==` is a sum. -/
theorem recognizeFrom_expression_iff_sum :
    .term ∈ Nonterminal.expressions ∧
      Derives (.category .term) [.identifier, .dot, .identifier, .minus, .number] ∧
      ∀ kind ∈ Nonterminal.term.continuations, some .equalEqual ≠ some kind := by
  have isExpression : .term ∈ Nonterminal.expressions := by decide
  have h := (recognizeFrom_expression_iff ([.identifier, .dot, .identifier, .minus, .number,
    .equalEqual, .identifier].map .ofKind).toArray .term 0 5 isExpression).mp ⟨by cbv, by cbv⟩
  exact ⟨isExpression, h.2.2⟩

/-! ## Statements -/

/-- No word is both open and not: behind an open one the recognizer takes an `else` and a statement,
    and behind one that is not it stops at the `else`. -/
private theorem not_nests_false_of_nests_true (inner : n ≠ .program)
    (opened : Nests (.category n) true word) : ¬ Nests (.category n) false word := by
  intro closed
  obtain ⟨other, -, derived⟩ : Writable (.category .statement) :=
    Nonterminal.writable_of_ordered rfl .statement (Nonterminal.mem_writingOrder (by decide))
  obtain ⟨_, nested⟩ := derived.exists_nests
  obtain ⟨_, longer⟩ := opened.append_else nested
  have spelled := spells_all ((word ++ ([Kind.kwElse] ++ other)).map Token.ofKind)
  rw [map_kind_ofKind] at spelled
  obtain ⟨k, spelledWord, spelledElse⟩ := spells_append.mp spelled
  have isElse := spelledElse.1
  have := spelledElse.lt (by simp)
  -- Read as a word that is not open, it ends before the `else`.
  obtain ⟨_, short⟩ := follows_call_of_nests inner closed spelledWord
    (fun kind member next => by
      rw [isElse, Option.some.injEq] at next
      exact n.else_not_mem_continuations (next ▸ member))
    (fun opened => absurd opened Bool.false_ne_true)
  -- Read as an open word, it goes on to the last token.
  obtain ⟨_, long⟩ := follows_call_of_nests inner longer spelled
    (fun kind _ => by rw [kindAt?_eq_none_iff.mpr (by simp)]; simp)
    (fun _ => by rw [kindAt?_eq_none_iff.mpr (by simp)]; simp)
  have same := (recognizeFrom_eq short).symm.trans (recognizeFrom_eq long)
  rw [Run.mk.injEq] at same
  omega

/-- Whether a word of a nonterminal is open does not depend on the derivation. -/
theorem isOpen_unique {isOpen' : Bool} (inner : n ≠ .program)
    (h : Nests (.category n) isOpen word) (h' : Nests (.category n) isOpen' word) :
    isOpen = isOpen' := by
  cases isOpen <;> cases isOpen'
  · rfl
  · exact absurd h (not_nests_false_of_nests_true inner h')
  · exact absurd h' (not_nests_false_of_nests_true inner h)
  · rfl

/-- The recognizer takes a statement or a declaration from an index up to another one exactly if the
    tokens in between are one in which each `else` belongs to the nearest `if`, and no `else` is
    next that the last statement in it could take.  It depends on the tokens alone whether there is
    such a statement. -/
theorem recognizeFrom_statement_iff (tokens : Array Token) (n : Nonterminal) (i j : Nat)
    (isStatement : n = .statement ∨ n = .declaration) :
    (((recognizeFrom tokens n i).outcome = .ok () ∧ (recognizeFrom tokens n i).index = j) ↔
      i < j ∧ j ≤ tokens.size ∧
        ∃ isOpen, Nests (.category n) isOpen (kindsIn tokens i j) ∧
          (isOpen = true → kindAt? tokens j ≠ some .kwElse)) ∧
    ∀ isOpen isOpen' word, Nests (.category n) isOpen word → Nests (.category n) isOpen' word →
      isOpen = isOpen' := by
  have inner : n ≠ .program := by
    rcases isStatement with rfl | rfl <;> decide
  -- Nothing but an `else` goes on with a statement.
  have none : n.continuations = [] := by
    rcases isStatement with rfl | rfl <;> rfl
  constructor
  · rw [recognizeFrom_iff, follows_call_iff inner, none]
    simp
  · intro _ _ _
    exact isOpen_unique inner

set_option maxRecDepth 4000 in
/-- In `if (a) if (b) c; else d;`, between two braces, the `else` belongs to the inner `if`, and the
    statement is the outer one. -/
theorem recognizeFrom_statement_iff_else :
    (Nonterminal.statement = .statement ∨ Nonterminal.statement = .declaration) ∧
    (recognizeFrom ([.leftBrace, .kwIf, .leftParen, .identifier, .rightParen, .kwIf, .leftParen,
      .identifier, .rightParen, .identifier, .semicolon, .kwElse, .identifier, .semicolon,
      .rightBrace].map .ofKind).toArray .statement 1).index = 14 ∧
    ∃ isOpen, Nests (.category .statement) isOpen [.kwIf, .leftParen, .identifier, .rightParen,
      .kwIf, .leftParen, .identifier, .rightParen, .identifier, .semicolon, .kwElse, .identifier,
      .semicolon] := by
  have isStatement : Nonterminal.statement = .statement ∨ Nonterminal.statement = .declaration :=
    .inl rfl
  have stopped : (recognizeFrom ([.leftBrace, .kwIf, .leftParen, .identifier, .rightParen, .kwIf,
      .leftParen, .identifier, .rightParen, .identifier, .semicolon, .kwElse, .identifier,
      .semicolon, .rightBrace].map .ofKind).toArray .statement 1).index = 14 := by
    cbv
  obtain ⟨-, -, isOpen, nested, -⟩ :=
    (recognizeFrom_statement_iff _ _ 1 14 isStatement).1.mp ⟨by cbv, stopped⟩
  exact ⟨isStatement, stopped, isOpen, nested⟩

end Recognizer

end LoxSyntax
