import LoxSyntax.Grammar.Production

/-! # Derivations

How the words of a form are put together from the words of its parts, and what can be read off a
form about its words: whether the empty word is one (`nullable_of_derives`), and with which kinds a
word can begin (`mem_starts_of_derives`).  The kinds that the words of a nonterminal begin with are
written down in a table, which is checked against the productions. -/

namespace LoxSyntax

variable {form first second left right item : Form} {n : Nonterminal} {kind : Kind}
  {kinds word : List Kind}

/-! ## The words of a form -/

@[simp] theorem derives_empty_iff : Derives .empty word ↔ word = [] := by
  constructor
  · intro h
    cases h
    rfl
  · rintro rfl
    exact .empty

@[simp] theorem derives_token_iff :
    Derives (.token kinds) word ↔ ∃ kind ∈ kinds, word = [kind] := by
  constructor
  · intro h
    cases h with
    | token member => exact ⟨_, member, rfl⟩
  · intro h
    obtain ⟨kind, member, rfl⟩ := h
    exact .token member

/-- The words of a nonterminal are those of its production. -/
theorem derives_category_iff : Derives (.category n) word ↔ Derives n.production word := by
  constructor
  · intro h
    cases h with
    | category h => exact h
  · exact .category

@[simp] theorem derives_seq_iff : Derives (.seq first second) word ↔
    ∃ start rest, word = start ++ rest ∧ Derives first start ∧ Derives second rest := by
  constructor
  · intro h
    cases h with
    | seq h h' => exact ⟨_, _, rfl, h, h'⟩
  · intro h
    obtain ⟨start, rest, rfl, h, h'⟩ := h
    exact .seq h h'

@[simp] theorem derives_choice_iff :
    Derives (.choice left right) word ↔ Derives left word ∨ Derives right word := by
  constructor
  · intro h
    cases h with
    | left h => exact .inl h
    | right h => exact .inr h
  · rintro (h | h)
    · exact .left h
    · exact .right h

/-- One token of the only kind that is allowed. -/
theorem derives_single (kind : Kind) : Derives (.token [kind]) [kind] :=
  .token (List.mem_singleton_self kind)

/-- A form once is the form repeated once. -/
theorem Derives.many_once (h : Derives item word) : Derives (.many item) word := by
  rw [← List.append_nil word]
  exact .manyCons h .manyNil

/-- Repetitions of a form one after the other are a repetition of it. -/
theorem Derives.many_append {more : List Kind} (h : Derives (.many item) word)
    (h' : Derives (.many item) more) : Derives (.many item) (word ++ more) := by
  -- The induction is on the first repetition, so its form is kept as it is by an equation.
  generalize same : Form.many item = form at h
  induction h with
  | manyNil =>
    cases same
    exact h'
  | manyCons once _ _ ih =>
    cases same
    rw [List.append_assoc]
    exact .manyCons once (ih rfl)
  | empty | token | category | seq | left | right => cases same

/-! ## The empty word -/

/-- Whether the empty word is a word of a form.  No nonterminal has it. -/
def Form.nullable : Form → Bool
  | empty => true
  | token _ => false
  | category _ => false
  | seq first second => first.nullable && second.nullable
  | choice left right => left.nullable || right.nullable
  | many _ => true

/-- No production allows the empty word. -/
private theorem Nonterminal.nullable_production (n : Nonterminal) :
    n.production.nullable = false := by
  cases n <;> rfl

/-- A form with the empty word shows that it has one. -/
theorem nullable_of_derives (h : Derives form []) : form.nullable = true := by
  generalize nothing : ([] : List Kind) = word at h
  induction h with
  | empty | manyNil => rfl
  | token => simp at nothing
  | @category n _ _ ih =>
    -- The production would allow the empty word, and none does.
    have := ih nothing
    rw [n.nullable_production] at this
    cases this
  | seq _ _ ih ih' =>
    obtain ⟨rfl, rfl⟩ := List.nil_eq_append_iff.mp nothing
    rw [Form.nullable, ih rfl, ih' rfl]
    rfl
  | left _ ih => rw [Form.nullable, ih nothing, Bool.true_or]
  | right _ ih => rw [Form.nullable, ih nothing, Bool.or_true]
  | manyCons => rfl

/-- The words of a nonterminal have at least one token. -/
theorem ne_nil_of_derives_category (h : Derives (.category n) word) : word ≠ [] := by
  rintro rfl
  cases nullable_of_derives h

/-! ## The first token of a word -/

/-- The kinds that an operand begins with. -/
def Kind.operandStarts : List Kind :=
  [.kwTrue, .kwFalse, .kwNil, .kwThis, .number, .string, .identifier, .leftParen, .kwSuper]

/-- The kinds that an expression begins with: those of operands, and the prefix operators. -/
def Kind.expressionStarts : List Kind := operandStarts ++ [.bang, .minus]

/-- The kinds that a statement begins with. -/
def Kind.statementStarts : List Kind :=
  [.kwFor, .kwIf, .kwPrint, .kwReturn, .kwWhile, .leftBrace] ++ expressionStarts

/-- The kinds that the words of a nonterminal can begin with. -/
def Nonterminal.starts : Nonterminal → List Kind
  | .program => [.kwFun, .kwVar, .endOfInput] ++ Kind.statementStarts
  | .declaration => [.kwFun, .kwVar] ++ Kind.statementStarts
  | .statement => Kind.statementStarts
  | .funDecl => [.kwFun]
  | .varDecl => [.kwVar]
  | .forStmt => [.kwFor]
  | .ifStmt => [.kwIf]
  | .printStmt => [.kwPrint]
  | .returnStmt => [.kwReturn]
  | .whileStmt => [.kwWhile]
  | .block => [.leftBrace]
  | .function | .parameters => [.identifier]
  | .call | .primary => Kind.operandStarts
  | .exprStmt | .expression | .assignment | .logicOr | .logicAnd | .equality | .comparison
  | .term | .factor | .unary | .arguments => Kind.expressionStarts

/-- The kinds that the words of a form can begin with. -/
def Form.starts : Form → List Kind
  | empty => []
  | token kinds => kinds
  | category n => n.starts
  | seq first second => first.starts ++ if first.nullable then second.starts else []
  | choice left right => left.starts ++ right.starts
  | many item => item.starts

/-- The table of first kinds agrees with the productions. -/
private theorem Nonterminal.starts_production (n : Nonterminal) :
    n.production.starts ⊆ n.starts := by
  cases n <;> decide

/-- A word of a form begins with one of the kinds that are read off the form. -/
theorem mem_starts_of_derives (h : Derives form (kind :: word)) : kind ∈ form.starts := by
  generalize same : kind :: word = whole at h
  induction h generalizing word with
  | empty | manyNil => cases same
  | token member =>
    simp only [List.cons.injEq] at same
    exact same.1 ▸ member
  | @category n _ _ ih => exact n.starts_production (ih same)
  | @seq first second start rest h h' ih ih' =>
    -- If the first part takes nothing, then the word begins as the second part does.
    cases start with
    | nil =>
      have := nullable_of_derives h
      simp only [Form.starts, this, if_true]
      exact List.mem_append_right _ (ih' same)
    | cons _ start =>
      simp only [List.cons_append, List.cons.injEq] at same
      exact List.mem_append_left _ (ih (by rw [same.1]))
  | left _ ih => exact List.mem_append_left _ (ih same)
  | right _ ih => exact List.mem_append_right _ (ih same)
  | @manyCons item start rest h h' ih ih' =>
    cases start with
    | nil => exact ih' same
    | cons _ start =>
      simp only [List.cons_append, List.cons.injEq] at same
      exact ih (by rw [same.1])

end LoxSyntax
