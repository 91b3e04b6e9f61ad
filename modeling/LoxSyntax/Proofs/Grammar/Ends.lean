import LoxSyntax.Proofs.Grammar.Derives

/-! # The last token of a word

With which kinds the words of a form can end, read off the form as `Form.starts` does it for the
first kind (`mem_ends_of_derives`).  The kinds that the words of a nonterminal end with are written
down in a table, which is checked against the productions: an expression ends with an operand, and a
declaration with a semicolon or a brace, or with the marker for the end of the input. -/

namespace LoxSyntax

variable {form : Form} {kind : Kind} {word : List Kind}

/-- The kinds that an expression ends with. -/
def Kind.expressionEnds : List Kind :=
  [.kwTrue, .kwFalse, .kwNil, .kwThis, .number, .string, .identifier, .rightParen]

/-- The kinds that a declaration ends with.  Only a `print` ends with the marker. -/
def Kind.declarationEnds : List Kind := [.semicolon, .rightBrace, .endOfInput]

/-- The kinds that the words of a nonterminal can end with. -/
def Nonterminal.ends : Nonterminal → List Kind
  | .program => [.endOfInput]
  | .declaration | .statement | .forStmt | .ifStmt | .whileStmt => Kind.declarationEnds
  | .funDecl | .function | .block => [.rightBrace]
  | .varDecl | .exprStmt | .returnStmt => [.semicolon]
  | .printStmt => [.semicolon, .endOfInput]
  | .parameters => [.identifier]
  | .expression | .assignment | .logicOr | .logicAnd | .equality | .comparison | .term | .factor
  | .unary | .call | .primary | .arguments => Kind.expressionEnds

/-- The kinds that the words of a form can end with. -/
def Form.ends : Form → List Kind
  | empty => []
  | token kinds => kinds
  | category n => n.ends
  | seq first second => second.ends ++ if second.nullable then first.ends else []
  | choice left right => left.ends ++ right.ends
  | many item => item.ends

/-- The table of last kinds agrees with the productions. -/
private theorem Nonterminal.ends_production (n : Nonterminal) : n.production.ends ⊆ n.ends := by
  cases n <;> decide

/-- A word of a form ends with one of the kinds that are read off the form. -/
theorem mem_ends_of_derives (h : Derives form word) (last : word.getLast? = some kind) :
    kind ∈ form.ends := by
  induction h with
  | empty | manyNil => cases last
  | token member => exact Option.some.inj last ▸ member
  | @category n _ _ ih => exact n.ends_production (ih last)
  | seq h h' ih ih' =>
    -- If the second part takes nothing, then the word ends as the first part does.
    rw [List.getLast?_append, Option.or_eq_some_iff] at last
    rcases last with last | ⟨none, last⟩
    · exact List.mem_append_left _ (ih' last)
    · obtain rfl := List.getLast?_eq_none_iff.mp none
      simp only [Form.ends, nullable_of_derives h', if_true]
      exact List.mem_append_right _ (ih last)
  | left _ ih => exact List.mem_append_left _ (ih last)
  | right _ ih => exact List.mem_append_right _ (ih last)
  | manyCons _ _ ih ih' =>
    rw [List.getLast?_append, Option.or_eq_some_iff] at last
    rcases last with last | ⟨-, last⟩
    · exact ih' last
    · exact ih last

end LoxSyntax
