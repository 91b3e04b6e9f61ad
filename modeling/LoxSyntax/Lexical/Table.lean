import LoxSyntax.Lexical.Pattern
import LoxSyntax.Token

/-! # The lexical table

The kinds of tokens and their patterns, in order of precedence: the first row that fits a text
decides what token the text begins with.  Keywords stand before identifiers, and signs of two
characters before those of one.

Main statement: the lexeme that is found is not empty and lies within the text,
`bounds_of_firstMatch?`. -/

namespace LoxSyntax.Lexical

/-- A row of the lexical table. -/
structure Row where
  kind : Kind
  pattern : Pattern

/-- The length of the lexeme of a row that a text begins with, together with its kind. -/
def Row.fit? (row : Row) (text : List Char) : Option (Kind × Nat) :=
  (row.pattern.length? text).map fun length => (row.kind, length)

/-- A row fits with its own kind, and with the length that its pattern reads. -/
theorem Row.fit?_eq_some_iff {row : Row} {text : List Char} {kind : Kind} {length : Nat} :
    row.fit? text = some (kind, length) ↔
      row.kind = kind ∧ row.pattern.length? text = some length := by
  simp only [Row.fit?, Option.map_eq_some_iff, Prod.mk.injEq]
  constructor
  · intro h
    obtain ⟨_, found, isKind, rfl⟩ := h
    exact ⟨isKind, found⟩
  · intro h
    exact ⟨length, h.2, h.1, rfl⟩

/-- A row does not fit where its pattern reads nothing. -/
theorem Row.fit?_eq_none_iff {row : Row} {text : List Char} :
    row.fit? text = none ↔ row.pattern.length? text = none := Option.map_eq_none_iff

/-- The rows in order of precedence. -/
def table : List Row := [
  ⟨.kwTrue, .keyword ['t', 'r', 'u', 'e']⟩,
  ⟨.kwFalse, .keyword ['f', 'a', 'l', 's', 'e']⟩,
  ⟨.kwNil, .keyword ['n', 'i', 'l']⟩,
  ⟨.kwThis, .keyword ['t', 'h', 'i', 's']⟩,
  ⟨.kwSuper, .keyword ['s', 'u', 'p', 'e', 'r']⟩,
  ⟨.kwWhile, .keyword ['w', 'h', 'i', 'l', 'e']⟩,
  ⟨.kwPrint, .keyword ['p', 'r', 'i', 'n', 't']⟩,
  ⟨.kwReturn, .keyword ['r', 'e', 't', 'u', 'r', 'n']⟩,
  ⟨.kwIf, .keyword ['i', 'f']⟩,
  ⟨.kwElse, .keyword ['e', 'l', 's', 'e']⟩,
  ⟨.kwFor, .keyword ['f', 'o', 'r']⟩,
  ⟨.kwVar, .keyword ['v', 'a', 'r']⟩,
  ⟨.kwFun, .keyword ['f', 'u', 'n']⟩,
  ⟨.kwAnd, .keyword ['a', 'n', 'd']⟩,
  ⟨.kwOr, .keyword ['o', 'r']⟩,
  ⟨.greaterEqual, .symbol ['>', '=']⟩,
  ⟨.lessEqual, .symbol ['<', '=']⟩,
  ⟨.bangEqual, .symbol ['!', '=']⟩,
  ⟨.equalEqual, .symbol ['=', '=']⟩,
  ⟨.bang, .symbol ['!']⟩,
  ⟨.greater, .symbol ['>']⟩,
  ⟨.less, .symbol ['<']⟩,
  ⟨.plus, .symbol ['+']⟩,
  ⟨.minus, .symbol ['-']⟩,
  ⟨.star, .symbol ['*']⟩,
  ⟨.slash, .symbol ['/']⟩,
  ⟨.equal, .symbol ['=']⟩,
  ⟨.leftParen, .symbol ['(']⟩,
  ⟨.rightParen, .symbol [')']⟩,
  ⟨.leftBrace, .symbol ['{']⟩,
  ⟨.rightBrace, .symbol ['}']⟩,
  ⟨.dot, .symbol ['.']⟩,
  ⟨.comma, .symbol [',']⟩,
  ⟨.semicolon, .symbol [';']⟩,
  ⟨.number, .number⟩,
  ⟨.string, .string⟩,
  ⟨.identifier, .identifier⟩]

/-- The kind and the length of the token that a text begins with, by the first row that fits. -/
def firstMatch? (text : List Char) : Option (Kind × Nat) := table.findSome? (·.fit? text)

/-- The kind of the token that a text begins with, and the length of its lexeme in bytes of
    UTF-8. -/
def matchStart? (text : String) : Option (Kind × Nat) :=
  (firstMatch? text.toList).map fun (kind, length) =>
    (kind, (String.ofList (text.toList.take length)).utf8ByteSize)

/-- No row of the table fits the empty lexeme. -/
theorem isSolid_of_mem_table : ∀ row ∈ table, row.pattern.isSolid = true := by decide

/-- What a text begins with is found by a row of the table. -/
theorem exists_row_of_firstMatch? {text : List Char} {kind : Kind} {length : Nat}
    (h : firstMatch? text = some (kind, length)) :
    ∃ row ∈ table, row.kind = kind ∧ row.pattern.length? text = some length := by
  obtain ⟨row, member, fits⟩ := List.exists_of_findSome?_eq_some h
  exact ⟨row, member, Row.fit?_eq_some_iff.mp fits⟩

/-- The lexeme that a text begins with is not empty and ends within the text. -/
theorem bounds_of_firstMatch? {text : List Char} {kind : Kind} {length : Nat}
    (h : firstMatch? text = some (kind, length)) : 0 < length ∧ length ≤ text.length := by
  obtain ⟨row, member, -, found⟩ := exists_row_of_firstMatch? h
  exact Pattern.bounds_of_length? (isSolid_of_mem_table row member) found

end LoxSyntax.Lexical
