import LoxSyntax.Recognizer.Machine

/-! # Cursors

A cursor stands at a place in a sequence of tokens.  It can be asked about the next token, moved
over it, or moved over a whole nonterminal.  A cursor that met a violation of the grammar stays
where it stopped, and can be used further. -/

namespace LoxSyntax

/-- A place in a sequence of tokens: the index of the next token that has not been taken. -/
structure Cursor where
  tokens : Array Token
  index : Nat

namespace Cursor

open Recognizer

/-- A cursor at the first of some tokens. -/
def ofTokens (tokens : List Token) : Cursor := ⟨tokens.toArray, 0⟩

/-- The next token, if there is one. -/
def peek? (cursor : Cursor) : Option Token := cursor.tokens[cursor.index]?

/-- Whether the marker for the end of the input is next, or no token is left. -/
def isAtEnd (cursor : Cursor) : Bool := atEnd cursor.tokens cursor.index

/-- Whether the next token is of one of these kinds. -/
def isNext (cursor : Cursor) (kinds : List Kind) : Bool := nextIs cursor.tokens cursor.index kinds

/-- Moves over the next token if it is of one of these kinds, and tells whether it was. -/
def takeIf (cursor : Cursor) (kinds : List Kind) : Bool × Cursor :=
  if cursor.isNext kinds then
    (true, { cursor with index := cursor.index + 1 })
  else
    (false, cursor)

/-- Moves over the next token, which must be of one of these kinds. -/
def expect (cursor : Cursor) (kinds : List Kind) : Except SyntaxError Token × Cursor :=
  match cursor.peek? with
  | some token =>
    if kinds.contains token.kind then
      (.ok token, { cursor with index := cursor.index + 1 })
    else
      (.error (.unexpectedToken kinds token), cursor)
  | none => (.error (.noTokenLeft kinds), cursor)

/-- Moves over a nonterminal, or to the first violation of the grammar in it. -/
def recognize (cursor : Cursor) (n : Nonterminal) : Except SyntaxError Unit × Cursor :=
  let run := recognizeFrom cursor.tokens n cursor.index
  (run.outcome, { cursor with index := run.index })

end Cursor

end LoxSyntax
