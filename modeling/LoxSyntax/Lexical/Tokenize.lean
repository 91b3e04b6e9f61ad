import LoxSyntax.Lexical.Table

/-! # Splitting a text into tokens

`scan` walks over a text: it skips a blank character, or takes the token that the rest of the text
begins with, and stops at the first place with neither.  `tokenize` adds the marker for the end of
the input, which stands right behind the last token, so that trailing blanks do not move it. -/

namespace LoxSyntax

/-! ## Errors -/

/-- The first place at which a text has no token. -/
inductive LexicalError where
  /-- A character that begins no token. -/
  | strayCharacter (char : Char) (position : Position)
  /-- A quotation mark without a second one on its line. -/
  | unclosedString (position : Position)
  deriving DecidableEq

namespace LexicalError

/-- The place of the offending character. -/
def position : LexicalError → Position
  | strayCharacter _ position => position
  | unclosedString position => position

/-- The error as it is told to the user. -/
def message : LexicalError → String
  | strayCharacter char _ => "unexpected character '" ++ char.toString ++ "'"
  | unclosedString _ => "unterminated string"

end LexicalError

/-! ## Walking over a text -/

namespace Lexical

/-- What a walk over a text found: the tokens before it stopped, and either why it could not go on
    or the position behind the last token. -/
structure Scan where
  tokens : List Token
  outcome : Except LexicalError Position

/-- The error at a character that begins no token.  A quotation mark begins none only if the string
    behind it is not closed. -/
def errorAt (char : Char) (position : Position) : LexicalError :=
  if char = '"' then .unclosedString position else .strayCharacter char position

/-- Walks over the rest of a text from the position `here`.  The tokens found so far come last
    first, and `lastEnd` is the position behind the latest of them. -/
def scanFrom (text : List Char) (here lastEnd : Position) (found : List Token) : Scan :=
  match text with
  | [] => ⟨found.reverse, .ok lastEnd⟩
  | c :: rest =>
    if Text.isBlank c then
      scanFrom rest (here.advance c) lastEnd found
    else
      match fits : firstMatch? (c :: rest) with
      | none => ⟨found.reverse, .error (errorAt c here)⟩
      | some (kind, length) =>
        have := bounds_of_firstMatch? fits
        let token : Token := ⟨kind, String.ofList ((c :: rest).take length), here⟩
        -- No lexeme holds a newline, so the next character stands on the same line.
        let after := here.shift length
        scanFrom ((c :: rest).drop length) after after (token :: found)
termination_by text.length
decreasing_by
  · simp
  · rw [List.length_drop]
    omega

/-- Walks over a whole text. -/
def scan (text : String) : Scan := scanFrom text.toList .start .start []

end Lexical

/-- Splits a text into its tokens, the last of which marks the end of the input. -/
def tokenize (text : String) : Except LexicalError (List Token) :=
  match Lexical.scan text with
  | ⟨tokens, .ok last⟩ => .ok (tokens ++ [Token.endOfInput last])
  | ⟨_, .error error⟩ => .error error

end LoxSyntax
