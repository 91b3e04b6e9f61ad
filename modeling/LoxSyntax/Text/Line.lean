import LoxSyntax.Text.CodePoints

/-! # Blanks and lines

The characters that may stand between tokens, which the Unicode property `White_Space` holds, and
the lines of a text.  A text is a sequence of lines, each ended by a newline, or by a carriage
return and a newline; the last line may lack its end. -/

namespace LoxSyntax.Text

/-! ## Blank characters -/

/-- The ranges of the property `White_Space`. -/
def blankRanges : CodePoints where
  ranges :=
    [(0x9, 0xd), (0x20, 0x20), (0x85, 0x85), (0xa0, 0xa0), (0x1680, 0x1680), (0x2000, 0x200a),
     (0x2028, 0x2029), (0x202f, 0x202f), (0x205f, 0x205f), (0x3000, 0x3000)]

/-- Whether a character may stand between tokens. -/
def isBlank (c : Char) : Bool := blankRanges.contains c

/-- The end of a line may stand between tokens. -/
theorem isBlank_newline : isBlank '\n' = true := by decide

/-! ## Lines -/

/-- What is left of a text behind its first `n` newlines. -/
def dropLines : Nat → List Char → List Char
  | 0, text => text
  | n + 1, text => dropLines n ((text.dropWhile (· != '\n')).drop 1)

/-- The first line of a text without the characters that end it. -/
def firstLine (text : List Char) : List Char :=
  let line := text.takeWhile (· != '\n')
  -- A carriage return belongs to the line unless a newline follows it.
  if line.length < text.length && line.getLast? == some '\r' then line.dropLast else line

/-- The line with `n` lines before it, without the characters that end it.  It is empty if the text
    has no such line. -/
def lineAt (text : String) (n : Nat) : String := String.ofList (firstLine (dropLines n text.toList))

/-- A text without the blank characters at its end. -/
def trimEnd (text : String) : String :=
  String.ofList (text.toList.reverse.dropWhile isBlank).reverse

end LoxSyntax.Text
