import LoxSyntax.Lexical.Tokenize
import LoxSyntax.Recognizer.Machine

/-! # Checking a source text

A source text is accepted if it splits into tokens and these form a program.  If not, it is rejected
for the first lexical error, or else for the first syntax error.  Each rejection has a code, a
message, in most cases a position, and for some common slips a piece of advice. -/

namespace LoxSyntax

/-! ## Rejections -/

/-- Why a source text is rejected. -/
inductive Rejection where
  | lexical (error : LexicalError)
  | syntactic (error : SyntaxError)
  deriving DecidableEq

namespace Rejection

/-- A short name of the cause that does not change with the wording of messages. -/
def code : Rejection → String
  | lexical (.strayCharacter ..) => "E0001"
  | lexical (.unclosedString ..) => "E0002"
  | syntactic (.unexpectedToken ..) => "E0101"
  | syntactic (.noTokenLeft ..) => "E0102"
  | syntactic (.noExpression ..) => "E0103"

/-- The rejection as it is told to the user. -/
def message : Rejection → String
  | lexical error => error.message
  | syntactic error => error.message

/-- The place of the offending character or token, unless all tokens were used up. -/
def position? : Rejection → Option Position
  | lexical error => some error.position
  | syntactic error => error.found?.map (·.position)

/-- What the user could do about the rejection, where that is plain: close a string, end the last
    statement, or close the blocks that are open at the end of the input. -/
def help? : Rejection → Option String
  | lexical (.unclosedString _) => some "strings must be closed with '\"' on the line they start"
  | lexical (.strayCharacter ..) => none
  | syntactic (.unexpectedToken expected found) =>
    if found.kind ≠ .endOfInput then none
    else if .semicolon ∈ expected then some "add ';' to terminate the statement"
    else if .rightBrace ∈ expected then some "a block is still open; close it with '\x7d'"
    else none
  | syntactic (.noTokenLeft expected) =>
    if .rightBrace ∈ expected then some "a block is still open; close it with '\x7d'" else none
  | syntactic (.noExpression _) => none

end Rejection

/-! ## Checks -/

/-- Accepts a source text, or says why it is no program. -/
def check (source : String) : Except Rejection Unit :=
  match tokenize source with
  | .error error => .error (.lexical error)
  | .ok tokens => (recognize tokens).mapError .syntactic

/-- Whether a source text is a program. -/
def accepts (source : String) : Bool := (check source).toBool

end LoxSyntax
