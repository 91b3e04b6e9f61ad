import LoxSyntax.Token

/-! # Syntax errors

The first place at which a sequence of tokens departs from the grammar. -/

namespace LoxSyntax

/-- The first violation of the grammar in a sequence of tokens. -/
inductive SyntaxError where
  /-- The grammar asks for a token of one of these kinds, and another one stands there. -/
  | unexpectedToken (expected : List Kind) (found : Token)
  /-- The grammar asks for a token of one of these kinds, and all tokens are used up, the marker
      for the end of the input included. -/
  | noTokenLeft (expected : List Kind)
  /-- The grammar asks for an expression, and this token begins none. -/
  | noExpression (found : Token)
  deriving DecidableEq

namespace SyntaxError

/-- The names of the kinds that could go on. -/
def describeExpected : List Kind → String
  | [] => "nothing"
  | [kind] => kind.describe
  | [first, second] => first.describe ++ " or " ++ second.describe
  | kinds => "one of " ++ ", ".intercalate (kinds.map Kind.describe)

/-- The offending token, unless the tokens were used up. -/
def found? : SyntaxError → Option Token
  | unexpectedToken _ found => some found
  | noTokenLeft _ => none
  | noExpression found => some found

/-- The error as it is told to the user. -/
def message : SyntaxError → String
  | unexpectedToken expected found =>
    "unexpected " ++ found.describe ++ ", expected " ++ describeExpected expected
  | noTokenLeft expected =>
    "no input left after the final statement, expected " ++ describeExpected expected
  | noExpression found => "unexpected " ++ found.describe ++ ", expected primary expression"

end SyntaxError

end LoxSyntax
