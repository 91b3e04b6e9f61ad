import LoxSyntax.Check
import LoxSyntax.Json.Basic

/-! # Tokens and rejections as JSON

The machine-readable forms of positions, tokens and errors.  An error is an object whose member
`kind` names its cause. -/

namespace LoxSyntax

/-- A position as JSON, with the column counted from zero. -/
def Position.toJson (position : Position) : Json :=
  .object [("line", .number position.line), ("column", .number position.column)]

/-- A kind as JSON. -/
def Kind.toJson (kind : Kind) : Json := .string kind.label

/-- A token as JSON. -/
def Token.toJson (token : Token) : Json :=
  .object [("kind", token.kind.toJson), ("lexeme", .string token.lexeme),
    ("span", token.position.toJson)]

/-- Tokens as JSON. -/
def Token.listToJson (tokens : List Token) : Json := .array (tokens.map Token.toJson)

/-- A lexical error as JSON. -/
def LexicalError.toJson : LexicalError → Json
  | .strayCharacter char position => .object [("kind", .string "unexpected_character"),
      ("ch", .string char.toString), ("span", position.toJson)]
  | .unclosedString position => .object [("kind", .string "unterminated_string"),
      ("span", position.toJson)]

/-- A syntax error as JSON. -/
def SyntaxError.toJson : SyntaxError → Json
  | .unexpectedToken expected found => .object [("kind", .string "unexpected_token"),
      ("expected", .array (expected.map Kind.toJson)), ("found", found.toJson)]
  | .noTokenLeft expected => .object [("kind", .string "unexpected_end_of_input"),
      ("expected", .array (expected.map Kind.toJson))]
  | .noExpression found => .object [("kind", .string "expected_primary"),
      ("found", found.toJson)]

/-- A rejection as JSON. -/
def Rejection.toJson : Rejection → Json
  | .lexical error => error.toJson
  | .syntactic error => error.toJson

end LoxSyntax
