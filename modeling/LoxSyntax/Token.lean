import LoxSyntax.Position

/-! # Tokens

A token is a kind together with the text it was read from, its lexeme, and the position where that
text begins.  The kinds are named in three ways: `describe` in messages, `label` in machine-readable
output, and `title` in traces. -/

namespace LoxSyntax

/-! ## Kinds -/

/-- What a token is, its text and place apart. -/
inductive Kind where
  | kwTrue | kwFalse | kwNil | kwThis | kwSuper | kwWhile | kwPrint | kwReturn | kwIf | kwElse
  | kwFor | kwVar | kwFun | kwAnd | kwOr
  | bang | greater | greaterEqual | less | lessEqual | bangEqual | equalEqual | plus | minus
  | star | slash | equal
  | leftParen | rightParen | leftBrace | rightBrace | dot | comma | semicolon
  | number | string | identifier | endOfInput
  deriving DecidableEq, Inhabited

namespace Kind

/-- Every kind once. -/
def all : List Kind :=
  [.kwTrue, .kwFalse, .kwNil, .kwThis, .kwSuper, .kwWhile, .kwPrint, .kwReturn, .kwIf, .kwElse,
   .kwFor, .kwVar, .kwFun, .kwAnd, .kwOr, .bang, .greater, .greaterEqual, .less, .lessEqual,
   .bangEqual, .equalEqual, .plus, .minus, .star, .slash, .equal, .leftParen, .rightParen,
   .leftBrace, .rightBrace, .dot, .comma, .semicolon, .number, .string, .identifier, .endOfInput]

/-- No kind has been left out of the list. -/
theorem mem_all (kind : Kind) : kind ∈ all := by cases kind <;> decide

/-- The text of the kinds that are always spelled in one way. -/
def spelling? : Kind → Option String
  | .kwTrue => some "true"
  | .kwFalse => some "false"
  | .kwNil => some "nil"
  | .kwThis => some "this"
  | .kwSuper => some "super"
  | .kwWhile => some "while"
  | .kwPrint => some "print"
  | .kwReturn => some "return"
  | .kwIf => some "if"
  | .kwElse => some "else"
  | .kwFor => some "for"
  | .kwVar => some "var"
  | .kwFun => some "fun"
  | .kwAnd => some "and"
  | .kwOr => some "or"
  | .bang => some "!"
  | .greater => some ">"
  | .greaterEqual => some ">="
  | .less => some "<"
  | .lessEqual => some "<="
  | .bangEqual => some "!="
  | .equalEqual => some "=="
  | .plus => some "+"
  | .minus => some "-"
  | .star => some "*"
  | .slash => some "/"
  | .equal => some "="
  | .leftParen => some "("
  | .rightParen => some ")"
  | .leftBrace => some "\x7b"
  | .rightBrace => some "\x7d"
  | .dot => some "."
  | .comma => some ","
  | .semicolon => some ";"
  | .number | .string | .identifier | .endOfInput => none

/-- The kind as messages name it: its spelling in quotation marks, or the name of the class of
    texts that it stands for. -/
def describe : Kind → String
  | .number => "number"
  | .string => "string"
  | .identifier => "identifier"
  | .endOfInput => "end of input"
  | kind => "'" ++ (kind.spelling?.getD "") ++ "'"

/-- The kind as machine-readable output names it. -/
def label : Kind → String
  | .kwTrue => "TRUE"
  | .kwFalse => "FALSE"
  | .kwNil => "NIL"
  | .kwThis => "THIS"
  | .kwSuper => "SUPER"
  | .kwWhile => "WHILE"
  | .kwPrint => "PRINT"
  | .kwReturn => "RETURN"
  | .kwIf => "IF"
  | .kwElse => "ELSE"
  | .kwFor => "FOR"
  | .kwVar => "VAR"
  | .kwFun => "FUN"
  | .kwAnd => "AND"
  | .kwOr => "OR"
  | .bang => "BANG"
  | .greater => "GREATER"
  | .greaterEqual => "GREATER_EQUAL"
  | .less => "LESS"
  | .lessEqual => "LESS_EQUAL"
  | .bangEqual => "BANG_EQUAL"
  | .equalEqual => "EQUAL_EQUAL"
  | .plus => "PLUS"
  | .minus => "MINUS"
  | .star => "STAR"
  | .slash => "SLASH"
  | .equal => "EQUAL"
  | .leftParen => "LEFT_PAREN"
  | .rightParen => "RIGHT_PAREN"
  | .leftBrace => "LEFT_BRACE"
  | .rightBrace => "RIGHT_BRACE"
  | .dot => "DOT"
  | .comma => "COMMA"
  | .semicolon => "SEMICOLON"
  | .number => "NUMBER"
  | .string => "STRING"
  | .identifier => "IDENTIFIER"
  | .endOfInput => "EOF"

/-- The kind as traces name it. -/
def title : Kind → String
  | .kwTrue => "True"
  | .kwFalse => "False"
  | .kwNil => "Nil"
  | .kwThis => "This"
  | .kwSuper => "Super"
  | .kwWhile => "While"
  | .kwPrint => "Print"
  | .kwReturn => "Return"
  | .kwIf => "If"
  | .kwElse => "Else"
  | .kwFor => "For"
  | .kwVar => "Var"
  | .kwFun => "Fun"
  | .kwAnd => "And"
  | .kwOr => "Or"
  | .bang => "Bang"
  | .greater => "Greater"
  | .greaterEqual => "GreaterEqual"
  | .less => "Less"
  | .lessEqual => "LessEqual"
  | .bangEqual => "BangEqual"
  | .equalEqual => "EqualEqual"
  | .plus => "Plus"
  | .minus => "Minus"
  | .star => "Star"
  | .slash => "Slash"
  | .equal => "Equal"
  | .leftParen => "LeftParen"
  | .rightParen => "RightParen"
  | .leftBrace => "LeftBrace"
  | .rightBrace => "RightBrace"
  | .dot => "Dot"
  | .comma => "Comma"
  | .semicolon => "Semicolon"
  | .number => "Number"
  | .string => "String"
  | .identifier => "Identifier"
  | .endOfInput => "Eof"

/-- The kind that has a given label. -/
def ofLabel? (text : String) : Option Kind := all.find? fun kind => kind.label == text

/-- Labels can be read back, so no two kinds share one. -/
theorem ofLabel?_label (kind : Kind) : ofLabel? kind.label = some kind := by
  cases kind <;> decide +kernel

end Kind

/-! ## Tokens -/

/-- A lexical token. -/
structure Token where
  kind : Kind
  lexeme : String
  position : Position
  deriving DecidableEq, Inhabited

namespace Token

/-- The marker behind the last token of a text, whose lexeme is empty. -/
def endOfInput (position : Position) : Token := ⟨.endOfInput, "", position⟩

/-- The token as messages name it: its lexeme in quotation marks, or the end of the input. -/
def describe (token : Token) : String :=
  match token.kind with
  | .endOfInput => Kind.endOfInput.describe
  | _ => "'" ++ token.lexeme ++ "'"

end Token

end LoxSyntax
