import LoxSyntax.Grammar.Nonterminal
import LoxSyntax.Token

/-! # The grammar of Lox

Each nonterminal has one production, whose right-hand side is built from token kinds and
nonterminals by sequence, choice and repetition.  `Derives` says which sequences of token kinds a
right-hand side stands for; it chooses freely where the grammar is ambiguous, as at an `else` that
two `if`s could take. -/

namespace LoxSyntax

/-- The right-hand side of a production. -/
inductive Form where
  /-- Nothing. -/
  | empty
  /-- One token of one of these kinds. -/
  | token (kinds : List Kind)
  /-- Whatever a nonterminal stands for. -/
  | category (n : Nonterminal)
  /-- One form and then another. -/
  | seq (first second : Form)
  /-- One of two forms. -/
  | choice (left right : Form)
  /-- A form any number of times. -/
  | many (item : Form)
  deriving DecidableEq

namespace Form

/-- The forms of a list one after another. -/
def inOrder : List Form → Form
  | [] => empty
  | [form] => form
  | form :: rest => seq form (inOrder rest)

/-- One of the forms of a list, of which there is at least one. -/
def oneOf (form : Form) : List Form → Form
  | [] => form
  | next :: rest => choice form (oneOf next rest)

/-- A form or nothing. -/
def optional (form : Form) : Form := choice form empty

/-- A nonterminal once, or several times with a token of one of these kinds in between. -/
def separated (n : Nonterminal) (separators : List Kind) : Form :=
  seq (category n) (many (seq (token separators) (category n)))

end Form

/-- The right-hand side of the production of a nonterminal. -/
def Nonterminal.production : Nonterminal → Form
  | .program => .seq (.many (.category .declaration)) (.token [.endOfInput])
  | .declaration => .oneOf (.category .funDecl) [.category .varDecl, .category .statement]
  | .funDecl => .seq (.token [.kwFun]) (.category .function)
  | .varDecl => .inOrder [.token [.kwVar], .token [.identifier],
      .optional (.seq (.token [.equal]) (.category .expression)), .token [.semicolon]]
  | .statement => .oneOf (.category .forStmt) [.category .ifStmt, .category .printStmt,
      .category .returnStmt, .category .whileStmt, .category .block, .category .exprStmt]
  | .exprStmt => .seq (.category .expression) (.token [.semicolon])
  | .forStmt => .inOrder [.token [.kwFor], .token [.leftParen],
      .oneOf (.category .varDecl) [.category .exprStmt, .token [.semicolon]],
      .optional (.category .expression), .token [.semicolon],
      .optional (.category .expression), .token [.rightParen], .category .statement]
  | .ifStmt => .inOrder [.token [.kwIf], .token [.leftParen], .category .expression,
      .token [.rightParen], .category .statement,
      .optional (.seq (.token [.kwElse]) (.category .statement))]
  | .printStmt => .inOrder [.token [.kwPrint], .category .expression,
      .token [.semicolon, .endOfInput]]
  | .returnStmt => .inOrder [.token [.kwReturn], .optional (.category .expression),
      .token [.semicolon]]
  | .whileStmt => .inOrder [.token [.kwWhile], .token [.leftParen], .category .expression,
      .token [.rightParen], .category .statement]
  | .block => .inOrder [.token [.leftBrace], .many (.category .declaration),
      .token [.rightBrace]]
  | .function => .inOrder [.token [.identifier], .token [.leftParen],
      .optional (.category .parameters), .token [.rightParen], .category .block]
  | .parameters => .seq (.token [.identifier])
      (.many (.seq (.token [.comma]) (.token [.identifier])))
  | .expression => .category .assignment
  | .assignment => .seq (.category .logicOr)
      (.optional (.seq (.token [.equal]) (.category .assignment)))
  | .logicOr => .separated .logicAnd [.kwOr]
  | .logicAnd => .separated .equality [.kwAnd]
  | .equality => .separated .comparison [.bangEqual, .equalEqual]
  | .comparison => .separated .term [.less, .lessEqual, .greater, .greaterEqual]
  | .term => .separated .factor [.plus, .minus]
  | .factor => .separated .unary [.star, .slash]
  | .unary => .choice (.seq (.token [.bang, .minus]) (.category .unary)) (.category .call)
  | .call => .seq (.category .primary) (.many (.choice
      (.inOrder [.token [.leftParen], .optional (.category .arguments), .token [.rightParen]])
      (.seq (.token [.dot]) (.token [.identifier]))))
  | .primary => .oneOf
      (.token [.kwTrue, .kwFalse, .kwNil, .kwThis, .number, .string, .identifier])
      [.inOrder [.token [.leftParen], .category .expression, .token [.rightParen]],
       .inOrder [.token [.kwSuper], .token [.dot], .token [.identifier]]]
  | .arguments => .separated .expression [.comma]

/-- A form stands for a sequence of token kinds. -/
inductive Derives : Form → List Kind → Prop
  | empty : Derives .empty []
  | token {kind : Kind} {kinds : List Kind} : kind ∈ kinds → Derives (.token kinds) [kind]
  | category {n : Nonterminal} {word : List Kind} :
    Derives n.production word → Derives (.category n) word
  | seq {first second : Form} {word more : List Kind} :
    Derives first word → Derives second more → Derives (.seq first second) (word ++ more)
  | left {left right : Form} {word : List Kind} :
    Derives left word → Derives (.choice left right) word
  | right {left right : Form} {word : List Kind} :
    Derives right word → Derives (.choice left right) word
  | manyNil {item : Form} : Derives (.many item) []
  | manyCons {item : Form} {word more : List Kind} :
    Derives item word → Derives (.many item) more → Derives (.many item) (word ++ more)

end LoxSyntax
