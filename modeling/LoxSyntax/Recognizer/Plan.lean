import LoxSyntax.Grammar.Nonterminal
import LoxSyntax.Token

/-! # Plans of recognition

A plan says how to recognize a nonterminal with one token of lookahead: in which order tokens are
looked at and taken, and which branch is followed after each look.  It is the grammar made
deterministic, so its choices never have to be taken back. -/

namespace LoxSyntax

/-- A way to recognize a part of the input from left to right. -/
inductive Plan where
  /-- Nothing is left to do. -/
  | done
  /-- No expression begins at the next token. -/
  | reject
  /-- Take the next token, which must be of one of these kinds. -/
  | expect (kinds : List Kind)
  /-- Recognize a nonterminal. -/
  | call (n : Nonterminal)
  /-- Follow one plan and then another. -/
  | seq (first second : Plan)
  /-- Follow one of two plans, by whether the next token is of one of these kinds. -/
  | ifNext (kinds : List Kind) (yes no : Plan)
  /-- Take the next token if it is of one of these kinds and follow the first plan, or else leave
      it and follow the second. -/
  | ifTake (kinds : List Kind) (yes no : Plan)
  /-- Follow a plan again and again, until a round takes no token. -/
  | loop (round : Plan)
  /-- Follow a plan, unless the input has ended: the marker for its end is next or was taken. -/
  | unlessAtEnd (plan : Plan)
  /-- Follow a plan, unless the marker for the end of the input was the last token taken. -/
  | unlessEndTaken (plan : Plan)
  deriving DecidableEq

namespace Plan

/-- The plans of a list one after another. -/
def inOrder : List Plan → Plan
  | [] => done
  | [plan] => plan
  | plan :: rest => seq plan (inOrder rest)

/-- Recognize a nonterminal unless the next token is of one of these kinds. -/
def unlessNext (kinds : List Kind) (n : Nonterminal) : Plan := ifNext kinds done (call n)

/-- Recognize a nonterminal, and another one for each token of one of these kinds that follows. -/
def separated (n : Nonterminal) (separators : List Kind) : Plan :=
  seq (call n) (loop (ifTake separators (call n) done))

end Plan

/-- The kinds of tokens that are an expression by themselves. -/
def Kind.atoms : List Kind :=
  [.kwTrue, .kwFalse, .kwNil, .kwThis, .number, .string, .identifier]

/-- The kinds of tokens that a primary expression can begin with. -/
def Kind.primaryStarts : List Kind := atoms ++ [.leftParen, .kwSuper]

/-- The plan that recognizes a nonterminal. -/
def Nonterminal.plan : Nonterminal → Plan
  | .program => .seq (.loop (.unlessAtEnd (.call .declaration)))
      (.unlessEndTaken (.expect [.endOfInput]))
  | .declaration => .ifNext [.kwFun] (.call .funDecl) <| .ifNext [.kwVar] (.call .varDecl) <|
      .call .statement
  | .funDecl => .seq (.expect [.kwFun]) (.call .function)
  | .varDecl => .inOrder [.expect [.kwVar], .expect [.identifier],
      .ifTake [.equal] (.call .expression) .done, .expect [.semicolon]]
  | .statement => .ifNext [.kwFor] (.call .forStmt) <| .ifNext [.kwIf] (.call .ifStmt) <|
      .ifNext [.kwPrint] (.call .printStmt) <| .ifNext [.kwReturn] (.call .returnStmt) <|
      .ifNext [.kwWhile] (.call .whileStmt) <| .ifNext [.leftBrace] (.call .block) <|
      .call .exprStmt
  | .exprStmt => .seq (.call .expression) (.expect [.semicolon])
  | .forStmt => .inOrder [.expect [.kwFor], .expect [.leftParen],
      -- A declaration and an expression statement bring their own semicolon.
      .ifNext [.kwVar] (.call .varDecl) (.ifTake [.semicolon] .done (.call .exprStmt)),
      .unlessNext [.semicolon] .expression, .expect [.semicolon],
      .unlessNext [.rightParen] .expression, .expect [.rightParen], .call .statement]
  -- Taking an `else` wherever one follows gives it to the nearest `if`.
  | .ifStmt => .inOrder [.expect [.kwIf], .expect [.leftParen], .call .expression,
      .expect [.rightParen], .call .statement, .ifTake [.kwElse] (.call .statement) .done]
  -- The last `print` of a text may do without its semicolon and takes the end marker instead.
  | .printStmt => .inOrder [.expect [.kwPrint], .call .expression,
      .expect [.semicolon, .endOfInput]]
  | .returnStmt => .inOrder [.expect [.kwReturn], .unlessNext [.semicolon] .expression,
      .expect [.semicolon]]
  | .whileStmt => .inOrder [.expect [.kwWhile], .expect [.leftParen], .call .expression,
      .expect [.rightParen], .call .statement]
  -- An unclosed block stops at the end of the input and then misses its brace.
  | .block => .inOrder [.expect [.leftBrace],
      .loop (.ifNext [.rightBrace] .done (.unlessAtEnd (.call .declaration))),
      .expect [.rightBrace]]
  | .function => .inOrder [.expect [.identifier], .expect [.leftParen],
      .ifNext [.identifier] (.call .parameters) .done, .expect [.rightParen], .call .block]
  | .parameters => .seq (.expect [.identifier])
      (.loop (.ifTake [.comma] (.expect [.identifier]) .done))
  | .expression => .call .assignment
  | .assignment => .seq (.call .logicOr) (.ifTake [.equal] (.call .assignment) .done)
  | .logicOr => .separated .logicAnd [.kwOr]
  | .logicAnd => .separated .equality [.kwAnd]
  | .equality => .separated .comparison [.bangEqual, .equalEqual]
  | .comparison => .separated .term [.less, .lessEqual, .greater, .greaterEqual]
  | .term => .separated .factor [.plus, .minus]
  | .factor => .separated .unary [.star, .slash]
  | .unary => .ifTake [.bang, .minus] (.call .unary) (.call .call)
  | .call => .seq (.call .primary) <| .loop <|
      .ifTake [.leftParen] (.seq (.unlessNext [.rightParen] .arguments) (.expect [.rightParen])) <|
      .ifTake [.dot] (.expect [.identifier]) .done
  | .primary => .ifTake Kind.atoms .done <|
      .ifTake [.leftParen] (.seq (.call .expression) (.expect [.rightParen])) <|
      .ifTake [.kwSuper] (.seq (.expect [.dot]) (.expect [.identifier])) .reject
  | .arguments => .separated .expression [.comma]

end LoxSyntax
