/-! # The nonterminals of the grammar

Each names a syntactic category of Lox, from whole programs down to argument lists. -/

namespace LoxSyntax

/-- A syntactic category of Lox. -/
inductive Nonterminal where
  | program | declaration | funDecl | varDecl
  | statement | exprStmt | forStmt | ifStmt | printStmt | returnStmt | whileStmt | block
  | function | parameters
  | expression | assignment | logicOr | logicAnd | equality | comparison | term | factor | unary
  | call | primary | arguments
  deriving DecidableEq, Inhabited

namespace Nonterminal

/-- Every nonterminal once. -/
def all : List Nonterminal :=
  [.program, .declaration, .funDecl, .varDecl, .statement, .exprStmt, .forStmt, .ifStmt,
   .printStmt, .returnStmt, .whileStmt, .block, .function, .parameters, .expression, .assignment,
   .logicOr, .logicAnd, .equality, .comparison, .term, .factor, .unary, .call, .primary,
   .arguments]

/-- No nonterminal has been left out of the list. -/
theorem mem_all (n : Nonterminal) : n ∈ all := by cases n <;> decide

/-- The nonterminal as traces name it. -/
def name : Nonterminal → String
  | .program => "program"
  | .declaration => "declaration"
  | .funDecl => "fun_decl"
  | .varDecl => "var_decl"
  | .statement => "statement"
  | .exprStmt => "expr_stmt"
  | .forStmt => "for_stmt"
  | .ifStmt => "if_stmt"
  | .printStmt => "print_stmt"
  | .returnStmt => "return_stmt"
  | .whileStmt => "while_stmt"
  | .block => "block"
  | .function => "function"
  | .parameters => "parameters"
  | .expression => "expression"
  | .assignment => "assignment"
  | .logicOr => "logic_or"
  | .logicAnd => "logic_and"
  | .equality => "equality"
  | .comparison => "comparison"
  | .term => "term"
  | .factor => "factor"
  | .unary => "unary"
  | .call => "call"
  | .primary => "primary"
  | .arguments => "arguments"

end Nonterminal

end LoxSyntax
