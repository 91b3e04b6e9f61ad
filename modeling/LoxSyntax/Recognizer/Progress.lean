import LoxSyntax.Recognizer.Plan

/-! # Progress of plans

Why recognition ends.  A plan is *guarded* if it cannot be finished without taking a token.  Its
`weight` bounds the work that can be done on it before the first token is taken; what a guarded
part of a plan puts off until then does not count.  Nonterminals are weighted by a fixed rank, and
the ranks are well chosen: `weight_plan` says that the plan of a nonterminal weighs less than its
rank, so a nonterminal can only call others of lower rank at the same token. -/

namespace LoxSyntax

namespace Nonterminal

/-- Whether a nonterminal stands for at least one token in every input. -/
def guarded : Nonterminal → Bool
  | .program => false
  | _ => true

/-- A bound for the work on a nonterminal before its first token is taken. -/
def rank : Nonterminal → Nat
  | .program => 160
  | .declaration => 150
  | .statement => 140
  | .exprStmt => 130
  | .arguments => 120
  | .expression => 110
  | .assignment => 100
  | .logicOr => 90
  | .logicAnd => 80
  | .equality => 70
  | .comparison => 60
  | .term => 50
  | .factor => 40
  | .unary => 30
  | .call => 20
  | .primary => 10
  | .funDecl | .varDecl | .forStmt | .ifStmt | .printStmt | .returnStmt | .whileStmt | .block
  | .function | .parameters => 10

end Nonterminal

namespace Plan

/-- Whether a plan cannot be finished without taking a token. -/
def guarded : Plan → Bool
  | done => false
  | reject => true
  | expect _ => true
  | call n => n.guarded
  | seq first second => first.guarded || second.guarded
  | ifNext _ yes no => yes.guarded && no.guarded
  | ifTake _ _ no => no.guarded
  | loop _ => false
  | unlessAtEnd _ => false
  | unlessEndTaken _ => false

/-- A bound for the work on a plan before its first token is taken. -/
def weight : Plan → Nat
  | done => 1
  | reject => 1
  | expect _ => 1
  | call n => n.rank
  | seq first second => 1 + first.weight + bif first.guarded then 0 else second.weight
  | ifNext _ yes no => 1 + max yes.weight no.weight
  | ifTake _ _ no => 1 + no.weight
  | loop round => 2 + round.weight
  | unlessAtEnd plan => 1 + plan.weight
  | unlessEndTaken plan => 1 + plan.weight

/-- To follow a plan is always some work. -/
theorem weight_pos (plan : Plan) : 0 < plan.weight := by
  cases plan with
  | call n => cases n <;> decide
  | _ => simp only [weight]; omega

end Plan

namespace Nonterminal

/-- The work on a nonterminal, and on entering and leaving it, is within its rank. -/
theorem weight_plan (n : Nonterminal) : n.plan.weight + 1 < n.rank := by
  cases n <;> decide

/-- The plan of a nonterminal that stands for at least one token takes one. -/
theorem guarded_plan {n : Nonterminal} (h : n.guarded = true) : n.plan.guarded = true := by
  cases n <;> first | rfl | exact absurd h (by decide)

/-- Only a program can stand for no token at all. -/
theorem guarded_of_ne {n : Nonterminal} (h : n ≠ .program) : n.guarded = true := by
  cases n <;> first | rfl | contradiction

end Nonterminal

end LoxSyntax
