import LoxSyntax.Proofs.Grammar.Language
import LoxSyntax.Recognizer.Progress

/-! # The form of a plan

What a plan recognizes if its lookahead is disregarded is a form: a look at the next token is a
choice, and a loop is a repetition.  The form of the plan of a nonterminal need not be the
production, but it stands for the same words (`nested_plan`), except for a whole program, whose plan
can do without the marker for the end of the input. -/

namespace LoxSyntax

open Computability

/-- The form of the words that a plan can take, with every look at the next token taken for a free
    choice. -/
def Plan.form : Plan → Form
  | done => .empty
  | reject => .token []
  | expect kinds => .token kinds
  | call n => .category n
  | seq first second => .seq first.form second.form
  | ifNext _ yes no => .choice yes.form no.form
  | ifTake kinds yes no => .choice (.seq (.token kinds) yes.form) no.form
  | loop round => .many round.form
  | unlessAtEnd plan => .optional plan.form
  | unlessEndTaken plan => .optional plan.form

namespace Nonterminal

/-- The plan of a nonterminal stands for the same as the production, whatever its parts stand for.
    It has another order of choices, and rounds of loops that take nothing. -/
private theorem interpret_plan {α : Type} {token : List Kind → Language α}
    {category : Nonterminal → Language α} (none : token [] = ⊥) {n : Nonterminal}
    (inner : n ≠ .program) :
    n.plan.form.interpret token category = n.production.interpret token category := by
  cases n
  case program => exact absurd rfl inner
  case declaration | funDecl | varDecl | statement | exprStmt | ifStmt | printStmt | whileStmt
      | function | expression | assignment | unary => rfl
  all_goals
    simp [plan, production, Plan.form, Plan.inOrder, Plan.separated, Plan.unlessNext, Form.inOrder,
      Form.oneOf, Form.optional, Form.separated, Form.interpret, Kind.atoms, none, sup_comm,
      sup_left_comm]
  -- In the plan of `call`, the round that takes nothing is left in between the two others.
  rw [sup_left_comm, kstar_one_sup]

/-- The plan of a nonterminal has the words of the production. -/
private theorem language_plan {n : Nonterminal} (inner : n ≠ .program) :
    n.plan.form.language = n.production.language := by
  rw [Form.language_eq_interpret, Form.language_eq_interpret,
    interpret_plan Form.language_token_nil inner]

/-- The plan of a nonterminal has the right-hand sides of the production. -/
theorem expansions_plan {n : Nonterminal} (inner : n ≠ .program) :
    n.plan.form.expansions = n.production.expansions := by
  refine interpret_plan ?_ inner
  ext word
  refine iff_of_false (fun h => ?_) (Language.notMem_zero word)
  obtain ⟨_, member, _⟩ := h
  cases member

/-- The plan of a nonterminal has the words of the production in nested derivations, too. -/
theorem nested_plan {n : Nonterminal} (inner : n ≠ .program) (isOpen : Bool) :
    n.plan.form.nested isOpen = n.production.nested isOpen := by
  -- Where no word is open, nested derivations are just derivations.
  cases opens : n.opens with
  | true =>
    cases n
    case forStmt =>
      simp [plan, production, Plan.form, Plan.inOrder, Plan.unlessNext, Form.inOrder, Form.oneOf,
        Form.optional, sup_comm]
    all_goals first | rfl | cases opens
  | false =>
    have closed : n.production.opens = false := by
      cases h : n.production.opens with
      | false => rfl
      | true => cases opens.symm.trans (opens_of_production h)
    have closed' : n.plan.form.opens = false := by
      cases n <;> first | rfl | cases opens
    rw [Form.nested_of_closed closed, Form.nested_of_closed closed', language_plan inner]

end Nonterminal

/-- A nonterminal derives the words that the form of its plan does. -/
theorem derives_category_iff_plan {n : Nonterminal} {word : List Kind} (inner : n ≠ .program) :
    Derives (.category n) word ↔ Derives n.plan.form word := by
  rw [derives_category_iff, ← Form.mem_language, ← Form.mem_language, n.language_plan inner]

/-- The plan of a nonterminal has the words that the nonterminal stands for, save that the plan of
    `ifStmt` does not restrict its own `else`. -/
theorem nests_category_iff_plan {n : Nonterminal} {isOpen : Bool} {word : List Kind}
    (inner : n ≠ .program) (notIf : n ≠ .ifStmt) :
    Nests (.category n) isOpen word ↔ Nests n.plan.form isOpen word := by
  rw [nests_category_iff notIf, ← Form.mem_nested, ← Form.mem_nested, n.nested_plan inner]

end LoxSyntax
