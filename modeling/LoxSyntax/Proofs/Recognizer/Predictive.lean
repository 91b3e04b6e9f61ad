import LoxSyntax.Proofs.Recognizer.Soundness

/-! # What one token of lookahead decides

Where a plan stops depends on the token that comes next.  `Plan.skips` says before which tokens a
plan takes nothing, `Plan.stops` before which ones it can stop once it has taken something, and
`Plan.goesOn` before which ones it cannot.  For a nonterminal this is a table of the kinds that go
on with it (`Nonterminal.continuations`), which is checked against the plans.

`Plan.predictive` is the condition under which a look at the next token chooses the right branch. -/

namespace LoxSyntax

/-- The tokens that go on with an expression, those that bind tightest first: calls and properties,
    the operators of each level of precedence, assignment, and the comma between arguments. -/
def Kind.operators : List (List Kind) :=
  [[.leftParen, .dot], [.star, .slash], [.plus, .minus],
   [.less, .lessEqual, .greater, .greaterEqual], [.bangEqual, .equalEqual], [.kwAnd], [.kwOr],
   [.equal], [.comma]]

namespace Nonterminal

/-- The kinds of the tokens that a nonterminal takes if they come next when it could end.  An
    `else` is not among those of a statement, as it depends on the statement whether it is taken. -/
def continuations : Nonterminal → List Kind
  | .call | .unary => (Kind.operators.take 1).flatten
  | .factor => (Kind.operators.take 2).flatten
  | .term => (Kind.operators.take 3).flatten
  | .comparison => (Kind.operators.take 4).flatten
  | .equality => (Kind.operators.take 5).flatten
  | .logicAnd => (Kind.operators.take 6).flatten
  | .logicOr => (Kind.operators.take 7).flatten
  | .assignment | .expression => (Kind.operators.take 8).flatten
  | .arguments => (Kind.operators.take 9).flatten
  | .parameters => [.comma]
  | _ => []

end Nonterminal

namespace Plan

/-- Whether a plan takes nothing before a token of this kind, or where no token is left. -/
def skips (next : Option Kind) : Plan → Bool
  | done => true
  | reject | expect _ | call _ => false
  | seq first second => first.skips next && second.skips next
  | ifNext kinds yes no => bif next.any (kinds.contains ·) then yes.skips next else no.skips next
  | ifTake kinds _ no => !next.any (kinds.contains ·) && no.skips next
  | loop round => round.skips next
  | unlessAtEnd plan => next.all (· == .endOfInput) || plan.skips next
  | unlessEndTaken _ => false

/-- Whether a plan that has taken something can always stop before a token of this kind, or where
    no token is left. -/
def stops (next : Option Kind) : Plan → Bool
  | done | reject | expect _ => true
  | call n => next.all (!n.continuations.contains ·)
  | seq first second =>
    second.stops next && (second.guarded || (first.stops next && second.skips next))
  | ifNext _ yes no => yes.stops next && no.stops next
  | ifTake _ yes no => yes.stops next && (yes.guarded || yes.skips next) && no.stops next
  | loop round =>
    round.skips next && round.stops next && !(round.form.opens && next == some .kwElse)
  | unlessAtEnd plan => plan.stops next
  | unlessEndTaken _ => false

/-- Whether a plan that has taken something never stops before a token of this kind. -/
def goesOn (kind : Kind) : Plan → Bool
  | done | reject => true
  | expect _ => false
  | call n => n.continuations.contains kind
  | seq first second => second.goesOn kind && (!second.skips (some kind) || first.goesOn kind)
  | ifNext _ yes no => yes.goesOn kind && no.goesOn kind
  | ifTake _ yes no => yes.goesOn kind && !yes.skips (some kind) && no.goesOn kind
  | loop round => !round.skips (some kind) || round.goesOn kind
  | unlessAtEnd plan => plan.goesOn kind
  | unlessEndTaken _ => false

/-- Whether the next token always tells which branch to follow: a first part can stop before every
    token that a second one begins with, and no token begins both branches of a choice.  The plan of
    `ifStmt` is not like this, as an `else` may begin its last part or go on with its body. -/
def predictive : Plan → Bool
  | done | reject | expect _ => true
  | call n => n != .program
  | seq first second =>
    first.predictive && second.predictive && !first.form.opens &&
      second.form.starts.all fun kind =>
        first.stops (some kind) && (first.guarded || first.skips (some kind))
  | ifNext kinds yes no =>
    yes.predictive && no.predictive && yes.form.starts.all (kinds.contains ·) &&
      no.form.starts.all (!kinds.contains ·)
  | ifTake kinds yes no =>
    yes.predictive && no.predictive && no.form.starts.all (!kinds.contains ·)
  | loop round =>
    round.predictive && round.form.starts.all fun kind =>
      round.stops (some kind) && !(round.form.opens && kind == .kwElse)
  | unlessAtEnd plan => plan.predictive && plan.form.starts.all (· != .endOfInput)
  | unlessEndTaken _ => false

/-- A guarded plan does not have the empty word. -/
theorem nullable_form {plan : Plan} (guarded : plan.guarded = true) :
    plan.form.nullable = false := by
  induction plan with
  | done | loop | unlessAtEnd | unlessEndTaken => cases guarded
  | reject | expect | call => rfl
  | seq first second ih ih' =>
    rw [Plan.guarded, Bool.or_eq_true] at guarded
    rcases guarded with guarded | guarded
    · rw [form, Form.nullable, ih guarded, Bool.false_and]
    · rw [form, Form.nullable, ih' guarded, Bool.and_false]
  | ifNext _ yes no ih ih' =>
    rw [Plan.guarded, Bool.and_eq_true] at guarded
    rw [form, Form.nullable, ih guarded.1, ih' guarded.2, Bool.or_false]
  | ifTake _ yes no _ ih => simp [form, Form.nullable, ih guarded]

end Plan

namespace Nonterminal

/-! ## The tables agree with the plans -/

/-- The next token decides everywhere but at the `else` of an `if` statement. -/
theorem predictive_plan {n : Nonterminal} (inner : n ≠ .program) (notIf : n ≠ .ifStmt) :
    n.plan.predictive = true := by
  cases n <;> first | rfl | contradiction

/-- A nonterminal can stop before every token that does not go on with it. -/
theorem stops_plan {n : Nonterminal} (inner : n ≠ .program) (notIf : n ≠ .ifStmt)
    {next : Option Kind} (h : (Plan.call n).stops next = true) : n.plan.stops next = true := by
  -- There are finitely many nonterminals and kinds to check.
  have checked : ∀ n ∈ all, n ≠ .program → n ≠ .ifStmt →
      ∀ next ∈ none :: Kind.all.map some, (Plan.call n).stops next = true →
        n.plan.stops next = true := by
    decide +kernel
  apply checked n n.mem_all inner notIf next _ h
  cases next with
  | none => exact List.mem_cons_self
  | some kind => exact List.mem_cons_of_mem _ (List.mem_map_of_mem kind.mem_all)

/-- A nonterminal stops before no token that goes on with it. -/
private theorem goesOn_plan {n : Nonterminal} (inner : n ≠ .program) {kind : Kind}
    (h : kind ∈ n.continuations) : n.plan.goesOn kind = true := by
  have checked : ∀ n ∈ all, n ≠ .program → ∀ kind ∈ n.continuations,
      n.plan.goesOn kind = true := by
    decide +kernel
  exact checked n n.mem_all inner kind h

end Nonterminal

namespace Recognizer

variable {tokens : Array Token} {plan : Plan} {i j : Nat} {events : List Event} {kind : Kind}

/-! ## Where nothing is taken -/

/-- A plan that skips the next token can be followed to its end without taking anything. -/
theorem follows_of_skips (h : plan.skips (kindAt? tokens i) = true) :
    ∃ events, Follows tokens plan i events (.ok ()) i := by
  induction plan with
  | done => exact ⟨_, .done⟩
  | reject | expect | call | unlessEndTaken => cases h
  | seq first second ih ih' =>
    rw [Plan.skips, Bool.and_eq_true] at h
    obtain ⟨_, followed⟩ := ih h.1
    obtain ⟨_, followed'⟩ := ih' h.2
    exact ⟨_, .seq followed followed'⟩
  -- At a choice, what is known of the next token also tells the branch.
  | ifNext kinds yes no ih ih' =>
    cases next : nextIs tokens i kinds with
    | true =>
      rw [Plan.skips, show (kindAt? tokens i).any (kinds.contains ·) = true from next] at h
      obtain ⟨_, followed⟩ := ih h
      exact ⟨_, .lookYes next followed⟩
    | false =>
      rw [Plan.skips, show (kindAt? tokens i).any (kinds.contains ·) = false from next] at h
      obtain ⟨_, followed⟩ := ih' h
      exact ⟨_, .lookNo next followed⟩
  | ifTake kinds yes no _ ih =>
    rw [Plan.skips, Bool.and_eq_true, Bool.not_eq_true'] at h
    obtain ⟨_, followed⟩ := ih h.2
    exact ⟨_, .takeNo h.1 followed⟩
  | loop round ih =>
    obtain ⟨_, followed⟩ := ih h
    exact ⟨_, .loopLast followed⟩
  | unlessAtEnd plan ih =>
    cases next : atEnd tokens i with
    | true => exact ⟨_, .ended next⟩
    | false =>
      rw [Plan.skips, show (kindAt? tokens i).all (· == .endOfInput) = false from next] at h
      obtain ⟨_, followed⟩ := ih h
      exact ⟨_, .notEnded next followed⟩

/-- A plan that ended without taking anything is one that skips the next token. -/
theorem Follows.skips (h : Follows tokens plan i events (.ok ()) j) (inner : plan.inner = true)
    (stayed : i = j) : plan.skips (kindAt? tokens i) = true := by
  generalize accepted : Except.ok () = outcome at h
  induction h with
  | done => rfl
  | reject | mismatch | seqHalt | loopHalt => cases accepted
  | expect => omega
  | @call n _ _ _ _ h =>
    subst accepted
    -- Every nonterminal but `program` takes a token.
    have notProgram := Plan.inner_call.mp inner
    have guarded := Nonterminal.guarded_plan (Nonterminal.guarded_of_ne notProgram)
    exact absurd (h.lt_of_guarded guarded) (by omega)
  | @seq _ _ i j k _ _ _ h h' ih ih' =>
    have := h.start_le
    have := h'.start_le
    obtain rfl : i = j := by omega
    rw [Plan.inner, Bool.and_eq_true] at inner
    rw [Plan.skips, ih inner.1 rfl rfl, ih' inner.2 stayed accepted]
    rfl
  | lookYes next _ ih =>
    rw [Plan.inner, Bool.and_eq_true] at inner
    rw [Plan.skips, ← nextIs, next]
    exact ih inner.1 stayed accepted
  | lookNo next _ ih =>
    rw [Plan.inner, Bool.and_eq_true] at inner
    rw [Plan.skips, ← nextIs, next]
    exact ih inner.2 stayed accepted
  | takeYes _ h =>
    have := h.start_le
    omega
  | takeNo next _ ih =>
    rw [Plan.inner, Bool.and_eq_true] at inner
    rw [Plan.skips, ← nextIs, next, ih inner.2 stayed accepted]
    rfl
  | loopLast _ ih => exact ih inner rfl rfl
  | loopAgain _ moved h' =>
    have := h'.start_le
    omega
  | ended next =>
    rw [Plan.skips, ← atEnd, next, Bool.true_or]
  | notEnded _ _ ih =>
    rw [Plan.skips, ih inner stayed accepted, Bool.or_true]
  | taken | notTaken => cases inner

/-- A loop ends with a round that takes nothing. -/
theorem Follows.loop_skips {round : Plan} (h : Follows tokens (.loop round) i events (.ok ()) j)
    (inner : round.inner = true) : round.skips (kindAt? tokens j) = true := by
  generalize accepted : Except.ok () = outcome at h
  generalize same : Plan.loop round = plan at h
  induction h with
  | loopLast h =>
    cases same
    exact h.skips inner rfl
  | loopAgain _ _ _ _ ih =>
    cases same
    exact ih accepted rfl
  | loopHalt => cases accepted
  | _ => cases same

/-! ## Where a plan that took something ended -/

/-- A plan that took something does not end before a token that goes on with it. -/
theorem Follows.goesOn_eq_false (h : Follows tokens plan i events (.ok ()) j)
    (inner : plan.inner = true) (moved : i < j) (next : kindAt? tokens j = some kind) :
    plan.goesOn kind = false := by
  generalize accepted : Except.ok () = outcome at h
  induction h with
  | done | loopLast | ended => omega
  | reject | mismatch | seqHalt | loopHalt => cases accepted
  | expect => rfl
  | @call n _ _ _ _ _ ih =>
    have notProgram := Plan.inner_call.mp inner
    have := ih (n.inner_plan notProgram) moved next accepted
    -- If the table had the token go on with the nonterminal, then it would go on with the plan.
    rw [Plan.goesOn, ← Bool.not_eq_true, List.contains_iff_mem]
    intro member
    rw [n.goesOn_plan notProgram member] at this
    cases this
  | @seq _ _ i j k _ _ _ h h' ih ih' =>
    subst accepted
    rw [Plan.inner, Bool.and_eq_true] at inner
    have := h.start_le
    have := h'.start_le
    rw [Plan.goesOn]
    by_cases later : j < k
    · rw [ih' inner.2 later next rfl, Bool.false_and]
    · -- The second plan took nothing, so the first one took something.
      obtain rfl : j = k := by omega
      have skipped := h'.skips inner.2 rfl
      rw [next] at skipped
      rw [skipped, ih inner.1 moved next rfl, Bool.not_true, Bool.or_false, Bool.and_false]
  | lookYes _ _ ih =>
    rw [Plan.inner, Bool.and_eq_true] at inner
    rw [Plan.goesOn, ih inner.1 moved next accepted, Bool.false_and]
  | lookNo _ _ ih =>
    rw [Plan.inner, Bool.and_eq_true] at inner
    rw [Plan.goesOn, ih inner.2 moved next accepted, Bool.and_false]
  | @takeYes _ _ _ i j _ _ _ h ih =>
    subst accepted
    rw [Plan.inner, Bool.and_eq_true] at inner
    have := h.start_le
    rw [Plan.goesOn]
    by_cases later : i + 1 < j
    · rw [ih inner.1 later next rfl, Bool.false_and, Bool.false_and]
    · -- Nothing was taken behind the token of the look.
      obtain rfl : i + 1 = j := by omega
      have skipped := h.skips inner.1 rfl
      rw [next] at skipped
      rw [skipped, Bool.not_true, Bool.and_false, Bool.false_and]
  | takeNo _ _ ih =>
    rw [Plan.inner, Bool.and_eq_true] at inner
    rw [Plan.goesOn, ih inner.2 moved next accepted, Bool.and_false]
  | @loopAgain _ i j k _ _ _ h taken h' ih ih' =>
    subst accepted
    have := h'.start_le
    by_cases later : j < k
    · exact ih' inner later next rfl
    · -- This was the last round that took something, and the next one skipped the token.
      obtain rfl : j = k := by omega
      have skipped := h'.skips inner rfl
      rw [next, Plan.skips] at skipped
      rw [Plan.goesOn, skipped, ih inner taken next rfl]
      rfl
  | notEnded _ _ ih => exact ih inner moved next accepted
  | taken | notTaken => cases inner

end Recognizer

end LoxSyntax
