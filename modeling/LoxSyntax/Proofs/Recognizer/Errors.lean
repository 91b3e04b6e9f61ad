import LoxSyntax.Proofs.Recognizer.Predictive

/-! # Where following a plan comes to a violation

An error tells of the token at the index where the recognizer stopped (`Follows.found?_eq`), and of
the kinds that the plan asked for there (`Follows.error_eq`), of which the token is none
(`Follows.nextIs_asked`).  What comes of a plan depends on the kinds of the tokens up to that index
and on nothing else (`Follows.congr`), so the recognizer never looks at lexemes and positions, nor
further ahead than one token (`recognizeFrom_congr`). -/

namespace LoxSyntax

namespace SyntaxError

/-- The kinds of which a token was asked for. -/
def asked : SyntaxError → List Kind
  | unexpectedToken expected _ => expected
  | noTokenLeft expected => expected
  | noExpression _ => Kind.primaryStarts

/-- The same error with another token in place of the one that was found. -/
def replaceFound (found? : Option Token) : SyntaxError → SyntaxError
  | unexpectedToken expected found => unexpectedToken expected (found?.getD found)
  | noTokenLeft expected => noTokenLeft expected
  | noExpression found => noExpression (found?.getD found)

/-- An error is the same with its own token put in. -/
theorem replaceFound_self (error : SyntaxError) : error.replaceFound error.found? = error := by
  cases error <;> rfl

/-- An error without a token to tell of is met where no token is left. -/
theorem eq_noTokenLeft {error : SyntaxError} (none : error.found? = none) :
    error = noTokenLeft error.asked := by
  cases error with
  | noTokenLeft => rfl
  | unexpectedToken | noExpression => cases none

end SyntaxError

/-- Whether all kinds that a plan asks for by itself have a property, in the lists in which it asks
    for them. -/
def Plan.allAsked (p : List Kind → Bool) : Plan → Bool
  | done | reject | call _ => true
  | expect kinds => p kinds
  | seq first second => first.allAsked p && second.allAsked p
  | ifNext _ yes no => yes.allAsked p && no.allAsked p
  | ifTake _ yes no => yes.allAsked p && no.allAsked p
  | loop round => round.allAsked p
  | unlessAtEnd plan => plan.allAsked p
  | unlessEndTaken plan => plan.allAsked p

/-- Whether a plan finds an expression missing only where it has looked in vain for a token of each
    kind that a primary expression begins with.  The kinds that were looked for before at the same
    index are `tried`. -/
def Plan.rejectsLast (tried : List Kind) : Plan → Bool
  | done | expect _ | call _ => true
  | reject => Kind.primaryStarts.all tried.contains
  | seq first second => first.rejectsLast tried && second.rejectsLast []
  | ifNext kinds yes no => yes.rejectsLast tried && no.rejectsLast (kinds ++ tried)
  | ifTake kinds yes no => yes.rejectsLast [] && no.rejectsLast (kinds ++ tried)
  | loop round => round.rejectsLast []
  | unlessAtEnd plan => plan.rejectsLast tried
  | unlessEndTaken plan => plan.rejectsLast tried

/-- The plans reject only what is none of the tokens that begin an expression. -/
private theorem Nonterminal.rejectsLast_plan (n : Nonterminal) : n.plan.rejectsLast [] = true := by
  cases n <;> decide

namespace Recognizer

variable {tokens other : Array Token} {plan : Plan} {i j : Nat} {events : List Event}
  {outcome : Except SyntaxError Unit} {error : SyntaxError} {kinds : List Kind}

/-! ## What an error tells -/

/-- A mismatch tells of the token at the index. -/
theorem found?_mismatch : (mismatch tokens i kinds).found? = tokens[i]? := by
  rw [mismatch]
  cases tokens[i]? <;> rfl

/-- A missing expression tells of the token at the index. -/
private theorem found?_missingExpression : (missingExpression tokens i).found? = tokens[i]? := by
  rw [missingExpression]
  cases tokens[i]? <;> rfl

/-- A mismatch asks for the kinds that were expected. -/
theorem asked_mismatch : (mismatch tokens i kinds).asked = kinds := by
  rw [mismatch]
  cases tokens[i]? <;> rfl

/-- Where an expression is missing, all tokens that can begin one are asked for. -/
theorem asked_missingExpression : (missingExpression tokens i).asked = Kind.primaryStarts := by
  rw [missingExpression]
  cases tokens[i]? <;> rfl

/-- An error tells of the next token. -/
theorem Follows.found?_eq (h : Follows tokens plan i events (.error error) j) :
    error.found? = tokens[j]? := by
  generalize failed : Except.error error = outcome at h
  -- Errors arise at two rules only, and all others hand them on.
  induction h with
  | done | expect | loopLast | ended | taken => cases failed
  | reject =>
    cases failed
    exact found?_missingExpression
  | mismatch =>
    cases failed
    exact found?_mismatch
  | seqHalt _ ih | loopHalt _ ih | call _ ih => exact ih failed
  | seq _ _ _ ih | loopAgain _ _ _ _ ih => exact ih failed
  | lookYes _ _ ih | lookNo _ _ ih | takeYes _ _ ih | takeNo _ _ ih => exact ih failed
  | notEnded _ _ ih | notTaken _ _ ih => exact ih failed

/-- An error tells that an expression is missing, or that a token is not of the kinds that the plan
    or the plan of some nonterminal asks for. -/
theorem Follows.error_eq {p : List Kind → Bool}
    (nonterminals : ∀ n : Nonterminal, n ≠ .program → n.plan.allAsked p = true)
    (h : Follows tokens plan i events (.error error) j) (inner : plan.inner = true)
    (asked : plan.allAsked p = true) :
    error = missingExpression tokens j ∨
      ∃ kinds, p kinds = true ∧ nextIs tokens j kinds = false ∧
        error = Recognizer.mismatch tokens j kinds := by
  generalize failed : Except.error error = outcome at h
  -- As before, errors arise at two rules; the others hand on the error with what is known of the
  -- plan.
  induction h with
  | done | expect | loopLast | ended | taken => cases failed
  | reject =>
    cases failed
    exact .inl rfl
  | mismatch next =>
    cases failed
    exact .inr ⟨_, asked, next, rfl⟩
  | @call n _ _ _ _ _ ih =>
    -- A call goes on with another plan, of which the same is known by assumption.
    have notProgram := Plan.inner_call.mp inner
    exact ih (n.inner_plan notProgram) (nonterminals n notProgram) failed
  | seqHalt _ ih | lookYes _ _ ih | takeYes _ _ ih =>
    rw [Plan.inner, Bool.and_eq_true] at inner
    rw [Plan.allAsked, Bool.and_eq_true] at asked
    exact ih inner.1 asked.1 failed
  | seq _ _ _ ih | lookNo _ _ ih | takeNo _ _ ih =>
    rw [Plan.inner, Bool.and_eq_true] at inner
    rw [Plan.allAsked, Bool.and_eq_true] at asked
    exact ih inner.2 asked.2 failed
  | loopHalt _ ih | loopAgain _ _ _ _ ih | notEnded _ _ ih => exact ih inner asked failed
  | notTaken => cases inner

/-- No token is of a kind among none. -/
theorem nextIs_nil (tokens : Array Token) (i : Nat) : nextIs tokens i [] = false := by
  unfold nextIs
  cases kindAt? tokens i with
  | none => rfl
  | some => rfl

/-- Kinds that were looked for in vain, together with others, rule out whatever is among them. -/
private theorem nextIs_of_subset {asked tried : List Kind} (subset : ∀ kind ∈ asked, kind ∈ tried)
    (vain : nextIs tokens i tried = false) : nextIs tokens i asked = false := by
  rw [← Bool.not_eq_true, nextIs_iff] at vain ⊢
  intro found
  obtain ⟨kind, member, next⟩ := found
  exact vain ⟨kind, subset kind member, next⟩

/-- Kinds that were looked for in vain, one list after the other, are missing together, too. -/
private theorem nextIs_append {more : List Kind} (h : nextIs tokens i kinds = false)
    (h' : nextIs tokens i more = false) : nextIs tokens i (kinds ++ more) = false := by
  rw [← Bool.not_eq_true, nextIs_iff] at h h' ⊢
  intro found
  obtain ⟨kind, member, next⟩ := found
  rcases List.mem_append.mp member with member | member
  · exact h ⟨kind, member, next⟩
  · exact h' ⟨kind, member, next⟩

/-- Where an error is met, there is no token of a kind that it asks for. -/
theorem Follows.nextIs_asked {tried : List Kind}
    (h : Follows tokens plan i events (.error error) j) (last : plan.rejectsLast tried = true)
    (vain : nextIs tokens i tried = false) : nextIs tokens j error.asked = false := by
  generalize failed : Except.error error = outcome at h
  induction h generalizing tried with
  | done | expect | loopLast | ended | taken => cases failed
  | reject =>
    cases failed
    rw [asked_missingExpression]
    have subset := List.all_eq_true.mp last
    exact nextIs_of_subset (fun kind member => List.contains_iff_mem.mp (subset kind member)) vain
  | mismatch next =>
    cases failed
    rw [asked_mismatch, next]
  | @call n _ _ _ _ _ ih => exact ih n.rejectsLast_plan (nextIs_nil tokens _) failed
  | seqHalt _ ih | lookYes _ _ ih =>
    rw [Plan.rejectsLast, Bool.and_eq_true] at last
    exact ih last.1 vain failed
  -- Behind a token that was taken, nothing has been looked for yet.
  | takeYes _ _ ih =>
    rw [Plan.rejectsLast, Bool.and_eq_true] at last
    exact ih last.1 (nextIs_nil tokens _) failed
  | seq _ _ _ ih =>
    rw [Plan.rejectsLast, Bool.and_eq_true] at last
    exact ih last.2 (nextIs_nil tokens _) failed
  | lookNo next _ ih | takeNo next _ ih =>
    rw [Plan.rejectsLast, Bool.and_eq_true] at last
    exact ih last.2 (nextIs_append next vain) failed
  | loopHalt _ ih => exact ih last (nextIs_nil tokens _) failed
  | @loopAgain round _ _ _ _ _ _ _ _ _ _ ih =>
    have last : (Plan.loop round).rejectsLast [] = true := last
    exact ih last (nextIs_nil tokens _) failed
  | notEnded _ _ ih | notTaken _ _ ih => exact ih last vain failed

/-! ## Only the kinds up to the index where it ends matter -/

/-- Looks at the next token see only its kind. -/
private theorem nextIs_congr (same : kindAt? other i = kindAt? tokens i) (kinds : List Kind) :
    nextIs other i kinds = nextIs tokens i kinds := by
  rw [nextIs, same, ← nextIs]

/-- Whether the end is reached is seen by the kind of the next token. -/
private theorem atEnd_congr (same : kindAt? other i = kindAt? tokens i) :
    atEnd other i = atEnd tokens i := by
  rw [atEnd, same, ← atEnd]

/-- Whether the marker was taken is seen by the kind of the token before. -/
private theorem endTaken_congr (same : kindAt? other (i - 1) = kindAt? tokens (i - 1)) :
    endTaken other i = endTaken tokens i := by
  rw [endTaken, same, ← endTaken]

/-- Mismatches at tokens of the same kind differ by the tokens that they tell of. -/
private theorem mismatch_congr (same : kindAt? other i = kindAt? tokens i) (kinds : List Kind) :
    mismatch other i kinds = (mismatch tokens i kinds).replaceFound other[i]? := by
  rw [kindAt?, kindAt?] at same
  rw [mismatch, mismatch]
  cases here : tokens[i]? <;> cases there : other[i]? <;> simp [here, there] at same <;> rfl

/-- Missing expressions at tokens of the same kind differ by the tokens that they tell of. -/
private theorem missingExpression_congr (same : kindAt? other i = kindAt? tokens i) :
    missingExpression other i = (missingExpression tokens i).replaceFound other[i]? := by
  rw [kindAt?, kindAt?] at same
  rw [missingExpression, missingExpression]
  cases here : tokens[i]? <;> cases there : other[i]? <;> simp [here, there] at same <;> rfl

/-- Following a plan comes to the same on other tokens, if these have the same kinds up to the
    index where it ends; an error tells of the token that stands there. -/
theorem Follows.congr (h : Follows tokens plan i events outcome j)
    (same : ∀ m ≤ j, kindAt? other m = kindAt? tokens m) :
    Follows other plan i events (outcome.mapError (·.replaceFound other[j]?)) j := by
  induction h with
  | done => exact .done
  | @reject i =>
    have h : Follows other .reject i [] _ i := .reject
    rw [missingExpression_congr (same i (Nat.le_refl i))] at h
    exact h
  | @expect kinds i next =>
    have same := same i (Nat.le_succ i)
    rw [← same]
    exact .expect (by rw [nextIs_congr same, next])
  | @mismatch kinds i next =>
    have same := same i (Nat.le_refl i)
    have h := Follows.mismatch (by rw [nextIs_congr same, next])
    rw [mismatch_congr same, same] at h
    exact h
  | call _ ih => exact .call (ih same)
  | @seq _ _ i j k _ _ _ _ h' ih ih' =>
    have := h'.start_le
    exact .seq (ih fun m le => same m (by omega)) (ih' same)
  | seqHalt _ ih => exact .seqHalt (ih same)
  | @lookYes kinds _ _ i _ _ _ next h ih =>
    have here := same i h.start_le
    rw [← here]
    exact .lookYes (by rw [nextIs_congr here, next]) (ih same)
  | @lookNo kinds _ _ i _ _ _ next h ih =>
    have here := same i h.start_le
    rw [← here]
    exact .lookNo (by rw [nextIs_congr here, next]) (ih same)
  | @takeYes kinds _ _ i _ _ _ next h ih =>
    have := h.start_le
    have here := same i (by omega)
    rw [← here]
    exact .takeYes (by rw [nextIs_congr here, next]) (ih same)
  | @takeNo kinds _ _ i _ _ _ next h ih =>
    have here := same i h.start_le
    rw [← here]
    exact .takeNo (by rw [nextIs_congr here, next]) (ih same)
  | loopLast _ ih => exact .loopLast (ih same)
  | @loopAgain _ i j k _ _ _ _ moved h' ih ih' =>
    have := h'.start_le
    exact .loopAgain (ih fun m le => same m (by omega)) moved (ih' same)
  | loopHalt _ ih => exact .loopHalt (ih same)
  | @ended _ i next => exact .ended (by rw [atEnd_congr (same i (Nat.le_refl i)), next])
  | notEnded next h ih => exact .notEnded (by rw [atEnd_congr (same _ h.start_le), next]) (ih same)
  -- The token that was taken last stands before the index, too.
  | @taken _ i last => exact .taken (by rw [endTaken_congr (same _ (Nat.sub_le i 1)), last])
  | @notTaken _ i _ _ _ last h ih =>
    have := h.start_le
    exact .notTaken (by rw [endTaken_congr (same _ (by omega)), last]) (ih same)

/-- The recognizer comes to the same on two sequences of tokens that have the same kinds up to the
    index where it stops on one of them.  An error is of the same form and asks for the same kinds,
    and tells of the token that stands at that index in the sequence at hand. -/
theorem recognizeFrom_congr (tokens other : Array Token) (n : Nonterminal) (i j : Nat)
    (stopped : (recognizeFrom tokens n i).index = j)
    (same : ∀ m ≤ j, kindAt? other m = kindAt? tokens m) :
    (recognizeFrom other n i).index = j ∧
    (recognizeFrom other n i).outcome =
      (recognizeFrom tokens n i).outcome.mapError (·.replaceFound other[j]?) ∧
    ∀ error, (recognizeFrom other n i).outcome = .error error → error.found? = other[j]? := by
  obtain ⟨_, h⟩ := recognizeFrom_iff.mp ⟨rfl, stopped⟩
  have h := h.congr same
  obtain ⟨outcome, index⟩ := recognizeFrom_iff.mpr ⟨_, h⟩
  refine ⟨index, outcome, fun error failed => ?_⟩
  rw [← outcome, failed] at h
  exact h.found?_eq

/-- In `print x )`, nothing but the kinds of these three tokens decides where the statement goes
    wrong. -/
theorem recognizeFrom_congr_print :
    (recognizeFrom ([.kwPrint, .identifier, .rightParen].map .ofKind).toArray
      .statement 0).index = 2 ∧
    (recognizeFrom #[⟨.kwPrint, "print", ⟨4, 0⟩⟩, ⟨.identifier, "x", ⟨4, 6⟩⟩,
        ⟨.rightParen, ")", ⟨5, 0⟩⟩, .endOfInput ⟨5, 1⟩] .statement 0).outcome =
      .error (.unexpectedToken [.semicolon, .endOfInput] ⟨.rightParen, ")", ⟨5, 0⟩⟩) := by
  have stopped : (recognizeFrom ([.kwPrint, .identifier, .rightParen].map .ofKind).toArray
      .statement 0).index = 2 := by
    cbv
  have failed : (recognizeFrom ([.kwPrint, .identifier, .rightParen].map .ofKind).toArray
      .statement 0).outcome =
      .error (.unexpectedToken [.semicolon, .endOfInput] (.ofKind .rightParen)) := by
    cbv
  have same := (recognizeFrom_congr _ #[⟨.kwPrint, "print", ⟨4, 0⟩⟩, ⟨.identifier, "x", ⟨4, 6⟩⟩,
    ⟨.rightParen, ")", ⟨5, 0⟩⟩, .endOfInput ⟨5, 1⟩] _ _ _ stopped (by decide)).2.1
  rw [failed] at same
  exact ⟨stopped, same⟩

end Recognizer

end LoxSyntax
