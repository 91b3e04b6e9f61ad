import LoxSyntax.Proofs.Grammar.Balance
import LoxSyntax.Proofs.Recognizer.Repair
import LoxSyntax.Proofs.Recognizer.Visits

/-! # The errors of whole texts

Not every way in which a plan can fail comes about.  A nonterminal that begins with a keyword is
called where the keyword has been seen, and a program asks for the marker where it stands.
`Plan.failsWithin` keeps track of what is known of the next token along a plan, and checks what is
expected against it (`Follows.error_of_failsWithin`).

For the tokens of a whole text this leaves few errors (`error_of_recognize`).  Behind the marker
only a closing brace can be missed: a `print` within blocks has taken the marker, and closing braces
and another marker complete the text (`exists_braces_of_tooFew`).  Since braces are balanced, this
is the only case in which they do (`recognize_of_braces`). -/

namespace LoxSyntax

/-! ## What is known of the next token -/

/-- Whether something holds of every kind that the next token can have, and where there is none. -/
def forAllNext (p : Option Kind → Bool) : Bool := p none && Kind.all.all fun kind => p (some kind)

/-- What was checked of all kinds holds for whatever comes next. -/
private theorem of_forAllNext {p : Option Kind → Bool} (h : forAllNext p = true)
    (next : Option Kind) : p next = true := by
  unfold forAllNext at h
  rw [Bool.and_eq_true, List.all_eq_true] at h
  cases next with
  | none => exact h.1
  | some kind => exact h.2 kind kind.mem_all

/-- What is known of the next token wherever a nonterminal is called.  Where a keyword decides which
    one is called, the keyword has been seen; otherwise there is some token. -/
def Nonterminal.known : Nonterminal → Option Kind → Bool
  | .funDecl, next => next == some .kwFun
  | .varDecl, next => next == some .kwVar
  | .forStmt, next => next == some .kwFor
  | .ifStmt, next => next == some .kwIf
  | .printStmt, next => next == some .kwPrint
  | .returnStmt, next => next == some .kwReturn
  | .whileStmt, next => next == some .kwWhile
  | _, next => next.isSome

namespace Plan

/-- What is known of the next token when a plan has been followed to its end, from what was known
    before.  There is none only if there was none before, or if the plan took the marker. -/
def knownAfter (known : Option Kind → Bool) (plan : Plan) (next : Option Kind) : Bool :=
  (known next || next.isSome || plan.form.ends.contains .endOfInput) &&
    match plan with
    | loop round => round.skips next
    | _ => true

/-- Whether a plan fails to meet what it expects only in the ways that `p` allows, given what is
    known of the next token.  What is expected and the token that stands there instead are what `p`
    is asked about. -/
def failsWithin (p : List Kind → Option Kind → Bool) (known : Option Kind → Bool) : Plan → Bool
  | done => true
  | reject => forAllNext fun next => !known next || next.isSome
  | expect kinds => forAllNext fun next => !known next || next.any kinds.contains || p kinds next
  | call n => forAllNext fun next => !known next || n.known next
  | seq first second =>
    first.failsWithin p known && second.failsWithin p (first.knownAfter known)
  | ifNext kinds yes no =>
    yes.failsWithin p (·.any kinds.contains) &&
      no.failsWithin p fun next => known next && !next.any kinds.contains
  | ifTake kinds yes no =>
    yes.failsWithin p ((expect kinds).knownAfter (·.any kinds.contains)) &&
      no.failsWithin p fun next => known next && !next.any kinds.contains
  | loop round => round.failsWithin p fun _ => true
  | unlessAtEnd plan => plan.failsWithin p fun next => known next && !next.all (· == .endOfInput)
  | unlessEndTaken plan => plan.failsWithin p known

end Plan

namespace Recognizer

/-! ## Ways to fail -/

/-- The lists of kinds that are asked for where a token of a whole text is out of place. -/
def askedLists : List (List Kind) :=
  [[.identifier], [.semicolon], [.leftParen], [.rightParen], [.leftBrace], [.rightBrace], [.dot],
   [.semicolon, .endOfInput]]

/-- The ways to fail to meet what is expected in a whole text: only a closing brace is missed behind
    the marker, and none is missed in front of it. -/
def isKnownFailure (kinds : List Kind) : Option Kind → Bool
  | none => kinds == [.rightBrace]
  | some found => askedLists.contains kinds && (kinds != [.rightBrace] || found == .endOfInput)

/-- Every nonterminal fails only in the known ways if it is called where it should be. -/
private theorem failsWithin_plan {n : Nonterminal} (inner : n ≠ .program) :
    n.plan.failsWithin isKnownFailure n.known = true := by
  have checked : ∀ n ∈ Nonterminal.all, n ≠ .program →
      n.plan.failsWithin isKnownFailure n.known = true := by
    decide +kernel
  exact checked n n.mem_all inner

variable {tokens : Array Token} {plan : Plan} {i j : Nat} {events : List Event}
  {error : SyntaxError} {p : List Kind → Option Kind → Bool} {known : Option Kind → Bool}

/-- What is known of the next token when a plan has been followed holds of it. -/
private theorem Follows.knownAfter (h : Follows tokens plan i events (.ok ()) j)
    (marked : ∀ k, k + 1 = tokens.size → kindAt? tokens k = some .endOfInput)
    (inner : plan.inner = true) (here : known (kindAt? tokens i) = true) :
    plan.knownAfter known (kindAt? tokens j) = true := by
  have left : (known (kindAt? tokens j) || (kindAt? tokens j).isSome ||
      plan.form.ends.contains .endOfInput) = true := by
    -- A plan that has taken nothing still has what was known before the same token.  One that has
    -- taken something has a token in front of it, unless it took the marker.
    by_cases moved : i < j
    · cases next : kindAt? tokens j with
      | some kind => simp
      | none =>
        have ends := h.marker_mem_ends inner moved (kindAt?_eq_none_iff.mp next) marked
        simp [ends]
    · have := h.start_le
      obtain rfl : i = j := by omega
      simp [here]
  unfold Plan.knownAfter
  rw [left, Bool.true_and]
  split
  · exact h.loop_skips inner
  · rfl

/-- Where a plan comes to a violation, an expression is missing, or what is expected is not met in
    one of the ways that the plan allows. -/
theorem Follows.error_of_failsWithin (h : Follows tokens plan i events (.error error) j)
    (marked : ∀ k, k + 1 = tokens.size → kindAt? tokens k = some .endOfInput)
    (nonterminals : ∀ n : Nonterminal, n ≠ .program → n.plan.failsWithin p n.known = true)
    (inner : plan.inner = true) (checked : plan.failsWithin p known = true)
    (here : known (kindAt? tokens i) = true) :
    ((kindAt? tokens j).isSome = true ∧ error = missingExpression tokens j) ∨
      ∃ kinds, p kinds (kindAt? tokens j) = true ∧
        error = Recognizer.mismatch tokens j kinds := by
  -- Induction along the run: each part is entered with what the parts before it have left known.
  generalize failed : Except.error error = outcome at h
  induction h generalizing known with
  | done | expect | loopLast | ended | taken => cases failed
  | @reject i =>
    cases failed
    have isSome := of_forAllNext checked (kindAt? tokens i)
    rw [here] at isSome
    exact .inl ⟨isSome, rfl⟩
  | @mismatch kinds i next =>
    cases failed
    have allowed := of_forAllNext checked (kindAt? tokens i)
    rw [here, ← nextIs, next] at allowed
    exact .inr ⟨kinds, allowed, rfl⟩
  -- What is known where the nonterminal is called is what its own check starts from.
  | @call n i _ _ _ _ ih =>
    have notProgram := Plan.inner_call.mp inner
    have seen := of_forAllNext checked (kindAt? tokens i)
    rw [here] at seen
    exact ih (n.inner_plan notProgram) (nonterminals n notProgram) seen failed
  | seqHalt _ ih =>
    rw [Plan.inner, Bool.and_eq_true] at inner
    rw [Plan.failsWithin, Bool.and_eq_true] at checked
    exact ih inner.1 checked.1 here failed
  | seq h _ _ ih =>
    rw [Plan.inner, Bool.and_eq_true] at inner
    rw [Plan.failsWithin, Bool.and_eq_true] at checked
    -- The second part starts from what is known behind the first.
    exact ih inner.2 checked.2 (h.knownAfter marked inner.1 here) failed
  | lookYes next _ ih =>
    rw [Plan.inner, Bool.and_eq_true] at inner
    rw [Plan.failsWithin, Bool.and_eq_true] at checked
    exact ih inner.1 checked.1 next failed
  | lookNo next _ ih | takeNo next _ ih =>
    rw [Plan.inner, Bool.and_eq_true] at inner
    rw [Plan.failsWithin, Bool.and_eq_true] at checked
    refine ih inner.2 checked.2 ?_ failed
    rw [here, ← nextIs, next]
    rfl
  | takeYes next _ ih =>
    rw [Plan.inner, Bool.and_eq_true] at inner
    rw [Plan.failsWithin, Bool.and_eq_true] at checked
    exact ih inner.1 checked.1 ((Follows.expect next).knownAfter marked rfl next) failed
  -- Nothing is known at the start of a round, since any number of rounds may stand before it.
  | loopHalt _ ih => exact ih inner checked rfl failed
  | @loopAgain round _ _ _ _ _ _ _ _ _ _ ih =>
    have checked : (Plan.loop round).failsWithin p (fun _ => true) = true := checked
    exact ih inner checked rfl failed
  | notEnded next _ ih =>
    refine ih inner checked ?_ failed
    rw [here, ← atEnd, next]
    rfl
  | notTaken => cases inner

/-! ## The tokens of a whole text -/

/-- The tokens of a text in which a program was recognized to the end have balanced braces. -/
private theorem Follows.depth_eq_zero {tokens : List Token}
    (h : Follows tokens.toArray (.call .program) 0 events (.ok ()) tokens.length) :
    depth (tokens.map (·.kind)) = 0 := by
  obtain ⟨word, k, spelled, derived, -, rest⟩ := follows_program_iff.mp ⟨_, h⟩
  have balanced := depth_of_derives derived rfl
  -- The marker, taken by the last declaration or behind it, opens and closes nothing.
  rcases rest with ⟨-, all⟩ | ⟨-, next, all⟩
  · rw [← all] at spelled
    rw [(spells_all tokens).unique spelled, balanced]
  · have whole := spelled.append (spells_singleton next)
    rw [← all] at whole
    rw [(spells_all tokens).unique whole, depth_append, balanced]
    rfl

variable {front : List Token} {last : Token}

/-- The errors that the tokens of a whole text can be rejected with. -/
theorem error_of_recognize (isMarker : last.kind = .endOfInput)
    (notMarker : ∀ token ∈ front, token.kind ≠ .endOfInput)
    (rejected : recognize (front ++ [last]) = .error error) :
    (∃ found, error = .noExpression found) ∨ error = .noTokenLeft [.rightBrace] ∨
      ∃ expected found, error = .unexpectedToken expected found ∧ expected ∈ askedLists ∧
        (expected = [.rightBrace] → found.kind = .endOfInput) := by
  have marked := endMarked_concat isMarker notMarker
  obtain ⟨_, h⟩ := recognizeFrom_iff.mp ⟨rejected, rfl⟩
  generalize (recognizeFrom (front ++ [last]).toArray .program 0).index = k at h
  obtain ⟨_, -, hloop⟩ := h.of_program_error marked
  -- Nothing but the check of the tables (`failsWithin_plan`) is left to do once it is known that
  -- the marker is the last token.
  have markerLast (m : Nat) (isLast : m + 1 = (front ++ [last]).toArray.size) :
      kindAt? (front ++ [last]).toArray m = some .endOfInput := by
    rw [kindAt?_eq_endOfInput_iff marked, isLast, List.size_toArray]
  have nonterminals (n : Nonterminal) (inner : n ≠ .program) := failsWithin_plan inner
  have checked : (Plan.loop (.unlessAtEnd (.call .declaration))).failsWithin isKnownFailure
      (fun _ => true) = true := by
    decide +kernel
  rcases hloop.error_of_failsWithin markerLast nonterminals rfl checked rfl with
    ⟨isSome, rfl⟩ | ⟨expected, failure, rfl⟩
  · left
    rw [kindAt?, Option.isSome_map] at isSome
    obtain ⟨found, isFound⟩ := Option.isSome_iff_exists.mp isSome
    exact ⟨found, by rw [missingExpression, isFound]⟩
  · right
    rw [kindAt?] at failure
    rw [Recognizer.mismatch]
    cases isFound : (front ++ [last]).toArray[k]? with
    -- All tokens are used up, and of the known failures only a missing brace is left.
    | none =>
      rw [isFound] at failure
      left
      rw [beq_iff_eq.mp failure]
    | some found =>
      rw [isFound, Option.map_some, isKnownFailure, Bool.and_eq_true, Bool.or_eq_true,
        bne_iff_ne, beq_iff_eq] at failure
      exact .inr ⟨expected, found, rfl, List.contains_iff_mem.mp failure.1,
        fun isBrace => failure.2.resolve_left (fun notBrace => notBrace isBrace)⟩

/-- If closing braces behind the marker complete some tokens to a program, then the tokens alone end
    too early. -/
theorem recognize_of_braces (isMarker : last.kind = .endOfInput)
    (notMarker : ∀ token ∈ front, token.kind ≠ .endOfInput) {more : List Token} {n : Nat}
    (positive : 1 ≤ n) (kinds : more.map (·.kind) = .replicate n .rightBrace ++ [.endOfInput])
    (h : Follows (front ++ [last] ++ more).toArray (.call .program) 0 events (.ok ())
      (front ++ [last] ++ more).length) :
    ∃ expected, recognize (front ++ [last]) = .error (.noTokenLeft expected) := by
  have balanced := h.depth_eq_zero
  have accepted := (recognizeFrom_iff.mpr ⟨_, h⟩).1
  apply (recognize_of_accepted accepted).resolve_left
  intro acceptedFront
  -- Both are balanced, which leaves no room for the braces.
  have marked := endMarked_concat isMarker notMarker
  obtain ⟨_, h'⟩ := recognizeFrom_iff.mp ⟨acceptedFront, rfl⟩
  obtain ⟨all, -⟩ := (follows_program_iff_of_endMarked marked).mp ⟨_, h'⟩
  rw [all] at h'
  have balancedFront := h'.depth_eq_zero
  rw [List.map_append, depth_append, kinds, depth_append, depth_replicate, balancedFront,
    show depth [.endOfInput] = 0 from rfl] at balanced
  omega

/-- If some tokens end too early, then closing braces behind the marker complete them. -/
theorem exists_braces_of_tooFew (isMarker : last.kind = .endOfInput)
    (notMarker : ∀ token ∈ front, token.kind ≠ .endOfInput) {expected : List Kind}
    (rejected : recognize (front ++ [last]) = .error (.noTokenLeft expected)) :
    ∃ n, ∀ more : List Token, more.map (·.kind) = .replicate (n + 1) .rightBrace ++ [.endOfInput] →
      ∃ events, Follows (front ++ [last] ++ more).toArray (.call .program) 0 events (.ok ())
        (front ++ [last] ++ more).length := by
  have marked := endMarked_concat isMarker notMarker
  obtain rfl : expected = [.rightBrace] := by
    rcases error_of_recognize isMarker notMarker rejected with ⟨_, same⟩ | same | ⟨_, _, same, -⟩
    · cases same
    · exact SyntaxError.noTokenLeft.inj same
    · cases same
  obtain ⟨_, h⟩ := recognizeFrom_iff.mp ⟨rejected, rfl⟩
  rw [h.stop_eq_of_noTokenLeft marked rfl] at h
  obtain ⟨_, -, hloop⟩ := h.of_program_error marked
  obtain ⟨n, derived⟩ := hloop.closes_declarations (by decide)
  rw [List.take_length] at derived
  refine ⟨n, fun more kinds => ?_⟩
  obtain ⟨braces, _, rfl, areBraces, single⟩ := List.map_eq_append_iff.mp kinds
  obtain ⟨last', rfl, isMarker'⟩ := List.map_eq_singleton_iff.mp single
  rw [← areBraces, ← List.map_append] at derived
  have h := follows_program_of_declarations isMarker' derived
  -- The token in front of the last marker is a brace, so the program takes the marker.
  rw [List.map_append, areBraces, List.getLast?_append, List.getLast?_replicate] at h
  simpa [Nat.add_assoc] using h

/-- The tokens of a whole text are rejected because an expression is missing, because one of a few
    kinds of tokens is missing where another token stands, or because a closing brace is missing and
    no token is left.  A closing brace is never missing in front of other tokens.  No token is left
    exactly if the text, with its marker in place, goes on to a program with closing braces and
    another marker. -/
theorem error_catalogue (tokens : List Token) (closing : Nat → List Token)
    (marked : EndMarked tokens)
    (kinds : ∀ n, (closing n).map (·.kind) = .replicate n .rightBrace ++ [.endOfInput]) :
    (∀ error, recognize tokens = .error error →
      (∃ found, error = .noExpression found) ∨ error = .noTokenLeft [.rightBrace] ∨
        ∃ expected found, error = .unexpectedToken expected found ∧ expected ∈ askedLists ∧
          (expected = [.rightBrace] → found.kind = .endOfInput)) ∧
    ((∃ expected, recognize tokens = .error (.noTokenLeft expected)) ↔
      ∃ n, 1 ≤ n ∧
        (recognizeFrom (tokens ++ closing n).toArray .program 0).outcome = .ok () ∧
        (recognizeFrom (tokens ++ closing n).toArray .program 0).index =
          (tokens ++ closing n).length) := by
  obtain ⟨front, last, rfl, isMarker, notMarker⟩ := marked
  constructor
  · intro error rejected
    exact error_of_recognize isMarker notMarker rejected
  · constructor
    · intro h
      obtain ⟨expected, rejected⟩ := h
      -- The number of braces is one for each block that is left open.
      obtain ⟨n, completes⟩ := exists_braces_of_tooFew isMarker notMarker rejected
      exact ⟨n + 1, by omega, recognizeFrom_iff.mpr (completes _ (kinds (n + 1)))⟩
    · intro h
      obtain ⟨n, positive, completed⟩ := h
      obtain ⟨_, h⟩ := recognizeFrom_iff.mp completed
      exact recognize_of_braces isMarker notMarker positive (kinds n) h

set_option maxRecDepth 4000 in
/-- In `{ if (a) print 1`, the `print` takes the marker, and the brace is missed behind it. -/
theorem error_catalogue_print :
    ∃ tokens : List Token, EndMarked tokens ∧
      tokens.map (·.kind) = [.leftBrace, .kwIf, .leftParen, .identifier, .rightParen, .kwPrint,
        .number, .endOfInput] ∧
      recognize tokens = .error (.noTokenLeft [.rightBrace]) ∧
      ∃ n, 1 ≤ n ∧
        (recognizeFrom (tokens ++ (List.replicate n Kind.rightBrace ++ [Kind.endOfInput]).map
          Token.ofKind).toArray .program 0).outcome = .ok () := by
  have marked : EndMarked ([Kind.leftBrace, .kwIf, .leftParen, .identifier, .rightParen, .kwPrint,
      .number, .endOfInput].map .ofKind) :=
    ⟨[_, _, _, _, _, _, _], _, rfl, rfl, by decide⟩
  have rejected : recognize ([Kind.leftBrace, .kwIf, .leftParen, .identifier, .rightParen, .kwPrint,
      .number, .endOfInput].map .ofKind) = .error (.noTokenLeft [.rightBrace]) := by
    cbv
  obtain ⟨n, positive, completed, -⟩ := (error_catalogue _
    (fun n => (List.replicate n Kind.rightBrace ++ [Kind.endOfInput]).map .ofKind) marked
    (fun n => map_kind_ofKind _)).2.mp ⟨_, rejected⟩
  exact ⟨_, marked, rfl, rejected, n, positive, completed⟩

end Recognizer

end LoxSyntax
