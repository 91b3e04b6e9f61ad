import LoxSyntax.Proofs.Grammar.Marker
import LoxSyntax.Proofs.Recognizer.Violation

/-! # Repairs at the end of a text

What can be added to a text whose end comes too early.  Where a closing brace is asked for, closing
braces alone complete what was taken (`Follows.closes`), as many as there are open blocks.  Where a
semicolon is asked for, the recognizer takes it and gets to the marker behind it, if it does not
accept (`recognize_append_semicolon`). -/

namespace LoxSyntax

/-- Whether a form has a word of closing braces only, as far as can be told without looking into
    nonterminals. -/
def Form.allowsBraces : Form → Bool
  | empty => true
  | token kinds => kinds.contains .rightBrace
  | category _ => false
  | seq first second => first.allowsBraces && second.allowsBraces
  | choice left right => left.allowsBraces || right.allowsBraces
  | many _ => true

/-- A form that allows it has a word of closing braces alone. -/
private theorem exists_braces {form : Form} (h : form.allowsBraces = true) :
    ∃ n, Derives form (.replicate n .rightBrace) := by
  induction form with
  | empty => exact ⟨0, .empty⟩
  | token kinds => exact ⟨1, .token (List.contains_iff_mem.mp h)⟩
  -- Nonterminals are not looked into.
  | category => cases h
  | seq first second ih ih' =>
    rw [Form.allowsBraces, Bool.and_eq_true] at h
    obtain ⟨m, derived⟩ := ih h.1
    obtain ⟨n, derived'⟩ := ih' h.2
    refine ⟨m + n, ?_⟩
    rw [List.replicate_add]
    exact .seq derived derived'
  | choice left right ih ih' =>
    rw [Form.allowsBraces, Bool.or_eq_true] at h
    rcases h with h | h
    · obtain ⟨n, derived⟩ := ih h
      exact ⟨n, .left derived⟩
    · obtain ⟨n, derived⟩ := ih' h
      exact ⟨n, .right derived⟩
  | many => exact ⟨0, .manyNil⟩

/-- Whether a block can stand in a nonterminal, so that a closing brace can be missing. -/
def Nonterminal.hasBlock : Nonterminal → Bool
  | .program | .declaration | .funDecl | .statement | .forStmt | .ifStmt | .whileStmt | .block
  | .function => true
  | _ => false

namespace Plan

/-- Whether following a plan can come to ask for a closing brace. -/
def asksForBrace : Plan → Bool
  | done | reject => false
  | expect kinds => kinds.contains .rightBrace
  | call n => n.hasBlock
  | seq first second => first.asksForBrace || second.asksForBrace
  | ifNext _ yes no => yes.asksForBrace || no.asksForBrace
  | ifTake _ yes no => yes.asksForBrace || no.asksForBrace
  | loop round => round.asksForBrace
  | unlessAtEnd plan => plan.asksForBrace
  | unlessEndTaken plan => plan.asksForBrace

/-- Whether closing braces are all that has to come behind a part of a plan that asks for one. -/
def closable : Plan → Bool
  | done | reject | expect _ | call _ => true
  | seq first second =>
    first.closable && second.closable && (!first.asksForBrace || second.form.allowsBraces)
  | ifNext _ yes no => yes.closable && no.closable
  | ifTake _ yes no => yes.closable && no.closable
  | loop round => round.closable
  | unlessAtEnd plan => plan.closable
  | unlessEndTaken plan => plan.closable

end Plan

namespace Nonterminal

/-- Behind every part that can ask for a closing brace, the plans need nothing but closing
    braces. -/
private theorem closable_plan (n : Nonterminal) : n.plan.closable = true := by
  cases n <;> rfl

/-- The table of nonterminals with blocks agrees with the plans. -/
private theorem hasBlock_of_asksForBrace {n : Nonterminal} (h : n.plan.asksForBrace = true) :
    n.hasBlock = true := by
  cases n <;> first | rfl | exact absurd h (by decide)

end Nonterminal

namespace Recognizer

variable {tokens : Array Token} {plan : Plan} {i j k : Nat} {events : List Event}
  {error : SyntaxError} {form first second item : Form} {word : List Kind}

/-! ## Closing braces -/

/-- The tokens from one index up to another and some closing braces behind them are a word of a
    form. -/
def Closes (tokens : Array Token) (form : Form) (i k : Nat) : Prop :=
  ∃ word n, Spells tokens i word k ∧ Derives form (word ++ .replicate (n + 1) .rightBrace)

/-- What closes a form closes a larger one. -/
private theorem Closes.mono {larger : Form} (h : Closes tokens form i k)
    (derives : ∀ word, Derives form word → Derives larger word) : Closes tokens larger i k := by
  obtain ⟨word, n, spelled, derived⟩ := h
  exact ⟨word, n, spelled, derives _ derived⟩

/-- What closes the first part closes the sequence if the second part allows for braces alone. -/
private theorem Closes.seq_left (h : Closes tokens first i k)
    (allows : second.allowsBraces = true) : Closes tokens (.seq first second) i k := by
  obtain ⟨word, n, spelled, derived⟩ := h
  obtain ⟨m, derived'⟩ := exists_braces allows
  refine ⟨word, n + m, spelled, ?_⟩
  rw [show n + m + 1 = n + 1 + m by omega, List.replicate_add, ← List.append_assoc]
  exact .seq derived derived'

/-- What closes the second part closes the sequence behind a word of the first. -/
private theorem Closes.seq_right (spelled : Spells tokens i word j) (derived : Derives first word)
    (h : Closes tokens second j k) : Closes tokens (.seq first second) i k := by
  obtain ⟨more, n, spelled', derived'⟩ := h
  refine ⟨word ++ more, n, spelled.append spelled', ?_⟩
  rw [List.append_assoc]
  exact .seq derived derived'

/-- What closes a later round closes the repetition. -/
private theorem Closes.many (spelled : Spells tokens i word j) (derived : Derives item word)
    (h : Closes tokens (.many item) j k) : Closes tokens (.many item) i k := by
  obtain ⟨more, n, spelled', derived'⟩ := h
  refine ⟨word ++ more, n, spelled.append spelled', ?_⟩
  rw [List.append_assoc]
  exact .manyCons derived derived'

/-- Where a plan comes to ask for a closing brace, closing braces are all that is missing. -/
theorem Follows.closes (h : Follows tokens plan i events (.error error) k)
    (inner : plan.inner = true) (closable : plan.closable = true)
    (asked : .rightBrace ∈ error.asked) :
    plan.asksForBrace = true ∧ Closes tokens plan.form i k := by
  generalize failed : Except.error error = outcome at h
  induction h with
  | done | expect | loopLast | ended | taken => cases failed
  | reject =>
    -- No expression begins with a closing brace.
    cases failed
    rw [asked_missingExpression] at asked
    exact absurd asked (by decide)
  | @mismatch _ i =>
    cases failed
    rw [asked_mismatch] at asked
    exact ⟨List.contains_iff_mem.mpr asked, [], 0, spells_nil i, .token asked⟩
  | @call n _ _ _ _ _ ih =>
    -- The plan asks for a brace, so the table has the nonterminal among those with a block.
    have notProgram := Plan.inner_call.mp inner
    obtain ⟨asks, closes⟩ := ih (n.inner_plan notProgram) n.closable_plan failed
    exact ⟨n.hasBlock_of_asksForBrace asks,
      closes.mono fun _ => (derives_category_iff_plan notProgram).mpr⟩
  | seq h _ _ ih =>
    simp only [Plan.inner, Bool.and_eq_true] at inner
    simp only [Plan.closable, Bool.and_eq_true] at closable
    obtain ⟨asks, closes⟩ := ih inner.2 closable.1.2 failed
    obtain ⟨_, spelled, derived⟩ := h.derives inner.1
    exact ⟨by rw [Plan.asksForBrace, asks, Bool.or_true], closes.seq_right spelled derived⟩
  | seqHalt _ ih =>
    simp only [Plan.inner, Bool.and_eq_true] at inner
    simp only [Plan.closable, Bool.and_eq_true, Bool.or_eq_true, Bool.not_eq_true'] at closable
    obtain ⟨asks, closes⟩ := ih inner.1 closable.1.1 failed
    -- The second part was not reached, and closing braces will do for it.
    have allows := closable.2.resolve_left (by simp [asks])
    exact ⟨by rw [Plan.asksForBrace, asks, Bool.true_or], closes.seq_left allows⟩
  | lookYes _ _ ih =>
    simp only [Plan.inner, Bool.and_eq_true] at inner
    simp only [Plan.closable, Bool.and_eq_true] at closable
    obtain ⟨asks, closes⟩ := ih inner.1 closable.1 failed
    exact ⟨by rw [Plan.asksForBrace, asks, Bool.true_or], closes.mono fun _ => .left⟩
  | lookNo _ _ ih =>
    simp only [Plan.inner, Bool.and_eq_true] at inner
    simp only [Plan.closable, Bool.and_eq_true] at closable
    obtain ⟨asks, closes⟩ := ih inner.2 closable.2 failed
    exact ⟨by rw [Plan.asksForBrace, asks, Bool.or_true], closes.mono fun _ => .right⟩
  | takeYes next _ ih =>
    simp only [Plan.inner, Bool.and_eq_true] at inner
    simp only [Plan.closable, Bool.and_eq_true] at closable
    obtain ⟨asks, closes⟩ := ih inner.1 closable.1 failed
    obtain ⟨_, member, found⟩ := nextIs_iff.mp next
    have closes := closes.seq_right (spells_singleton found) (.token member)
    exact ⟨by rw [Plan.asksForBrace, asks, Bool.true_or], closes.mono fun _ => .left⟩
  | takeNo _ _ ih =>
    simp only [Plan.inner, Bool.and_eq_true] at inner
    simp only [Plan.closable, Bool.and_eq_true] at closable
    obtain ⟨asks, closes⟩ := ih inner.2 closable.2 failed
    exact ⟨by rw [Plan.asksForBrace, asks, Bool.or_true], closes.mono fun _ => .right⟩
  | loopHalt _ ih =>
    obtain ⟨asks, closes⟩ := ih inner closable failed
    exact ⟨asks, closes.mono fun _ => .many_once⟩
  | loopAgain h _ _ _ ih =>
    obtain ⟨asks, closes⟩ := ih inner closable failed
    obtain ⟨_, spelled, derived⟩ := h.derives inner
    exact ⟨asks, closes.many spelled derived⟩
  | notEnded _ _ ih =>
    obtain ⟨asks, closes⟩ := ih inner closable failed
    exact ⟨asks, closes.mono fun _ => .left⟩
  | notTaken => cases inner

/-! ## The tokens of a whole text -/

variable {front : List Token} {last : Token}

/-- A violation that is met at the marker is met behind all other tokens. -/
private theorem Follows.stop_eq_of_marker {found : Token} (marked : EndMarked (front ++ [last]))
    (h : Follows (front ++ [last]).toArray plan i events (.error error) k)
    (isFound : error.found? = some found) (isEnd : found.kind = .endOfInput) :
    k = front.length := by
  have kindAt : kindAt? (front ++ [last]).toArray k = some .endOfInput := by
    rw [kindAt?, ← h.found?_eq, isFound, Option.map_some, isEnd]
  have := (kindAt?_eq_endOfInput_iff marked k).mp kindAt
  rw [List.length_append, List.length_singleton] at this
  omega

/-- A violation where no token is left is met behind the marker. -/
theorem Follows.stop_eq_of_noTokenLeft {tokens : List Token} (marked : EndMarked tokens)
    (h : Follows tokens.toArray plan 0 events (.error error) k) (none : error.found? = none) :
    k = tokens.length := by
  have size_le := Array.getElem?_eq_none_iff.mp (h.found?_eq.symm.trans none)
  have positive := length_pos_of_endMarked marked
  rw [List.size_toArray] at size_le
  have stop_le := h.stop_le (by omega)
  rw [List.size_toArray] at stop_le
  omega

/-- If a violation is met behind the marker, then a `print` took the marker, so the token in front
    of it ends an expression. -/
private theorem Follows.mem_expressionEnds (isMarker : last.kind = .endOfInput)
    (h : Follows (front ++ [last]).toArray (.loop (.unlessAtEnd (.call .declaration))) 0 events
      (.error error) (front ++ [last]).length) :
    ∃ kind ∈ Kind.expressionEnds, (front.map (·.kind)).getLast? = some kind := by
  obtain ⟨_, asked, -⟩ := h.exists_asked rfl rfl
  obtain ⟨_, rest, spelled, -, derived⟩ := h.begins_loop asked
  rw [spelled.unique (spells_all _), List.map_append, List.map_singleton, isMarker,
    List.append_assoc, List.singleton_append] at derived
  exact derived.mem_expressionEnds rfl

/-- A violation is met at the marker at the latest, if the token in front of it does not end an
    expression. -/
private theorem Follows.stop_le_of_not_ends (marked : EndMarked (front ++ [last]))
    (isMarker : last.kind = .endOfInput)
    (h : Follows (front ++ [last]).toArray (.call .program) 0 events (.error error) k)
    (notEnds : ∀ kind ∈ (front.map (·.kind)).getLast?, kind ∉ Kind.expressionEnds) :
    k ≤ front.length := by
  by_contra behind
  have stop_le := h.stop_le (by omega)
  rw [List.size_toArray] at stop_le
  obtain rfl : k = (front ++ [last]).length := by
    simp only [List.length_append, List.length_singleton] at stop_le ⊢
    omega
  obtain ⟨_, -, hloop⟩ := h.of_program_error marked
  -- If the marker was taken, then by a `print`, and so behind an expression.
  obtain ⟨kind, ends, isLast⟩ := hloop.mem_expressionEnds isMarker
  exact notEnds kind isLast ends

/-- A violation is met behind the tokens that some accepted tokens begin with. -/
private theorem Follows.le_of_accepted {tokens other : List Token}
    (accepted : recognize other = .ok ())
    (h : Follows tokens.toArray (.call .program) 0 events (.error error) k) {n : Nat}
    (same : other.take n = tokens.take n) : n ≤ k := by
  by_contra before
  have same_kind (m : Nat) (le : m ≤ k) : kindAt? other.toArray m = kindAt? tokens.toArray m := by
    rw [kindAt?_toArray, kindAt?_toArray, ← List.getElem?_take_of_lt (show m < n by omega), same,
      List.getElem?_take_of_lt (by omega)]
  have failed := (recognizeFrom_iff.mpr ⟨_, h.congr same_kind⟩).1
  cases accepted.symm.trans failed

/-- Tokens that some accepted tokens begin with are accepted, too, or there are too few of them. -/
theorem recognize_of_accepted {tokens more : List Token}
    (accepted : recognize (tokens ++ more) = .ok ()) :
    recognize tokens = .ok () ∨ ∃ expected, recognize tokens = .error (.noTokenLeft expected) := by
  cases outcome : recognize tokens with
  | ok => exact .inl rfl
  | error error =>
    obtain ⟨_, h⟩ := recognizeFrom_iff.mp ⟨outcome, rfl⟩
    have behind := h.le_of_accepted accepted (n := tokens.length) (by simp)
    have none := h.found?_eq.trans (Array.getElem?_eq_none (by simpa using behind))
    exact .inr ⟨_, by rw [SyntaxError.eq_noTokenLeft none]⟩

/-- If a semicolon is asked for at the marker, then it is taken when it is put there: the tokens are
    accepted, or the violation is met at the marker behind it. -/
theorem recognize_append_semicolon {found semicolon last' : Token}
    (isMarker : last.kind = .endOfInput) (notMarker : ∀ token ∈ front, token.kind ≠ .endOfInput)
    (rejected : recognize (front ++ [last]) = .error error) (isFound : error.found? = some found)
    (isEnd : found.kind = .endOfInput) (asked : .semicolon ∈ error.asked)
    (isSemicolon : semicolon.kind = .semicolon) (isMarker' : last'.kind = .endOfInput) :
    recognize (front ++ [semicolon] ++ [last']) = .ok () ∨
      ∃ error, recognize (front ++ [semicolon] ++ [last']) = .error error ∧
        error.found? = some last' := by
  have marked := endMarked_concat isMarker notMarker
  have marked' : EndMarked (front ++ [semicolon] ++ [last']) := by
    apply endMarked_concat isMarker'
    intro token member
    rcases List.mem_append.mp member with member | member
    · exact notMarker token member
    · rw [List.mem_singleton.mp member, isSemicolon]
      decide
  obtain ⟨_, h⟩ := recognizeFrom_iff.mp ⟨rejected, rfl⟩
  rw [h.stop_eq_of_marker marked isFound isEnd] at h
  obtain ⟨_, -, hloop⟩ := h.of_program_error marked
  obtain ⟨rest, -, accepted⟩ := (hloop.begins_loop asked).canFollow marked (by simp)
    (by decide)
  have accepted := accepted semicolon last isSemicolon isMarker
  rw [List.take_left] at accepted
  cases outcome : recognize (front ++ [semicolon] ++ [last']) with
  | ok => exact .inl rfl
  | error error' =>
    refine .inr ⟨error', rfl, ?_⟩
    obtain ⟨_, h'⟩ := recognizeFrom_iff.mp ⟨outcome, rfl⟩
    generalize (recognizeFrom (front ++ [semicolon] ++ [last']).toArray .program 0).index = j at h'
    -- The violation is met behind the semicolon, as some program begins with these tokens.
    have behind := h'.le_of_accepted accepted (n := front.length + 1) (by simp [List.take_append])
    -- It is not met behind the marker, as no `print` takes the marker behind a semicolon.
    have within := h'.stop_le_of_not_ends marked' isMarker' (by simp [isSemicolon]; decide)
    obtain rfl : j = (front ++ [semicolon]).length := by
      simp only [List.length_append, List.length_singleton] at within ⊢
      omega
    rw [h'.found?_eq, List.getElem?_toArray, List.getElem?_concat_length]

/-- Where a closing brace is asked for, the tokens so far and some closing braces are
    declarations. -/
theorem Follows.closes_declarations {tokens : List Token}
    (h : Follows tokens.toArray (.loop (.unlessAtEnd (.call .declaration))) 0 events
      (.error error) k) (asked : .rightBrace ∈ error.asked) :
    ∃ n, Derives (.many (.category .declaration))
      ((tokens.take k).map (·.kind) ++ .replicate (n + 1) .rightBrace) := by
  obtain ⟨word, n, spelled, derived⟩ := (h.closes rfl rfl asked).2
  rw [spelled.take_eq]
  exact ⟨n, derives_declarations_iff.mp derived⟩

/-- If a closing brace is asked for at the marker, then some closing braces make a program. -/
theorem exists_braces_of_marker {found : Token} (isMarker : last.kind = .endOfInput)
    (notMarker : ∀ token ∈ front, token.kind ≠ .endOfInput)
    (rejected : recognize (front ++ [last]) = .error error) (isFound : error.found? = some found)
    (isEnd : found.kind = .endOfInput) (asked : .rightBrace ∈ error.asked) :
    ∃ n, IsProgram (front.map (·.kind) ++ .replicate (n + 1) .rightBrace) := by
  have marked := endMarked_concat isMarker notMarker
  obtain ⟨_, h⟩ := recognizeFrom_iff.mp ⟨rejected, rfl⟩
  -- The recognizer stopped at the marker, so all tokens before it were taken.
  rw [h.stop_eq_of_marker marked isFound isEnd] at h
  obtain ⟨_, -, hloop⟩ := h.of_program_error marked
  obtain ⟨n, derived⟩ := hloop.closes_declarations asked
  rw [List.take_left] at derived
  exact ⟨n, .inl derived⟩

/-- If a closing brace is asked for behind the marker, then a semicolon in its place and some
    closing braces make a program. -/
theorem exists_braces_of_noTokenLeft (isMarker : last.kind = .endOfInput)
    (notMarker : ∀ token ∈ front, token.kind ≠ .endOfInput)
    (rejected : recognize (front ++ [last]) = .error error) (none : error.found? = none)
    (asked : .rightBrace ∈ error.asked) :
    ∃ n, IsProgram (front.map (·.kind) ++ [.semicolon] ++ .replicate (n + 1) .rightBrace) := by
  have marked := endMarked_concat isMarker notMarker
  obtain ⟨_, h⟩ := recognizeFrom_iff.mp ⟨rejected, rfl⟩
  -- The recognizer stopped behind the marker, which was taken in the place of a semicolon.
  rw [h.stop_eq_of_noTokenLeft marked none] at h
  obtain ⟨_, -, hloop⟩ := h.of_program_error marked
  obtain ⟨n, derived⟩ := hloop.closes_declarations asked
  rw [List.take_length, List.map_append, List.map_singleton, isMarker] at derived
  exact ⟨n, .inl (derived.replace_marker (marker_not_mem_map notMarker) (by simp))⟩

end Recognizer

end LoxSyntax
