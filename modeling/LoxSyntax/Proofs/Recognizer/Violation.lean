import LoxSyntax.Proofs.Grammar.Writable
import LoxSyntax.Proofs.Recognizer.Errors
import LoxSyntax.Proofs.Recognizer.Program

/-! # The leftmost violation

The recognizer stops at the first token that cannot be part of a program.  The tokens before it can
be completed to a program, with any of the kinds that were asked for in its place
(`Follows.begins`), and no matter what comes behind it, the tokens up to it are rejected
with the same error.  `leftmost_violation` says this of the tokens of a whole text. -/

namespace LoxSyntax

namespace Plan

/-- Whether a plan can come to `reject` before it has taken anything. -/
def rejects : Plan → Bool
  | reject => true
  | ifTake _ _ no => no.rejects
  | _ => false

/-- Whether the form of a plan allows to go on wherever following it can come to a violation.  What
    comes later must be writable, and `reject` may only be what remains of several choices. -/
def completable : Plan → Bool
  | done | reject | expect _ | call _ => true
  | seq first second =>
    first.completable && second.completable && !first.rejects && !second.rejects &&
      second.form.writable
  | ifNext _ yes no => yes.completable && no.completable && !yes.rejects && !no.rejects
  | ifTake _ yes no => yes.completable && no.completable && !yes.rejects
  | loop round => round.completable && !round.rejects
  | unlessAtEnd plan => plan.completable && !plan.rejects
  | unlessEndTaken _ => false

end Plan

namespace Nonterminal

/-- The plans can be completed from wherever they stop. -/
theorem completable_plan {n : Nonterminal} (inner : n ≠ .program) : n.plan.completable = true := by
  cases n <;> first | decide | contradiction

/-- Only a primary expression can be missing. -/
private theorem eq_primary_of_rejects {n : Nonterminal} (h : n.plan.rejects = true) :
    n = .primary := by
  cases n <;> first | rfl | exact absurd h (by decide)

end Nonterminal

/-- Each kind that a primary expression can begin with does begin one. -/
private theorem derives_primary {kind : Kind} (h : kind ∈ Kind.primaryStarts) :
    ∃ rest, Kind.endOfInput ∉ rest ∧ Derives (.category .primary) (kind :: rest) := by
  have cases_of_mem : kind ∈ Kind.atoms ∨ kind = .leftParen ∨ kind = .kwSuper := by
    revert h
    cases kind <;> decide
  rcases cases_of_mem with atom | rfl | rfl
  · exact ⟨[], List.not_mem_nil, .category (.left (.token atom))⟩
  · -- Some expression is needed between the parentheses.
    obtain ⟨word, notEnd, derived⟩ :=
      Nonterminal.writable_of_ordered rfl .expression (Nonterminal.mem_writingOrder (by decide))
    refine ⟨word ++ [.rightParen], by simp [notEnd], .category (.right (.left ?_))⟩
    exact .seq (derives_single _) (.seq derived (derives_single _))
  · refine ⟨[.dot] ++ [.identifier], by decide, .category (.right (.right ?_))⟩
    exact .seq (derives_single _) (.seq (derives_single _) (derives_single _))

namespace Recognizer

variable {tokens : Array Token} {plan : Plan} {i j k : Nat} {events : List Event}
  {error : SyntaxError} {kind : Kind} {form first second left right item : Form}
  {word : List Kind}

/-! ## Completions -/

/-- The tokens from one index up to another begin a word of a form in which a token of some kind
    comes next, and no marker for the end of the input behind that. -/
def Begins (tokens : Array Token) (form : Form) (i k : Nat) (kind : Kind) : Prop :=
  ∃ word rest, Spells tokens i word k ∧ Kind.endOfInput ∉ rest ∧
    Derives form (word ++ kind :: rest)

/-- What begins the first part begins the sequence if the second part has a word. -/
private theorem Begins.seq_left (h : Begins tokens first i k kind) (writable : Writable second) :
    Begins tokens (.seq first second) i k kind := by
  obtain ⟨word, rest, spelled, notEnd, derived⟩ := h
  obtain ⟨more, notEnd', derived'⟩ := writable
  refine ⟨word, rest ++ more, spelled, by simp [notEnd, notEnd'], ?_⟩
  rw [← List.cons_append, ← List.append_assoc]
  exact .seq derived derived'

/-- What begins the second part begins the sequence behind a word of the first. -/
private theorem Begins.seq_right (spelled : Spells tokens i word j) (derived : Derives first word)
    (h : Begins tokens second j k kind) : Begins tokens (.seq first second) i k kind := by
  obtain ⟨more, rest, spelled', notEnd, derived'⟩ := h
  refine ⟨word ++ more, rest, spelled.append spelled', notEnd, ?_⟩
  rw [List.append_assoc]
  exact .seq derived derived'

/-- What begins a form begins a larger one. -/
private theorem Begins.mono (h : Begins tokens form i k kind)
    (derives : ∀ word, Derives form word → Derives first word) : Begins tokens first i k kind := by
  obtain ⟨word, rest, spelled, notEnd, derived⟩ := h
  exact ⟨word, rest, spelled, notEnd, derives _ derived⟩

/-- What begins a later round begins the repetition. -/
private theorem Begins.many (spelled : Spells tokens i word j) (derived : Derives item word)
    (h : Begins tokens (.many item) j k kind) : Begins tokens (.many item) i k kind := by
  obtain ⟨more, rest, spelled', notEnd, derived'⟩ := h
  refine ⟨word ++ more, rest, spelled.append spelled', notEnd, ?_⟩
  rw [List.append_assoc]
  exact .manyCons derived derived'

/-- What a plan took before it came to a violation begins a word of its form in which any of the
    kinds that were asked for can come next. -/
theorem Follows.begins (h : Follows tokens plan i events (.error error) k)
    (inner : plan.inner = true) (completable : plan.completable = true)
    (asked : kind ∈ error.asked) :
    Begins tokens plan.form i k kind ∨
      (plan.rejects = true ∧ k = i ∧ kind ∈ Kind.primaryStarts) := by
  generalize failed : Except.error error = outcome at h
  induction h with
  | done | expect | loopLast | ended | taken => cases failed
  | reject =>
    cases failed
    rw [asked_missingExpression] at asked
    exact .inr ⟨rfl, rfl, asked⟩
  | @mismatch _ i =>
    cases failed
    rw [asked_mismatch] at asked
    exact .inl ⟨[], [], spells_nil i, List.not_mem_nil, .token asked⟩
  | @call n i j _ _ _ ih =>
    have notProgram := Plan.inner_call.mp inner
    rcases ih (n.inner_plan notProgram) (n.completable_plan notProgram) failed with
      begins | ⟨rejects, rfl, isStart⟩
    · exact .inl (begins.mono fun _ => (derives_category_iff_plan notProgram).mpr)
    · -- An expression was missing altogether, and any primary expression would have done.
      obtain rfl := Nonterminal.eq_primary_of_rejects rejects
      obtain ⟨rest, notEnd, derived⟩ := derives_primary isStart
      exact .inl ⟨[], rest, spells_nil j, notEnd, derived⟩
  | seq h _ _ ih =>
    simp only [Plan.inner, Bool.and_eq_true] at inner
    simp only [Plan.completable, Bool.and_eq_true, Bool.not_eq_true'] at completable
    obtain ⟨⟨⟨⟨-, completable⟩, -⟩, notRejects⟩, -⟩ := completable
    -- The first part was taken whole, and its word goes in front.
    obtain ⟨word, spelled, derived⟩ := h.derives inner.1
    have begins := (ih inner.2 completable failed).resolve_right (by simp [notRejects])
    exact .inl (begins.seq_right spelled derived)
  | seqHalt _ ih =>
    simp only [Plan.inner, Bool.and_eq_true] at inner
    simp only [Plan.completable, Bool.and_eq_true, Bool.not_eq_true'] at completable
    obtain ⟨⟨⟨⟨completable, -⟩, notRejects⟩, -⟩, writable⟩ := completable
    -- The second part was not reached, and any word of it will do.
    have begins := (ih inner.1 completable failed).resolve_right (by simp [notRejects])
    exact .inl (begins.seq_left (writable_of_form writable))
  | lookYes _ _ ih =>
    simp only [Plan.inner, Bool.and_eq_true] at inner
    simp only [Plan.completable, Bool.and_eq_true, Bool.not_eq_true'] at completable
    obtain ⟨⟨⟨completable, -⟩, notRejects⟩, -⟩ := completable
    have begins := (ih inner.1 completable failed).resolve_right (by simp [notRejects])
    exact .inl (begins.mono fun _ => .left)
  | lookNo _ _ ih =>
    simp only [Plan.inner, Bool.and_eq_true] at inner
    simp only [Plan.completable, Bool.and_eq_true, Bool.not_eq_true'] at completable
    obtain ⟨⟨⟨-, completable⟩, -⟩, notRejects⟩ := completable
    have begins := (ih inner.2 completable failed).resolve_right (by simp [notRejects])
    exact .inl (begins.mono fun _ => .right)
  | takeYes next _ ih =>
    simp only [Plan.inner, Bool.and_eq_true] at inner
    simp only [Plan.completable, Bool.and_eq_true, Bool.not_eq_true'] at completable
    obtain ⟨⟨completable, -⟩, notRejects⟩ := completable
    obtain ⟨_, member, found⟩ := nextIs_iff.mp next
    have begins := (ih inner.1 completable failed).resolve_right (by simp [notRejects])
    have begins := begins.seq_right (spells_singleton found) (.token member)
    exact .inl (begins.mono fun _ => .left)
  | takeNo _ _ ih =>
    simp only [Plan.inner, Bool.and_eq_true] at inner
    simp only [Plan.completable, Bool.and_eq_true, Bool.not_eq_true'] at completable
    rcases ih inner.2 completable.1.2 failed with begins | rejected
    · exact .inl (begins.mono fun _ => .right)
    · exact .inr rejected
  | loopHalt _ ih =>
    simp only [Plan.completable, Bool.and_eq_true, Bool.not_eq_true'] at completable
    have begins := (ih inner completable.1 failed).resolve_right (by simp [completable.2])
    exact .inl (begins.mono fun _ => .many_once)
  | loopAgain h _ _ _ ih =>
    obtain ⟨word, spelled, derived⟩ := h.derives inner
    have begins := (ih inner completable failed).resolve_right (by simp [Plan.rejects])
    exact .inl (begins.many spelled derived)
  | notEnded _ _ ih =>
    simp only [Plan.completable, Bool.and_eq_true, Bool.not_eq_true'] at completable
    have begins := (ih inner completable.1 failed).resolve_right (by simp [completable.2])
    exact .inl (begins.mono fun _ => .left)
  | notTaken => cases inner

/-- Every error asks for something else than the marker for the end of the input. -/
theorem Follows.exists_asked (h : Follows tokens plan i events (.error error) k)
    (inner : plan.inner = true)
    (asked : plan.allAsked (fun kinds => kinds.any (· != .endOfInput)) = true) :
    ∃ kind ∈ error.asked, kind ≠ .endOfInput := by
  have nonterminals (n : Nonterminal) (_ : n ≠ .program) :
      n.plan.allAsked (fun kinds => kinds.any (· != .endOfInput)) = true := by
    cases n <;> first | rfl | contradiction
  -- A missing expression can always begin with a name; otherwise the plans never ask for the marker
  -- alone.
  rcases h.error_eq nonterminals inner asked with rfl | ⟨kinds, other, -, rfl⟩
  · rw [asked_missingExpression]
    exact ⟨.identifier, by decide, by decide⟩
  · rw [asked_mismatch]
    simpa using other

/-- What was taken before a violation within declarations can go on with any of the kinds that were
    asked for. -/
theorem Follows.begins_loop
    (h : Follows tokens (.loop (.unlessAtEnd (.call .declaration))) i events (.error error) k)
    {kind : Kind} (asked : kind ∈ error.asked) :
    Begins tokens (.many (.category .declaration)) i k kind := by
  have begins := (h.begins rfl rfl asked).resolve_right (by simp [Plan.rejects])
  exact begins.mono fun _ => derives_declarations_iff.mp

/-- Where a token is found in place of what a program asks for, what was taken before begins
    declarations, and any of the kinds that were asked for can come next. -/
theorem Follows.begins_declarations {found : Token}
    (h : Follows tokens (.call .program) i events (.error error) k)
    (isFound : error.found? = some found) :
    (∃ kind ∈ error.asked, kind ≠ .endOfInput) ∧
      ∀ kind ∈ error.asked, Begins tokens (.many (.category .declaration)) i k kind := by
  obtain ⟨_, hplan⟩ := h.of_call
  cases hplan with
  | seqHalt hloop =>
    exact ⟨hloop.exists_asked rfl rfl, fun kind asked => hloop.begins_loop asked⟩
  | seq hloop hend =>
    -- The declarations reached to the end of the input, and no marker for it stands there.
    obtain ⟨_, _, _, ended⟩ := follows_declarations_iff.mp ⟨_, hloop⟩
    cases hend with
    | notTaken _ hend =>
      cases hend with
      | mismatch next =>
        rw [found?_mismatch] at isFound
        have kindAt : kindAt? tokens k = some found.kind := by
          rw [kindAt?, isFound, Option.map_some]
        rw [atEnd_of_kindAt? kindAt] at ended
        rw [nextIs_of_kindAt? kindAt, beq_iff_eq.mp ended] at next
        cases next

/-! ## The tokens of a whole text -/

/-- None of the tokens in front of the last one is the marker. -/
private theorem kind_ne_of_mem_take {tokens : List Token} (marked : EndMarked tokens)
    (within : k < tokens.length) : ∀ token ∈ tokens.take k, token.kind ≠ .endOfInput := by
  obtain ⟨front, last, rfl, -, notMarker⟩ := marked
  rw [List.length_append, List.length_singleton] at within
  rw [List.take_append_of_le_length (by omega)]
  intro token member
  exact notMarker token (List.mem_of_mem_take member)

/-- A token of a kind can stand behind the first tokens of some: there are further tokens that make
    them a program, the marker not being among these. -/
def CanFollow (tokens : List Token) (k : Nat) (kind : Kind) : Prop :=
  ∃ rest : List Token, (∀ token ∈ rest, token.kind ≠ .endOfInput) ∧
    ∀ next last : Token, next.kind = kind → last.kind = .endOfInput →
      recognize (tokens.take k ++ next :: rest ++ [last]) = .ok ()

/-- What begins declarations can be completed to a program. -/
theorem Begins.canFollow {tokens : List Token} (marked : EndMarked tokens)
    (within : k < tokens.length) (notEnd : kind ≠ .endOfInput)
    (h : Begins tokens.toArray (.many (.category .declaration)) 0 k kind) :
    CanFollow tokens k kind := by
  obtain ⟨word, rest, spelled, notEnd', derived⟩ := h
  have notEndRest : ∀ token ∈ rest.map Token.ofKind, token.kind ≠ .endOfInput := by
    intro token member isEnd
    obtain ⟨other, isRest, rfl⟩ := List.mem_map.mp member
    rw [show other = .endOfInput from isEnd] at isRest
    exact notEnd' isRest
  refine ⟨_, notEndRest, fun next last isNext isLast => ?_⟩
  have notMarker : ∀ token ∈ tokens.take k ++ next :: rest.map Token.ofKind,
      token.kind ≠ .endOfInput := by
    intro token member
    rcases List.mem_append.mp member with member | member
    · exact kind_ne_of_mem_take marked within token member
    · rcases List.mem_cons.mp member with rfl | member
      · rw [isNext]
        exact notEnd
      · exact notEndRest token member
  -- The declarations are complete, so the marker is left for the program.
  apply (recognize_concat_iff isLast notMarker).mpr
  left
  rw [List.map_append, List.map_cons, spelled.take_eq, map_kind_ofKind, isNext]
  exact derived

/-- Where the recognizer stops, it has seen no token behind the one that it stops at, so others with
    the same tokens up to there are rejected with the same error. -/
theorem Follows.recognize_eq_of_prefix {tokens other : List Token}
    (h : Follows tokens.toArray (.call .program) 0 events (.error error) k)
    (within : k < tokens.length) (begins : tokens.take (k + 1) <+: other) :
    recognize other = .error error := by
  obtain ⟨more, rfl⟩ := begins
  have same (m : Nat) (le : m ≤ k) : (tokens.take (k + 1) ++ more)[m]? = tokens[m]? := by
    rw [List.getElem?_append_left (by simp; omega), List.getElem?_take_of_lt (by omega)]
  have there : Follows (tokens.take (k + 1) ++ more).toArray _ _ _ _ k :=
    h.congr (fun m le => by rw [kindAt?_toArray, kindAt?_toArray, same m le])
  -- The token that is found is the same one, so the error does not change, either.
  rw [List.getElem?_toArray, same k (Nat.le_refl k), ← List.getElem?_toArray, ← h.found?_eq,
    Except.mapError, error.replaceFound_self] at there
  exact (recognizeFrom_iff.mpr ⟨_, there⟩).1

/-- The error that the tokens of a whole text are rejected with tells of the leftmost token that
    cannot be part of a program: the tokens up to it are rejected with the same error whatever comes
    behind them, and the tokens before it can be completed to a program. -/
theorem leftmost_violation (tokens : List Token) (error : SyntaxError) (found : Token) (k : Nat)
    (marked : EndMarked tokens) (rejected : recognize tokens = .error error)
    (isFound : error.found? = some found)
    (stopped : (recognizeFrom tokens.toArray .program 0).index = k) :
    tokens[k]? = some found ∧
    (∀ other, tokens.take (k + 1) <+: other → recognize other = .error error) ∧
    ∃ rest : List Token, (∀ token ∈ rest, token.kind ≠ .endOfInput) ∧
      ∀ last : Token, last.kind = .endOfInput →
        recognize (tokens.take k ++ rest ++ [last]) = .ok () := by
  obtain ⟨_, h⟩ := recognizeFrom_iff.mp ⟨rejected, stopped⟩
  have foundAt := h.found?_eq
  rw [List.getElem?_toArray] at foundAt
  have within : k < tokens.length := by
    rw [isFound] at foundAt
    exact (List.getElem?_eq_some_iff.mp foundAt.symm).1
  refine ⟨foundAt.symm.trans isFound, ?_, ?_⟩
  · exact fun other => h.recognize_eq_of_prefix within
  · -- Any of the kinds that were asked for will do, but for the marker itself.
    obtain ⟨⟨kind, asked, notEnd⟩, begins⟩ := h.begins_declarations isFound
    obtain ⟨rest, notEndRest, accepted⟩ := (begins kind asked).canFollow marked within notEnd
    refine ⟨.ofKind kind :: rest, List.forall_mem_cons.mpr ⟨notEnd, notEndRest⟩, ?_⟩
    exact fun last isLast => accepted _ last rfl isLast

/-- In `while (1;`, the semicolon stands where the parenthesis should be closed. -/
theorem leftmost_violation_semicolon :
    ∃ tokens : List Token, EndMarked tokens ∧
      tokens.map (·.kind) = [.kwWhile, .leftParen, .number, .semicolon, .endOfInput] ∧
      recognize tokens = .error (.unexpectedToken [.rightParen] (.ofKind .semicolon)) ∧
      tokens[3]? = some (.ofKind .semicolon) ∧
      (∀ other, tokens.take 4 <+: other →
        recognize other = .error (.unexpectedToken [.rightParen] (.ofKind .semicolon))) ∧
      ∃ rest : List Token, (∀ token ∈ rest, token.kind ≠ .endOfInput) ∧
        ∀ last : Token, last.kind = .endOfInput →
          recognize (tokens.take 3 ++ rest ++ [last]) = .ok () := by
  have marked : EndMarked ([.kwWhile, .leftParen, .number, .semicolon, .endOfInput].map .ofKind) :=
    ⟨[_, _, _, _], _, rfl, rfl, by decide⟩
  have rejected : recognize ([.kwWhile, .leftParen, .number, .semicolon, .endOfInput].map .ofKind) =
      .error (.unexpectedToken [.rightParen] (.ofKind .semicolon)) := by
    cbv
  exact ⟨_, marked, rfl, rejected, leftmost_violation _ _ _ 3 marked rejected rfl (by cbv)⟩

end Recognizer

end LoxSyntax
