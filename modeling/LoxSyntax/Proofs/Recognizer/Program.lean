import LoxSyntax.Proofs.Recognizer.Completeness

/-! # Whole programs

Where the marker for the end of the input stands at the end of the tokens and nowhere else, the
recognizer accepts them exactly if they are a program by the grammar, or if they are declarations
the last of which took the marker for itself (`recognize_iff_derives`).  This is the recognizer's
correctness: `Derives` knows nothing of lookahead, greed or the order of choices. -/

namespace LoxSyntax

/-- The marker for the end of the input is the last of some tokens, and there is no other.  These
    are the tokens of a whole text. -/
def EndMarked (tokens : List Token) : Prop :=
  ∃ front last, tokens = front ++ [last] ∧ last.kind = .endOfInput ∧
    ∀ token ∈ front, token.kind ≠ .endOfInput

namespace Recognizer

section

variable {tokens : Array Token} {i j : Nat}

/-! ## Declarations -/

/-- The loop over declarations has the words that are declarations, though its form allows rounds
    that take nothing. -/
theorem derives_declarations_iff {word : List Kind} :
    Derives (Plan.loop (.unlessAtEnd (.call .declaration))).form word ↔
      Derives (.many (.category .declaration)) word := by
  rw [← Form.mem_language, ← Form.mem_language]
  simp [Plan.form, Form.optional, sup_comm]

/-- The loop over declarations takes declarations up to the end of the input. -/
theorem follows_declarations_iff :
    (∃ events, Follows tokens (.loop (.unlessAtEnd (.call .declaration))) i events (.ok ()) j) ↔
      ∃ word, Spells tokens i word j ∧ Derives (.many (.category .declaration)) word ∧
        atEnd tokens j = true := by
  constructor
  · intro h
    obtain ⟨_, h⟩ := h
    obtain ⟨word, spelled, derived⟩ := h.derives rfl
    -- The loop ended before a token that a round skips, which is the marker or none at all.
    have skips := h.loop_skips rfl
    rw [Plan.skips, Plan.skips, Bool.or_false] at skips
    exact ⟨word, spelled, derives_declarations_iff.mp derived, skips⟩
  · intro h
    obtain ⟨word, spelled, derived, ended⟩ := h
    have skips : (Plan.loop (.unlessAtEnd (.call .declaration))).skips (kindAt? tokens j) =
        true := by
      rw [Plan.skips, Plan.skips, ← atEnd, ended, Bool.true_or]
    by_cases empty : word = []
    · -- There are no declarations, and one look at the next token ends the loop.
      subst empty
      obtain rfl : i = j := spelled
      exact follows_of_skips skips
    · -- The last declaration may be open, but an `else` is not the end of the input.
      have notElse : kindAt? tokens j ≠ some .kwElse := by
        intro next
        rw [atEnd_of_kindAt? next] at ended
        cases ended
      have stops : (Plan.loop (.unlessAtEnd (.call .declaration))).stops (kindAt? tokens j) =
          true := by
        rw [Plan.skips] at skips
        rw [Plan.stops, skips, Bool.true_and, Bool.and_eq_true]
        constructor
        · cases kindAt? tokens j <;> rfl
        · rw [Bool.not_eq_true', Bool.and_eq_false_iff, beq_eq_false_iff_ne]
          exact .inr notElse
      obtain ⟨_, nested⟩ := (derives_declarations_iff.mpr derived).exists_nests
      exact takes _ rfl word empty _ _ _ nested spelled stops (fun _ => notElse)

/-- What the recognizer takes for a program: declarations up to the end of the input, and then the
    marker for it, unless the last declaration took the marker. -/
theorem follows_program_iff :
    (∃ events, Follows tokens (.call .program) i events (.ok ()) j) ↔
      ∃ word k, Spells tokens i word k ∧ Derives (.many (.category .declaration)) word ∧
        atEnd tokens k = true ∧
        ((endTaken tokens k = true ∧ j = k) ∨
          (endTaken tokens k = false ∧ kindAt? tokens k = some .endOfInput ∧ j = k + 1)) := by
  constructor
  · intro h
    obtain ⟨_, h⟩ := h
    obtain ⟨_, hplan⟩ := h.of_call
    obtain ⟨k, _, _, hloop, hend⟩ := hplan.of_seq
    obtain ⟨word, spelled, derived, ended⟩ := follows_declarations_iff.mp ⟨_, hloop⟩
    refine ⟨word, k, spelled, derived, ended, ?_⟩
    -- What is behind the loop asks for the marker unless the last declaration took it.
    cases hend with
    | taken last => exact .inl ⟨last, rfl⟩
    | notTaken last h =>
      have marker := h.of_expect_singleton
      exact .inr ⟨last, marker.1, marker.stop_eq⟩
  · intro h
    obtain ⟨word, k, spelled, derived, ended, rest⟩ := h
    obtain ⟨_, hloop⟩ := follows_declarations_iff.mpr ⟨word, spelled, derived, ended⟩
    rcases rest with ⟨last, rfl⟩ | ⟨last, next, rfl⟩
    · exact ⟨_, .call (.seq hloop (.taken last))⟩
    · obtain ⟨_, marker⟩ := follows_expect (spells_singleton next)
        (List.mem_singleton_self Kind.endOfInput)
      exact ⟨_, .call (.seq hloop (.notTaken last marker))⟩

end

/-! ## Tokens of a whole text -/

variable {tokens : List Token}

/-- Tokens without a marker are marked by a marker behind them. -/
theorem endMarked_concat {front : List Token} {last : Token} (isMarker : last.kind = .endOfInput)
    (notMarker : ∀ token ∈ front, token.kind ≠ .endOfInput) : EndMarked (front ++ [last]) :=
  ⟨front, last, rfl, isMarker, notMarker⟩

/-- Tokens without a marker have kinds without one. -/
theorem marker_not_mem_map {front : List Token}
    (notMarker : ∀ token ∈ front, token.kind ≠ .endOfInput) :
    Kind.endOfInput ∉ front.map (·.kind) := by
  intro member
  obtain ⟨token, isFront, isMarker⟩ := List.mem_map.mp member
  exact notMarker token isFront isMarker

/-- The kind at an index of a list of tokens. -/
theorem kindAt?_toArray (tokens : List Token) (i : Nat) :
    kindAt? tokens.toArray i = tokens[i]?.map (·.kind) := by
  rw [kindAt?, List.getElem?_toArray]

/-- Where the marker for the end of the input stands. -/
theorem kindAt?_eq_endOfInput_iff (marked : EndMarked tokens) (i : Nat) :
    kindAt? tokens.toArray i = some .endOfInput ↔ i + 1 = tokens.length := by
  obtain ⟨front, last, rfl, isMarker, notMarker⟩ := marked
  rw [kindAt?_toArray, List.length_append, List.length_singleton]
  constructor
  · intro h
    -- Within the front no token is the marker, and behind the last one there is none.
    by_cases within : i < front.length
    · rw [List.getElem?_append_left within, List.getElem?_eq_getElem within, Option.map_some] at h
      exact absurd (Option.some.inj h) (notMarker _ (List.getElem_mem within))
    · by_cases last : i = front.length
      · omega
      · rw [List.getElem?_eq_none (by simp; omega)] at h
        cases h
  · intro h
    obtain rfl : i = front.length := by omega
    rw [List.getElem?_concat_length, Option.map_some, isMarker]

/-- There is always the marker. -/
theorem length_pos_of_endMarked (marked : EndMarked tokens) : 0 < tokens.length := by
  obtain ⟨front, last, rfl, -⟩ := marked
  simp

/-- The marker was taken exactly if everything was. -/
private theorem endTaken_iff (marked : EndMarked tokens) (i : Nat) :
    endTaken tokens.toArray i = true ↔ i = tokens.length := by
  have := length_pos_of_endMarked marked
  rw [endTaken, Bool.and_eq_true, decide_eq_true_eq, beq_iff_eq, kindAt?_eq_endOfInput_iff marked]
  omega

/-- On the tokens of a whole text, a violation is met within the declarations: where these have
    come to an end, the marker is there to be taken or was taken. -/
theorem Follows.of_program_error (marked : EndMarked tokens) {events : List Event}
    {error : SyntaxError} {k : Nat}
    (h : Follows tokens.toArray (.call .program) 0 events (.error error) k) :
    ∃ inside, events = .enter .program 0 :: inside ++ [.leave .program 0] ∧
      Follows tokens.toArray (.loop (.unlessAtEnd (.call .declaration))) 0 inside
        (.error error) k := by
  cases h with
  | call h =>
    cases h with
    | seqHalt hloop => exact ⟨_, rfl, hloop⟩
    | @seq _ _ _ j _ _ _ _ hloop hend =>
      obtain ⟨_, _, _, ended⟩ := follows_declarations_iff.mp ⟨_, hloop⟩
      cases hend with
      | notTaken last hend =>
        cases hend with
        | mismatch next =>
          rw [← Bool.not_eq_true, endTaken_iff marked] at last
          cases found : kindAt? tokens.toArray k with
          | some kind =>
            rw [atEnd_of_kindAt? found, beq_iff_eq] at ended
            rw [nextIs_of_kindAt? found, ended] at next
            cases next
          | none =>
            -- All tokens were taken, and so was the marker.
            have size_le := kindAt?_eq_none_iff.mp found
            have positive := length_pos_of_endMarked marked
            rw [List.size_toArray] at size_le
            have stop_le := hloop.stop_le (by omega)
            rw [List.size_toArray] at stop_le
            omega

/-- On the tokens of a whole text, the recognizer takes a program exactly if it takes all of them,
    and they are a program or declarations. -/
theorem follows_program_iff_of_endMarked (marked : EndMarked tokens) {j : Nat} :
    (∃ events, Follows tokens.toArray (.call .program) 0 events (.ok ()) j) ↔
      j = tokens.length ∧
        (Derives (.category .program) (tokens.map (·.kind)) ∨
          Derives (.many (.category .declaration)) (tokens.map (·.kind))) := by
  have spelledAll := spells_all tokens
  rw [follows_program_iff, derives_category_iff, Nonterminal.production, derives_seq_iff]
  constructor
  · intro h
    obtain ⟨word, k, spelled, derived, _, rest⟩ := h
    -- The marker was taken by the last declaration, or it was left for the program.
    rcases rest with ⟨last, rfl⟩ | ⟨_, next, rfl⟩
    · obtain rfl := (endTaken_iff marked j).mp last
      rw [← spelled.unique spelledAll]
      exact ⟨rfl, .inr derived⟩
    · have isLast := (kindAt?_eq_endOfInput_iff marked k).mp next
      rw [isLast]
      refine ⟨rfl, .inl ⟨word, [.endOfInput], ?_, derived, derives_single _⟩⟩
      rw [← isLast] at spelledAll
      exact spelledAll.unique (spelled.append (spells_singleton next))
  · intro h
    obtain ⟨isAll, derived⟩ := h
    subst isAll
    have last := (endTaken_iff marked tokens.length).mpr rfl
    rcases derived with ⟨word, more, split, derived, token⟩ | derived
    · obtain ⟨_, member, rfl⟩ := derives_token_iff.mp token
      rw [List.mem_singleton.mp member] at split
      rw [split] at spelledAll
      obtain ⟨k, spelled, marker⟩ := spells_append.mp spelledAll
      have isLast : tokens.length = k + 1 := marker.stop_eq
      refine ⟨word, k, spelled, derived, ?_, .inr ⟨?_, marker.1, isLast⟩⟩
      · rw [atEnd_of_kindAt? marker.1]
        rfl
      · rw [← Bool.not_eq_true, endTaken_iff marked, isLast]
        omega
    · refine ⟨_, _, spelledAll, derived, ?_, .inl ⟨last, rfl⟩⟩
      rw [atEnd, kindAt?_eq_none_iff.mpr (by simp)]
      rfl

/-- A word can stand in front of the marker in a whole text: it is made up of declarations, or it
    is when the last of them takes the marker. -/
def IsProgram (word : List Kind) : Prop :=
  Derives (.many (.category .declaration)) word ∨
    Derives (.many (.category .declaration)) (word ++ [.endOfInput])

/-- What the recognizer accepts, in terms of the tokens in front of the marker. -/
theorem recognize_concat_iff {front : List Token} {last : Token}
    (isMarker : last.kind = .endOfInput) (notMarker : ∀ token ∈ front, token.kind ≠ .endOfInput) :
    recognize (front ++ [last]) = .ok () ↔ IsProgram (front.map (·.kind)) := by
  have marked := endMarked_concat isMarker notMarker
  have kinds_eq : (front ++ [last]).map (·.kind) = front.map (·.kind) ++ [.endOfInput] := by
    rw [List.map_append, List.map_singleton, isMarker]
  -- A derivation of a program ends with the marker, which can be taken off and put back.
  have program_iff : Derives (.category .program) (front.map (·.kind) ++ [.endOfInput]) ↔
      Derives (.many (.category .declaration)) (front.map (·.kind)) := by
    constructor
    · intro h
      obtain ⟨word, more, split, derived, token⟩ := derives_seq_iff.mp (derives_category_iff.mp h)
      obtain ⟨_, -, rfl⟩ := derives_token_iff.mp token
      rw [(List.append_inj' split rfl).1]
      exact derived
    · intro derived
      exact .category (.seq derived (derives_single _))
  rw [IsProgram, ← program_iff, ← kinds_eq]
  constructor
  · intro h
    exact ((follows_program_iff_of_endMarked marked).mp (recognizeFrom_iff.mp ⟨h, rfl⟩)).2
  · intro derived
    have h := (follows_program_iff_of_endMarked marked).mpr ⟨rfl, derived⟩
    exact (recognizeFrom_iff.mpr h).1

/-- Declarations in front of a marker are taken for a program, also if they have markers in them.
    The marker behind them is left where it is if they end with one of their own. -/
theorem follows_program_of_declarations {front : List Token} {last : Token}
    (isMarker : last.kind = .endOfInput)
    (derived : Derives (.many (.category .declaration)) (front.map (·.kind))) :
    ∃ events, Follows (front ++ [last]).toArray (.call .program) 0 events (.ok ())
      (if (front.map (·.kind)).getLast? == some .endOfInput then front.length
        else front.length + 1) := by
  -- The declarations end where the last token stands, and it is left to see whether it is still
  -- needed.
  have all := spells_all (front ++ [last])
  rw [List.map_append, List.map_singleton, isMarker] at all
  obtain ⟨k, spelled, marker⟩ := spells_append.mp all
  obtain rfl : k = front.length := by simpa using spelled.stop_eq
  have ended : atEnd (front ++ [last]).toArray front.length = true := by
    rw [atEnd_of_kindAt? marker.1]
    rfl
  apply follows_program_iff.mpr
  refine ⟨_, _, spelled, derived, ended, ?_⟩
  rw [← spelled.endTaken_eq]
  cases taken : endTaken (front ++ [last]).toArray front.length with
  | true => exact .inl ⟨rfl, rfl⟩
  | false => exact .inr ⟨rfl, marker.1, rfl⟩

/-- The recognizer accepts the tokens of a whole text if they are a program by the grammar, or if
    they are declarations the last of which took the marker for the end of the input, and not
    otherwise.  If it does, then it has taken all of them. -/
theorem recognize_iff_derives (tokens : List Token) (marked : EndMarked tokens) :
    (recognize tokens = .ok () ↔
      Derives (.category .program) (tokens.map (·.kind)) ∨
        Derives (.many (.category .declaration)) (tokens.map (·.kind))) ∧
    (recognize tokens = .ok () →
      (recognizeFrom tokens.toArray .program 0).index = tokens.length) := by
  -- What comes of the recognizer is a matter of following the plan of a program.
  have accepted (h : recognize tokens = .ok ()) := (follows_program_iff_of_endMarked marked).mp
    (recognizeFrom_iff.mp ⟨h, rfl⟩)
  constructor
  · constructor
    · intro h
      exact (accepted h).2
    · intro derived
      have h := (follows_program_iff_of_endMarked marked).mpr ⟨rfl, derived⟩
      exact (recognizeFrom_iff.mpr h).1
  · intro h
    exact (accepted h).1

set_option maxRecDepth 4000 in
/-- In `if (a) if (b) print 1; else print 2`, either `if` could have the `else`, and the last
    `print` takes the marker. -/
theorem recognize_iff_derives_else :
    ∃ tokens : List Token, EndMarked tokens ∧ recognize tokens = .ok () ∧
      (recognizeFrom tokens.toArray .program 0).index = 15 ∧
      (Derives (.category .program) (tokens.map (·.kind)) ∨
        Derives (.many (.category .declaration)) (tokens.map (·.kind))) ∧
      tokens.map (·.kind) = [.kwIf, .leftParen, .identifier, .rightParen, .kwIf, .leftParen,
        .identifier, .rightParen, .kwPrint, .number, .semicolon, .kwElse, .kwPrint, .number,
        .endOfInput] := by
  have marked : EndMarked ([.kwIf, .leftParen, .identifier, .rightParen, .kwIf, .leftParen,
      .identifier, .rightParen, .kwPrint, .number, .semicolon, .kwElse, .kwPrint, .number,
      .endOfInput].map Token.ofKind) :=
    ⟨[.kwIf, .leftParen, .identifier, .rightParen, .kwIf, .leftParen, .identifier, .rightParen,
      .kwPrint, .number, .semicolon, .kwElse, .kwPrint, .number].map Token.ofKind,
      .ofKind .endOfInput, rfl, rfl, by decide⟩
  obtain ⟨correct, taken⟩ := recognize_iff_derives _ marked
  have accepted : recognize ([.kwIf, .leftParen, .identifier, .rightParen, .kwIf, .leftParen,
      .identifier, .rightParen, .kwPrint, .number, .semicolon, .kwElse, .kwPrint, .number,
      .endOfInput].map Token.ofKind) = .ok () := by
    cbv
  exact ⟨_, marked, accepted, taken accepted, correct.mp accepted, rfl⟩

end Recognizer

end LoxSyntax
