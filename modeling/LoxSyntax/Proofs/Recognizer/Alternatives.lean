import LoxSyntax.Proofs.Recognizer.Repair

/-! # What can stand in place of a violation

An error tells which kinds of tokens were asked for, and it asks for none in vain: with any of these
kinds in place of the token that was found, the tokens before it go on to a program
(`asked_possible`).  The marker for the end of the input cannot be followed by more of a text, so it
is a case of its own: with the marker there, the text is complete, or all that is missing is to be
put behind it (`Begins.recognize_marker`). -/

namespace LoxSyntax.Recognizer

variable {tokens : List Token} {k : Nat}

/-- If the marker can come next in declarations, then the tokens with the marker there are accepted,
    or there are too few of them. -/
theorem Begins.recognize_marker
    (h : Begins tokens.toArray (.many (.category .declaration)) 0 k .endOfInput) (last : Token)
    (isMarker : last.kind = .endOfInput) :
    recognize (tokens.take k ++ [last]) = .ok () ∨
      ∃ expected, recognize (tokens.take k ++ [last]) = .error (.noTokenLeft expected) := by
  obtain ⟨word, rest, spelled, -, derived⟩ := h
  -- The declarations go on behind this marker, and a second marker ends them.
  have derived : Derives (.many (.category .declaration))
      ((tokens.take k ++ last :: rest.map Token.ofKind).map (·.kind)) := by
    rw [List.map_append, List.map_cons, spelled.take_eq, isMarker, map_kind_ofKind]
    exact derived
  obtain ⟨_, h⟩ := follows_program_of_declarations isMarker derived
  have accepted :
      recognize (tokens.take k ++ [last] ++ (rest.map Token.ofKind ++ [last])) = .ok () := by
    simpa [recognize] using (recognizeFrom_iff.mpr ⟨_, h⟩).1
  exact recognize_of_accepted accepted

/-- Where the tokens of a whole text are rejected, every kind that is asked for can stand in place
    of the token that was found, and if an expression is missing, then every kind that a primary
    expression begins with.  If the marker is asked for, then a text that ends there is rejected at
    most for what is missing behind the marker. -/
theorem asked_possible (tokens : List Token) (error : SyntaxError) (k : Nat)
    (marked : EndMarked tokens) (rejected : recognize tokens = .error error)
    (stopped : (recognizeFrom tokens.toArray .program 0).index = k) :
    (∀ expected found, error = .unexpectedToken expected found →
      (∀ kind ∈ expected, kind ≠ .endOfInput → CanFollow tokens k kind) ∧
      (.endOfInput ∈ expected → ∀ last : Token, last.kind = .endOfInput →
        recognize (tokens.take k ++ [last]) = .ok () ∨
          ∃ expected', recognize (tokens.take k ++ [last]) = .error (.noTokenLeft expected'))) ∧
    (∀ found, error = .noExpression found →
      ∀ kind ∈ Kind.primaryStarts, CanFollow tokens k kind) := by
  obtain ⟨_, h⟩ := recognizeFrom_iff.mp ⟨rejected, stopped⟩
  -- A token was found, so it stands within the text, and any other kind that was asked for can be
  -- put in its place.
  have canFollow {found : Token} (isFound : error.found? = some found) {kind : Kind}
      (asked : kind ∈ error.asked) (notEnd : kind ≠ .endOfInput) : CanFollow tokens k kind := by
    have foundAt := h.found?_eq.symm.trans isFound
    rw [List.getElem?_toArray] at foundAt
    have within := (List.getElem?_eq_some_iff.mp foundAt).1
    exact ((h.begins_declarations isFound).2 kind asked).canFollow marked within notEnd
  constructor
  · intro expected found isUnexpected
    subst isUnexpected
    constructor
    · intro kind asked notEnd
      exact canFollow rfl asked notEnd
    · intro asked
      exact ((h.begins_declarations rfl).2 _ asked).recognize_marker
  · intro found isMissing kind asked
    subst isMissing
    -- The marker begins no expression.
    have notEnd : kind ≠ .endOfInput := by
      intro isEnd
      subst isEnd
      exact absurd asked (by decide)
    exact canFollow rfl asked notEnd

/-- In `{ print 1 )`, a semicolon could stand in place of the parenthesis.  So could the end of the
    text, as far as the `print` goes, but then the brace is missing. -/
theorem asked_possible_print :
    ∃ tokens : List Token, EndMarked tokens ∧
      tokens.map (·.kind) = [.leftBrace, .kwPrint, .number, .rightParen, .endOfInput] ∧
      recognize tokens =
        .error (.unexpectedToken [.semicolon, .endOfInput] (.ofKind .rightParen)) ∧
      (recognizeFrom tokens.toArray .program 0).index = 3 ∧
      CanFollow tokens 3 .semicolon ∧
      ∀ last : Token, last.kind = .endOfInput →
        recognize (tokens.take 3 ++ [last]) = .ok () ∨
          ∃ expected, recognize (tokens.take 3 ++ [last]) = .error (.noTokenLeft expected) := by
  have marked : EndMarked
      ([.leftBrace, .kwPrint, .number, .rightParen, .endOfInput].map .ofKind) :=
    ⟨[_, _, _, _], _, rfl, rfl, by decide⟩
  have rejected : recognize
      ([.leftBrace, .kwPrint, .number, .rightParen, .endOfInput].map .ofKind) =
      .error (.unexpectedToken [.semicolon, .endOfInput] (.ofKind .rightParen)) := by
    cbv
  have stopped : (recognizeFrom ([.leftBrace, .kwPrint, .number, .rightParen,
      .endOfInput].map .ofKind).toArray .program 0).index = 3 := by
    cbv
  obtain ⟨possible, ends⟩ := (asked_possible _ _ 3 marked rejected stopped).1 _ _ rfl
  exact ⟨_, marked, rfl, rejected, stopped, possible .semicolon (by decide) (by decide),
    ends (by decide)⟩

end LoxSyntax.Recognizer
