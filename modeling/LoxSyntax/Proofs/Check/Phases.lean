import LoxSyntax.Proofs.Check.Accepted
import LoxSyntax.Proofs.Recognizer.Catalogue

/-! # Two phases

A text is split into tokens as a whole before the first of them is compared with the grammar.  So a
character that begins no token is reported before any violation of the grammar, also before one to
the left of it (`lexical_error_first`).  The tokens in front of such a character can always go on to
a program, or one of them is a violation that is met whatever comes behind it
(`completable_iff_not_violatesAt`). -/

namespace LoxSyntax

/-- Some tokens begin a program: with further ones behind them, the marker for the end of the input
    not being among these, and the marker at the end they are accepted. -/
def Completable (front : List Token) : Prop :=
  ∃ rest : List Token, (∀ token ∈ rest, token.kind ≠ .endOfInput) ∧
    ∀ last : Token, last.kind = .endOfInput → recognize (front ++ rest ++ [last]) = .ok ()

/-- The token at an index violates the grammar: whatever begins with the tokens up to it is rejected
    with the same error, which tells of that token. -/
def ViolatesAt (front : List Token) (k : Nat) (error : SyntaxError) : Prop :=
  ∃ found, front[k]? = some found ∧ error.found? = some found ∧
    ∀ other, front.take (k + 1) <+: other → recognize other = .error error

namespace Recognizer

variable {tokens front : List Token} {last : Token} {k : Nat} {events : List Event}
  {error : SyntaxError}

/-- A violation that is met in front of the marker is one of the tokens there. -/
private theorem Follows.violatesAt
    (h : Follows (front ++ [last]).toArray (.call .program) 0 events (.error error) k)
    (within : k < front.length) : ViolatesAt front k error := by
  have found := h.found?_eq
  rw [List.getElem?_toArray, List.getElem?_append_left within, List.getElem?_eq_getElem within]
    at found
  refine ⟨_, List.getElem?_eq_getElem within, found, fun other begins => ?_⟩
  apply h.recognize_eq_of_prefix (by simp; omega)
  rw [List.take_append_of_le_length within]
  exact begins

/-- If the tokens can go on to a word of a program, then there are tokens with which they do. -/
private theorem completable_of_isProgram {rest : List Kind}
    (notMarker : ∀ token ∈ front, token.kind ≠ .endOfInput) (notEnd : .endOfInput ∉ rest)
    (program : IsProgram (front.map (·.kind) ++ rest)) : Completable front := by
  have notEndRest : ∀ token ∈ rest.map Token.ofKind, token.kind ≠ .endOfInput := by
    intro token member isEnd
    obtain ⟨kind, isRest, rfl⟩ := List.mem_map.mp member
    exact notEnd (isEnd ▸ isRest)
  refine ⟨_, notEndRest, fun last isMarker => ?_⟩
  rw [recognize_concat_iff isMarker (List.forall_mem_append.mpr ⟨notMarker, notEndRest⟩),
    List.map_append, map_kind_ofKind]
  exact program

/-- If a violation is met at the marker or behind it, then what stands in front of the marker can be
    completed. -/
private theorem Follows.completable (isMarker : last.kind = .endOfInput)
    (notMarker : ∀ token ∈ front, token.kind ≠ .endOfInput)
    (h : Follows (front ++ [last]).toArray (.call .program) 0 events (.error error) k)
    (behind : front.length ≤ k) : Completable front := by
  have marked := endMarked_concat isMarker notMarker
  have rejected := (recognizeFrom_iff.mpr ⟨_, h⟩).1
  cases isFound : error.found? with
  | none =>
    -- The marker was taken in place of a semicolon, and a closing brace is missing behind it.
    obtain rfl : error = .noTokenLeft [.rightBrace] := by
      rcases error_of_recognize isMarker notMarker rejected with
        ⟨_, rfl⟩ | rfl | ⟨_, _, rfl, -⟩ <;> first | rfl | cases isFound
    obtain ⟨n, program⟩ := exists_braces_of_noTokenLeft isMarker notMarker rejected rfl
      (List.mem_singleton_self Kind.rightBrace)
    rw [List.append_assoc] at program
    exact completable_of_isProgram notMarker (by simp) program
  | some found =>
    -- The marker stands where any of the kinds that were asked for could stand.
    have foundAt := h.found?_eq
    rw [isFound, List.getElem?_toArray] at foundAt
    have within := (List.getElem?_eq_some_iff.mp foundAt.symm).1
    obtain rfl : k = front.length := by
      rw [List.length_append, List.length_singleton] at within
      omega
    obtain ⟨⟨kind, asked, notEnd⟩, begins⟩ := h.begins_declarations isFound
    obtain ⟨rest, notEndRest, accepted⟩ := (begins kind asked).canFollow marked (by simp) notEnd
    rw [List.take_left] at accepted
    refine ⟨.ofKind kind :: rest, List.forall_mem_cons.mpr ⟨notEnd, notEndRest⟩, ?_⟩
    exact fun last' isMarker' => accepted _ last' rfl isMarker'

end Recognizer

open Recognizer

/-- Tokens without the marker can be completed to a program exactly if none of them violates the
    grammar. -/
theorem completable_iff_not_violatesAt {front : List Token}
    (notMarker : ∀ token ∈ front, token.kind ≠ .endOfInput) :
    Completable front ↔ ¬∃ k error, ViolatesAt front k error := by
  have isMarker : (Token.ofKind .endOfInput).kind = .endOfInput := rfl
  constructor
  · intro completable violates
    obtain ⟨rest, -, accepted⟩ := completable
    obtain ⟨k, error, _, _, _, rejected⟩ := violates
    have begins : front.take (k + 1) <+: front ++ rest ++ [.ofKind .endOfInput] := by
      rw [List.append_assoc]
      exact (List.take_prefix _ _).trans (List.prefix_append _ _)
    cases (accepted _ isMarker).symm.trans (rejected _ begins)
  · intro none
    -- The tokens with the marker behind them are a program, or they are rejected at a token of
    -- theirs or at the marker.
    cases outcome : recognize (front ++ [.ofKind .endOfInput]) with
    | ok =>
      have program := (recognize_concat_iff isMarker notMarker).mp outcome
      rw [← List.append_nil (front.map (·.kind))] at program
      exact completable_of_isProgram notMarker List.not_mem_nil program
    | error error =>
      obtain ⟨_, h⟩ := recognizeFrom_iff.mp ⟨outcome, rfl⟩
      by_contra incomplete
      refine none ⟨_, error, h.violatesAt ?_⟩
      -- An error at the marker or behind it could be repaired.
      by_contra behind
      exact incomplete (h.completable isMarker notMarker (Nat.le_of_not_lt behind))

/-- A text with a character that begins no token is rejected for that character alone.  The tokens
    in front of it can be completed to a program, unless one of them violates the grammar already,
    which then is not reported. -/
theorem lexical_error_first (source : String) (error : LexicalError)
    (rejected : check source = .error (.lexical error)) :
    tokenize source = .error error ∧
      (Completable (Lexical.scan source).tokens ↔
        ¬∃ k violation, ViolatesAt (Lexical.scan source).tokens k violation) := by
  obtain ⟨_, reads, -, -⟩ := Lexical.exists_reads_scan source
  refine ⟨?_, completable_iff_not_violatesAt reads.kind_ne⟩
  cases split : tokenize source with
  | error => simpa [check, split] using rejected
  | ok tokens =>
    -- Once there are tokens, only the grammar can be violated.
    rw [check_of_tokenize split] at rejected
    cases outcome : recognize tokens <;> rw [outcome] at rejected <;> cases rejected

set_option maxRecDepth 4000 in
/-- In `var a = 1;` and `var b = $;` on the next line, nothing is wrong in front of the `$`. -/
theorem lexical_error_first_value :
    check "var a = 1;\nvar b = $;" = .error (.lexical (.strayCharacter '$' ⟨2, 8⟩)) ∧
      tokenize "var a = 1;\nvar b = $;" = .error (.strayCharacter '$' ⟨2, 8⟩) ∧
      ¬∃ k violation,
        ViolatesAt (Lexical.scan "var a = 1;\nvar b = $;").tokens k violation := by
  have rejected :
      check "var a = 1;\nvar b = $;" = .error (.lexical (.strayCharacter '$' ⟨2, 8⟩)) := by
    cbv
  have kinds : (Lexical.scan "var a = 1;\nvar b = $;").tokens.map (·.kind) =
      [.kwVar, .identifier, .equal, .number, .semicolon, .kwVar, .identifier, .equal] := by
    cbv
  obtain ⟨split, completable_iff⟩ := lexical_error_first _ _ rejected
  obtain ⟨_, reads, -, -⟩ := Lexical.exists_reads_scan "var a = 1;\nvar b = $;"
  have accepted : recognize ([.kwVar, .identifier, .equal, .number, .semicolon, .kwVar, .identifier,
      .equal, .number, .semicolon].map Token.ofKind ++ [.ofKind .endOfInput]) = .ok () := by
    cbv
  have program : IsProgram ((Lexical.scan "var a = 1;\nvar b = $;").tokens.map (·.kind) ++
      [.number, .semicolon]) := by
    rw [kinds]
    exact (recognize_concat_iff rfl (by decide)).mp accepted
  exact ⟨rejected, split, completable_iff.mp
    (completable_of_isProgram reads.kind_ne (by decide) program)⟩

set_option maxRecDepth 4000 in
/-- In `;$`, nothing can be put behind the semicolon to make a program, and yet what is reported is
    the `$` to the right of it. -/
theorem violation_not_reported :
    check ";$" = .error (.lexical (.strayCharacter '$' ⟨1, 1⟩)) ∧
      (Lexical.scan ";$").tokens = [⟨.semicolon, ";", ⟨1, 0⟩⟩] ∧
      ¬∃ rest last, (∀ token ∈ rest, token.kind ≠ .endOfInput) ∧ last.kind = .endOfInput ∧
        recognize ((Lexical.scan ";$").tokens ++ rest ++ [last]) = .ok () := by
  have tokens_eq : (Lexical.scan ";$").tokens = [⟨.semicolon, ";", ⟨1, 0⟩⟩] := by
    cbv
  refine ⟨by cbv, tokens_eq, ?_⟩
  rintro ⟨rest, last, -, -, accepted⟩
  have rejected : recognize [⟨.semicolon, ";", ⟨1, 0⟩⟩, .ofKind .endOfInput] =
      .error (.noExpression ⟨.semicolon, ";", ⟨1, 0⟩⟩) := by
    cbv
  obtain ⟨_, h⟩ := recognizeFrom_iff.mp ⟨rejected, rfl⟩
  rw [tokens_eq, List.append_assoc] at accepted
  cases accepted.symm.trans (h.recognize_eq_of_prefix (by cbv) ⟨rest ++ [last], by cbv⟩)

end LoxSyntax
