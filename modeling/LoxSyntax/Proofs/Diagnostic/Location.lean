import LoxSyntax.Diagnostic
import LoxSyntax.Proofs.Check.Accepted
import LoxSyntax.Proofs.Lexical.Errors
import LoxSyntax.Proofs.Recognizer.Errors
import LoxSyntax.Proofs.Text.Line

/-! # Where rejections point

A rejection points at a place in the source text: at a character that begins no token, at a token
that does not fit the grammar, or behind the last token, if the tokens are used up.  The end of the
last token is found by the scanner, which puts the marker there, and once more by trimming the text
(`endOfInput_position`).  `exists_pointsAt` says for every rejection what stands at its place. -/

namespace LoxSyntax

open Lexical

variable {text : String} {front : List Token} {last : Position} {pieces : List Piece}
  {rejection : Rejection} {source : Source}

/-! ## The end of the last token -/

namespace Lexical

/-- The last character of some pieces is the last one of a lexeme, and not blank. -/
private theorem exists_getLast?_joined (wellFormed : ∀ piece ∈ pieces, piece.WellFormed)
    (nonempty : pieces ≠ []) :
    ∃ init piece c, pieces = init ++ [piece] ∧ piece.token.lexeme.toList.getLast? = some c ∧
      (joined pieces).getLast? = some c ∧ Text.isBlank c = false := by
  obtain ⟨init, piece, rfl⟩ := (List.eq_nil_or_concat' pieces).resolve_left nonempty
  obtain ⟨c, isLast, notBlank⟩ := (wellFormed piece (by simp)).isLexeme.last
  refine ⟨init, piece, c, rfl, isLast, ?_, notBlank⟩
  simp [joined, Piece.text, List.getLast?_append, isLast]

/-- Pieces do not end with a blank. -/
private theorem isBlank_of_getLast?_joined (wellFormed : ∀ piece ∈ pieces, piece.WellFormed) :
    ∀ c ∈ (joined pieces).getLast?, Text.isBlank c = false := by
  intro c isLast
  by_cases empty : pieces = []
  · subst empty
    cases isLast
  · obtain ⟨_, _, d, _, _, isLast', notBlank⟩ := exists_getLast?_joined wellFormed empty
    obtain rfl : c = d := Option.some.inj (isLast.symm.trans isLast')
    exact notBlank

end Lexical

/-- A text that splits into tokens is laid out as pieces with these tokens, and the marker stands
    where the pieces end. -/
private theorem exists_pieces_of_tokenize (h : tokenize text = .ok (front ++ [.endOfInput last])) :
    ∃ pieces tail, text.toList = joined pieces ++ tail ∧ (∀ c ∈ tail, Text.isBlank c = true) ∧
      (∀ piece ∈ pieces, piece.WellFormed) ∧ Placed .start pieces ∧
      front = pieces.map (·.token) ∧ last = .endOf (String.ofList (joined pieces)) := by
  obtain ⟨found, here, lastEnd, reads, same⟩ := tokenize_eq_ok_iff.mp h
  obtain ⟨rfl, sameMarker⟩ := List.append_inj' same rfl
  obtain rfl : last = lastEnd := by simpa [Token.endOfInput] using sameMarker
  obtain ⟨pieces, tail, layout, rfl⟩ := reads.exists_layout
  have rest_eq : text.toList = joined pieces ++ (tail ++ []) := layout.rest_eq
  have last_eq : last = if pieces = [] then .start else Position.start.skip (joined pieces) :=
    layout.lastEnd_eq
  rw [List.append_nil] at rest_eq
  refine ⟨pieces, tail, rest_eq, layout.tail_blank, layout.wellFormed, layout.placed, rfl, ?_⟩
  rw [Position.endOf_eq_skip, String.toList_ofList, last_eq]
  -- Without any token, the marker stands at the start of the text.
  split
  · next none => simp [none, joined]
  · rfl

/-- Trimming a text that splits into tokens leaves it up to the end of its last token. -/
private theorem endOf_trimEnd_of_tokenize (h : tokenize text = .ok (front ++ [.endOfInput last])) :
    Position.endOf (Text.trimEnd text) = last := by
  obtain ⟨pieces, tail, split, blank, wellFormed, -, -, rfl⟩ := exists_pieces_of_tokenize h
  rw [← String.ofList_toList (s := text), split,
    Text.trimEnd_append (isBlank_of_getLast?_joined wellFormed) blank]

/-- The end of the input is where the text ends when trailing blanks are left out.  So a rejection
    that has no token to point at, since all of them were used up, is located where one that finds
    the marker is. -/
theorem endOfInput_position (source : Source) (tokens : List Token)
    (h : tokenize source.text = .ok tokens) :
    (∃ marker ∈ tokens, marker.kind = .endOfInput) ∧
    ∀ marker ∈ tokens, marker.kind = .endOfInput →
      marker.position = .endOf (Text.trimEnd source.text) ∧
      ∀ expected error, error.found? = some marker → (Rejection.syntactic error).position? =
        some (source.locate (.syntactic (.noTokenLeft expected))) := by
  obtain ⟨front, last, rfl⟩ := exists_front_of_tokenize h
  constructor
  · exact ⟨.endOfInput last, by simp, rfl⟩
  · intro marker member isMarker
    have notMarker := kind_ne_of_tokenize h
    -- No other token has the kind of the marker.
    obtain rfl : marker = .endOfInput last := by
      rcases List.mem_append.mp member with inFront | isLast
      · exact absurd isMarker (notMarker marker inFront)
      · exact List.mem_singleton.mp isLast
    have position_eq := endOf_trimEnd_of_tokenize h
    refine ⟨position_eq.symm, fun expected error isFound => ?_⟩
    show error.found?.map (·.position) = some (Position.endOf (Text.trimEnd source.text))
    rw [isFound, position_eq]
    rfl

/-- The blanks behind the statement do not count, and those in the string do. -/
theorem endOfInput_position_string :
    tokenize "print\n\"a b \"\u3000\r\n\n" = .ok [⟨.kwPrint, "print", ⟨1, 0⟩⟩,
      ⟨.string, "\"a b \"", ⟨2, 0⟩⟩, .endOfInput ⟨2, 6⟩] ∧
    ⟨2, 6⟩ = Position.endOf (Text.trimEnd "print\n\"a b \"\u3000\r\n\n") := by
  have accepted : tokenize "print\n\"a b \"\u3000\r\n\n" = .ok [⟨.kwPrint, "print", ⟨1, 0⟩⟩,
      ⟨.string, "\"a b \"", ⟨2, 0⟩⟩, .endOfInput ⟨2, 6⟩] := by
    cbv
  obtain ⟨-, position⟩ := endOfInput_position ⟨"<stdin>", _⟩ _ accepted
  exact ⟨accepted, (position (.endOfInput ⟨2, 6⟩) (by simp) rfl).1⟩

/-! ## The places of rejections -/

namespace Rejection

/-- Whether a rejection comes at the end of the input: it finds the marker, or no token at all. -/
def isAtEnd : Rejection → Bool
  | lexical _ => false
  | syntactic error => error.found?.all (·.kind == .endOfInput)

/-- What a rejection points at: a character, or the lexeme of a token. -/
def pointed : Rejection → List Char
  | lexical (.strayCharacter char _) => [char]
  | lexical (.unclosedString _) => ['"']
  | syntactic error => (error.found?.map (·.lexeme.toList)).getD []

end Rejection

/-- A rejection points at what stands between two parts of a text. -/
structure PointsAt (source : Source) (rejection : Rejection) (before behind : List Char) :
    Prop where
  text_eq : source.text.toList = before ++ (rejection.pointed ++ behind)
  locate_eq : source.locate rejection = .endOf (String.ofList before)
  one_line : '\n' ∉ rejection.pointed
  last : ∃ c, (before ++ rejection.pointed).getLast? = some c ∧ Text.isBlank c = false

/-- The end of the input is behind the last token. -/
structure IsEnd (source : Source) (place : Position) (before behind : List Char) : Prop where
  behind_blank : ∀ c ∈ behind, Text.isBlank c = true
  exists_last : ∃ token c, (scan source.text).tokens.getLast? = some token ∧
    token.lexeme.toList.getLast? = some c ∧ before.getLast? = some c ∧
    token.position.shift token.lexeme.toList.length = place

/-- A lexical error points at the character that begins no token. -/
private theorem pointed_errorAt (c : Char) (position : Position) :
    (Rejection.lexical (errorAt c position)).pointed = [c] := by
  unfold errorAt
  split
  · next quote => rw [quote]; rfl
  · rfl

/-- A text that does not split into tokens has a character without a token at the place of the
    error. -/
private theorem exists_pointsAt_of_lexical {error : LexicalError}
    (h : tokenize source.text = .error error) :
    ∃ before behind, PointsAt source (.lexical error) before behind := by
  obtain ⟨⟨rest, here, lastEnd⟩, reads, stuck, outcome⟩ := exists_reads_scan source.text
  rw [tokenize_eq, outcome] at h
  cases rest with
  | nil => cases h
  | cons c rest =>
    obtain rfl : errorAt c here = error := Except.error.inj h
    obtain ⟨notBlank, -⟩ := stuck c rfl
    obtain ⟨pieces, tail, layout, -⟩ := reads.exists_layout
    have text_eq : source.text.toList = joined pieces ++ (tail ++ c :: rest) := layout.rest_eq
    -- What stands in front of the character are the lexemes of tokens, and blanks.
    have here_eq : here = .endOf (String.ofList (joined pieces ++ tail)) := by
      rw [Position.endOf_eq_skip, String.toList_ofList]
      exact layout.here_eq
    have notNewline : '\n' ≠ c := by
      rintro rfl
      cases notBlank.symm.trans Text.isBlank_newline
    refine ⟨joined pieces ++ tail, rest, ?_, ?_, ?_, c, ?_, notBlank⟩
    · rw [text_eq, pointed_errorAt, List.append_assoc]
      rfl
    · rw [← here_eq]
      show (errorAt c here).position = here
      exact position_errorAt c here
    · simpa [pointed_errorAt] using notNewline
    · simp [pointed_errorAt]

/-- The text of a rejection with a lexical error does not split into tokens. -/
private theorem tokenize_eq_error_of_check {error : LexicalError}
    (h : check text = .error (.lexical error)) : tokenize text = .error error := by
  cases split : tokenize text with
  | error => simpa [check, split] using h
  | ok tokens =>
    rw [check_of_tokenize split] at h
    cases outcome : recognize tokens <;> rw [outcome] at h <;> cases h

/-- The token that an error tells of is one of those that were read. -/
private theorem mem_of_found? {tokens : List Token} {error : SyntaxError} {found : Token}
    (h : recognize tokens = .error error) (isFound : error.found? = some found) :
    found ∈ tokens := by
  obtain ⟨_, follows⟩ := Recognizer.recognizeFrom_iff.mp ⟨h, rfl⟩
  rw [follows.found?_eq, List.getElem?_toArray] at isFound
  exact List.mem_of_getElem? isFound

/-- An error has found a token in front of the marker, or it comes at the end of the input. -/
private theorem exists_found_or_isAtEnd {error : SyntaxError}
    (h : tokenize source.text = .ok (front ++ [.endOfInput last]))
    (failed : recognize (front ++ [.endOfInput last]) = .error error) :
    (∃ found ∈ front, error.found? = some found ∧ (Rejection.syntactic error).isAtEnd = false) ∨
    ((Rejection.syntactic error).isAtEnd = true ∧ (Rejection.syntactic error).pointed = [] ∧
      source.locate (.syntactic error) = last) := by
  cases isFound : error.found? with
  | none =>
    have located : source.locate (.syntactic error) = last := by
      rw [← endOf_trimEnd_of_tokenize h]
      simp [Source.locate, Rejection.position?, isFound]
    exact .inr ⟨by simp [Rejection.isAtEnd, isFound], by simp [Rejection.pointed, isFound], located⟩
  | some found =>
    -- The token that was found stands in front of the marker, or is the marker.
    rcases List.mem_append.mp (mem_of_found? failed isFound) with inFront | isMarker
    · have notMarker := kind_ne_of_tokenize h found inFront
      exact .inl ⟨found, inFront, rfl, by simp [Rejection.isAtEnd, isFound, notMarker]⟩
    · obtain rfl : found = .endOfInput last := List.mem_singleton.mp isMarker
      right
      simp [Rejection.isAtEnd, Rejection.pointed, Source.locate, Rejection.position?, isFound,
        Token.endOfInput]

/-- A rejection that has found a token of the text points at its lexeme. -/
private theorem exists_pointsAt_of_mem {error : SyntaxError} {found : Token}
    (h : tokenize source.text = .ok (front ++ [.endOfInput last]))
    (isFound : error.found? = some found) (member : found ∈ front) :
    (Rejection.syntactic error).pointed ≠ [] ∧
      ∃ before behind, PointsAt source (.syntactic error) before behind := by
  obtain ⟨pieces, tail, split, -, wellFormed, placed, rfl, -⟩ := exists_pieces_of_tokenize h
  obtain ⟨piece, inPieces, rfl⟩ := List.mem_map.mp member
  obtain ⟨init, after, rfl⟩ := List.append_of_mem inPieces
  have isLexeme := (wellFormed piece inPieces).isLexeme
  -- The place is that of the token, so what is pointed at is its lexeme.
  have pointed_eq : (Rejection.syntactic error).pointed = piece.token.lexeme.toList := by
    rw [Rejection.pointed, isFound]
    rfl
  obtain ⟨c, isLast, notBlank⟩ := isLexeme.last
  refine ⟨?_, joined init ++ piece.gap, joined after ++ tail, ?_, ?_, ?_, c, ?_, notBlank⟩
  · rw [pointed_eq]
    intro empty
    rw [empty] at isLast
    cases isLast
  · rw [split, pointed_eq]
    simp [joined, Piece.text]
  · rw [Position.endOf_eq_skip, String.toList_ofList, ← position_of_placed placed]
    show (error.found?.map (·.position)).getD _ = _
    rw [isFound]
    rfl
  · rw [pointed_eq]
    exact isLexeme.one_line
  · rw [pointed_eq, List.getLast?_append, isLast]
    rfl

/-- A text that is rejected has a token: without one, it is an empty program. -/
private theorem front_ne_nil_of_check (h : tokenize source.text = .ok (front ++ [.endOfInput last]))
    (rejected : check source.text = .error rejection) : front ≠ [] := by
  rintro rfl
  have accepted := (check_eq_ok_iff_of_tokenize h).mpr (.inl .manyNil)
  cases accepted.symm.trans rejected

/-- A rejection at the end of the input points behind the last token. -/
private theorem exists_pointsAt_of_end {error : SyntaxError}
    (h : tokenize source.text = .ok (front ++ [.endOfInput last])) (nonempty : front ≠ [])
    (pointed_eq : (Rejection.syntactic error).pointed = [])
    (located : source.locate (.syntactic error) = last) :
    ∃ before behind, PointsAt source (.syntactic error) before behind ∧
      IsEnd source last before behind := by
  have scan_eq := scan_tokens_of_tokenize h
  obtain ⟨pieces, tail, split, blank, wellFormed, placed, rfl, rfl⟩ := exists_pieces_of_tokenize h
  obtain ⟨init, piece, c, rfl, isLast, isLast', notBlank⟩ :=
    exists_getLast?_joined wellFormed (by simpa using nonempty)
  refine ⟨_, tail, ⟨?_, located, ?_, c, ?_, notBlank⟩, blank, piece.token, c, ?_, isLast, isLast',
    ?_⟩
  · rw [split, pointed_eq]
    rfl
  · simp [pointed_eq]
  · rw [pointed_eq, List.append_nil, isLast']
  · rw [scan_eq]
    simp
  · -- The lexeme of the last token takes the walk from its position to the end.
    rw [position_of_placed placed,
      ← Position.skip_eq_shift (wellFormed piece (by simp)).isLexeme.one_line,
      ← Position.skip_append, Position.endOf_eq_skip, String.toList_ofList]
    simp [joined, Piece.text]

/-- Every rejection points at something, which is not empty, or at the end of the input. -/
theorem exists_pointsAt (rejected : check source.text = .error rejection) :
    ∃ before behind, PointsAt source rejection before behind ∧
      (rejection.isAtEnd = false → rejection.pointed ≠ []) ∧
      (rejection.isAtEnd = true → rejection.pointed = [] ∧
        IsEnd source (source.locate rejection) before behind) := by
  cases rejection with
  | lexical error =>
    obtain ⟨before, behind, pointsAt⟩ :=
      exists_pointsAt_of_lexical (tokenize_eq_error_of_check rejected)
    have pointed_ne : (Rejection.lexical error).pointed ≠ [] := by
      cases error <;> simp [Rejection.pointed]
    exact ⟨before, behind, pointsAt, fun _ => pointed_ne, fun atEnd => by cases atEnd⟩
  | syntactic error =>
    obtain ⟨front, last, split, failed⟩ := exists_of_check_eq_error rejected
    -- A violation of the grammar is met at a token, or at the end of the input.
    rcases exists_found_or_isAtEnd split failed with
      ⟨found, inFront, isFound, notEnd⟩ | ⟨atEnd, pointed_eq, located⟩
    · obtain ⟨pointed_ne, before, behind, pointsAt⟩ := exists_pointsAt_of_mem split isFound inFront
      refine ⟨before, behind, pointsAt, fun _ => pointed_ne, fun atEnd => ?_⟩
      cases notEnd.symm.trans atEnd
    · obtain ⟨before, behind, pointsAt, isEnd⟩ := exists_pointsAt_of_end split
        (front_ne_nil_of_check split rejected) pointed_eq located
      refine ⟨before, behind, pointsAt, fun notEnd => ?_, fun _ => ⟨pointed_eq, located ▸ isEnd⟩⟩
      cases notEnd.symm.trans atEnd

end LoxSyntax
