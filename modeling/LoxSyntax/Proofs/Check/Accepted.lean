import LoxSyntax.Check
import LoxSyntax.Proofs.Lexical.Lines
import LoxSyntax.Proofs.Recognizer.Program

/-! # Accepted texts

A text is accepted exactly if it splits into tokens and the kinds of these make up a program
(`check_eq_ok_iff`).  The text itself matters no further. -/

namespace LoxSyntax

open Lexical Recognizer

variable {source : String} {front : List Token} {last : Position}

/-- The tokens that are found on a walk are other than the marker. -/
theorem Lexical.Reads.kind_ne {p q : Place} {tokens : List Token} (h : Reads p tokens q) :
    ∀ token ∈ tokens, token.kind ≠ .endOfInput := by
  obtain ⟨pieces, _, layout, rfl⟩ := h.exists_layout
  exact List.forall_mem_map.mpr fun piece member => (layout.wellFormed piece member).kind_ne

/-- The tokens of a text are those that the scanner finds, and behind them the marker. -/
theorem exists_front_of_tokenize {tokens : List Token} (h : tokenize source = .ok tokens) :
    ∃ front last, tokens = front ++ [.endOfInput last] := by
  obtain ⟨front, _, last, _, rfl⟩ := tokenize_eq_ok_iff.mp h
  exact ⟨front, last, rfl⟩

/-- None of the tokens in front of the marker has its kind. -/
theorem kind_ne_of_tokenize (h : tokenize source = .ok (front ++ [.endOfInput last])) :
    ∀ token ∈ front, token.kind ≠ .endOfInput := by
  obtain ⟨found, _, _, reads, split⟩ := tokenize_eq_ok_iff.mp h
  rw [(List.append_inj' split rfl).1]
  exact reads.kind_ne

/-- The tokens that the scanner finds are those in front of the marker. -/
theorem scan_tokens_of_tokenize (h : tokenize source = .ok (front ++ [.endOfInput last])) :
    (scan source).tokens = front := by
  rw [tokenize_eq] at h
  cases outcome : (scan source).outcome with
  | error => rw [outcome] at h; cases h
  | ok =>
    rw [outcome] at h
    exact (List.append_inj' (Except.ok.inj h) rfl).1

/-- The tokens of a text end with the marker, which is the only one. -/
theorem endMarked_of_tokenize (h : tokenize source = .ok (front ++ [.endOfInput last])) :
    EndMarked (front ++ [.endOfInput last]) :=
  endMarked_concat rfl (kind_ne_of_tokenize h)

/-- A text that splits into tokens is accepted or rejected as these are. -/
theorem check_of_tokenize {tokens : List Token} (h : tokenize source = .ok tokens) :
    check source = (recognize tokens).mapError .syntactic := by
  rw [check, h]

/-- A text that splits into tokens is accepted if these are. -/
theorem check_eq_ok_iff_recognize {tokens : List Token} (h : tokenize source = .ok tokens) :
    check source = .ok () ↔ recognize tokens = .ok () := by
  rw [check_of_tokenize h]
  cases recognize tokens with
  | ok => simp [Except.mapError]
  | error => simp [Except.mapError]

/-- A text that splits into tokens is accepted if the kinds of these make up a program. -/
theorem check_eq_ok_iff_of_tokenize (h : tokenize source = .ok (front ++ [.endOfInput last])) :
    check source = .ok () ↔ IsProgram (front.map (·.kind)) := by
  have isMarker : (Token.endOfInput last).kind = .endOfInput := rfl
  rw [← recognize_concat_iff isMarker (kind_ne_of_tokenize h), check_eq_ok_iff_recognize h]

/-- An accepted text splits into tokens, and the kinds of these make up a program. -/
theorem check_eq_ok_iff : check source = .ok () ↔
    ∃ front last, tokenize source = .ok (front ++ [.endOfInput last]) ∧
      IsProgram (front.map (·.kind)) := by
  constructor
  · intro h
    cases split : tokenize source with
    | error => simp [check, split] at h
    | ok tokens =>
      obtain ⟨front, last, rfl⟩ := exists_front_of_tokenize split
      -- An accepted text has tokens, and the last of them is the marker.
      exact ⟨front, last, rfl, (check_eq_ok_iff_of_tokenize split).mp h⟩
  · intro h
    obtain ⟨front, last, split, program⟩ := h
    exact (check_eq_ok_iff_of_tokenize split).mpr program

/-- A text with a syntax error splits into tokens, and these are rejected with the error. -/
theorem exists_of_check_eq_error {error : SyntaxError}
    (h : check source = .error (.syntactic error)) :
    ∃ front last, tokenize source = .ok (front ++ [.endOfInput last]) ∧
      recognize (front ++ [.endOfInput last]) = .error error := by
  cases split : tokenize source with
  | error => simp [check, split] at h
  | ok tokens =>
    obtain ⟨front, last, rfl⟩ := exists_front_of_tokenize split
    refine ⟨front, last, rfl, ?_⟩
    rw [check_of_tokenize split] at h
    -- A violation of the grammar is only reported where there are tokens.
    cases outcome : recognize (front ++ [.endOfInput last]) with
    | ok => rw [outcome] at h; cases h
    | error found =>
      rw [outcome] at h
      rw [Rejection.syntactic.inj (Except.error.inj h)]

end LoxSyntax
