import LoxSyntax.Proofs.Check.Accepted
import LoxSyntax.Proofs.Lexical.Closers
import LoxSyntax.Proofs.Recognizer.Repair

/-! # The advice of rejections

Following the advice that comes with a rejection repairs the text (`check_help`): a semicolon that
is asked for is taken, and where a block is open, closing it is all that is missing. -/

namespace LoxSyntax

open Recognizer

/-! ## When the advice is given -/

namespace Rejection

/-- A semicolon is advised where it is asked for and the marker stands in its place. -/
private theorem of_help?_semicolon {rejection : Rejection}
    (h : rejection.help? = some "add ';' to terminate the statement") :
    ∃ expected found, rejection = .syntactic (.unexpectedToken expected found) ∧
      found.kind = .endOfInput ∧ .semicolon ∈ expected := by
  unfold help? at h
  split at h
  · simp at h
  · cases h
  · next expected found =>
    -- Of the three conditions, the marker must be found and a semicolon asked for.
    split_ifs at h with notEnd asked asked'
    · exact ⟨expected, found, rfl, by simpa using notEnd, asked⟩
    · simp at h
  · split_ifs at h
    simp at h
  · cases h

/-- To close a block is advised where a closing brace is asked for, and the marker stands in its
    place or has been taken. -/
private theorem of_help?_block {rejection : Rejection}
    (h : rejection.help? = some "a block is still open; close it with '\x7d'") :
    (∃ expected found, rejection = .syntactic (.unexpectedToken expected found) ∧
      found.kind = .endOfInput ∧ .rightBrace ∈ expected) ∨
    ∃ expected, rejection = .syntactic (.noTokenLeft expected) ∧ .rightBrace ∈ expected := by
  unfold help? at h
  split at h
  · simp at h
  · cases h
  · next expected found =>
    -- A brace is only advised where no semicolon would do.
    split_ifs at h with notEnd asked asked'
    · simp at h
    · exact .inl ⟨expected, found, rfl, by simpa using notEnd, asked'⟩
  · next expected =>
    split_ifs at h with asked
    exact .inr ⟨expected, rfl, asked⟩
  · cases h

end Rejection

/-! ## Following the advice -/

variable {source : String} {front : List Token} {last : Position}

/-- Some closing braces in a row. -/
def braces (n : Nat) : String := String.ofList (.replicate n '}')

/-- Closing braces behind a text are accepted if they make a program of its tokens. -/
private theorem check_append_braces {n : Nat}
    (h : tokenize source = .ok (front ++ [.endOfInput last]))
    (program : IsProgram (front.map (·.kind) ++ .replicate n .rightBrace)) :
    check (source ++ braces n) = .ok () := by
  -- Braces are closing signs, so each becomes a token and the tokens before stay as they are.
  have closing : ∀ sign ∈ List.replicate n ('}', Kind.rightBrace), sign ∈ Lexical.closers := by
    intro sign member
    rw [List.eq_of_mem_replicate member]
    decide
  obtain ⟨more, _, split, kinds_eq⟩ := tokenize_append_closers h _ closing
  rw [List.map_replicate] at split kinds_eq
  apply (check_eq_ok_iff_of_tokenize split).mpr
  rw [List.map_append, kinds_eq]
  exact program

/-- The advice that comes with a rejection is good.  A semicolon that is advised is taken: with it
    the text is accepted, or it is rejected for ending too early again.  If it is advised to close a
    block, then some closing braces behind the text make it accepted; if the marker was taken in
    place of a semicolon before, then the semicolon has to be put in front of them. -/
theorem check_help (source : String) (rejection : Rejection)
    (rejected : check source = .error rejection) :
    (rejection.help? = some "add ';' to terminate the statement" →
      check (source ++ ";") = .ok () ∨
        ∃ error found, check (source ++ ";") = .error (.syntactic error) ∧
          error.found? = some found ∧ found.kind = .endOfInput) ∧
    (rejection.help? = some "a block is still open; close it with '\x7d'" →
      (∃ expected found, rejection = .syntactic (.unexpectedToken expected found) ∧
        ∃ n ≥ 1, check (source ++ braces n) = .ok ()) ∨
      ∃ expected, rejection = .syntactic (.noTokenLeft expected) ∧
        ∃ n ≥ 1, check (source ++ ";" ++ braces n) = .ok ()) := by
  constructor
  · intro help
    obtain ⟨expected, found, rfl, isEnd, asked⟩ := Rejection.of_help?_semicolon help
    obtain ⟨front, _, split, failed⟩ := exists_of_check_eq_error rejected
    obtain ⟨semicolon, last', split', isSemicolon⟩ := tokenize_append_semicolon split
    have isMarker (position : Position) : (Token.endOfInput position).kind = .endOfInput := rfl
    rw [check_of_tokenize split']
    -- The semicolon is taken, and if anything is amiss then, it is at the marker again.
    rcases recognize_append_semicolon (isMarker _) (kind_ne_of_tokenize split) failed rfl isEnd
      asked isSemicolon (isMarker last') with accepted | ⟨error, failed', isFound⟩
    · rw [accepted]
      exact .inl rfl
    · rw [failed']
      exact .inr ⟨error, _, rfl, isFound, rfl⟩
  · intro help
    rcases Rejection.of_help?_block help with
      ⟨expected, found, rfl, isEnd, asked⟩ | ⟨expected, rfl, asked⟩
    · obtain ⟨front, _, split, failed⟩ := exists_of_check_eq_error rejected
      obtain ⟨n, program⟩ :=
        exists_braces_of_marker rfl (kind_ne_of_tokenize split) failed rfl isEnd asked
      exact .inl ⟨_, _, rfl, n + 1, by omega, check_append_braces split program⟩
    · obtain ⟨front, _, split, failed⟩ := exists_of_check_eq_error rejected
      obtain ⟨semicolon, _, split', isSemicolon⟩ := tokenize_append_semicolon split
      obtain ⟨n, program⟩ :=
        exists_braces_of_noTokenLeft rfl (kind_ne_of_tokenize split) failed rfl asked
      rw [← isSemicolon, ← List.map_singleton, ← List.map_append] at program
      exact .inr ⟨_, rfl, n + 1, by omega, check_append_braces split' program⟩

set_option maxRecDepth 4000 in
/-- In an open block that ends in `print 1`, the marker has been taken in place of a semicolon. -/
theorem check_help_block :
    check "\x7b print 1" = .error (.syntactic (.noTokenLeft [.rightBrace])) ∧
      ∃ n ≥ 1, check ("\x7b print 1" ++ ";" ++ braces n) = .ok () := by
  have rejected : check "\x7b print 1" = .error (.syntactic (.noTokenLeft [.rightBrace])) := by
    cbv
  rcases (check_help _ _ rejected).2 rfl with ⟨_, _, isOther, -⟩ | ⟨_, _, closed⟩
  · cases isOther
  · exact ⟨rejected, closed⟩

end LoxSyntax
