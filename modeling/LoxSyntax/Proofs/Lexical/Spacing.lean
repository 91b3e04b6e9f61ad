import LoxSyntax.Proofs.Lexical.Layout
import LoxSyntax.Proofs.Lexical.Lookahead

/-! # Spacing

The blanks around the lexemes of a text are free.  A kind and a lexeme are *whole* if the lexeme, as
a text of its own, is one token of the kind from end to end.  Whole lexemes that are written down
with blanks between them are read back as they were, whichever blanks these are (`reads_joined`),
and all lexemes that the scanner finds are whole (`Reads.isWhole`).  `tokenize_spacing` draws the
two together: the blanks of a text that splits into tokens can be chosen anew without a change to
the kinds and the lexemes of its tokens. -/

namespace LoxSyntax

/-- A token apart from where it stands. -/
def Token.word (token : Token) : Kind × String := (token.kind, token.lexeme)

namespace Lexical

open Text

/-- A lexeme is a token of a kind from end to end. -/
def IsWhole (word : Kind × String) : Prop :=
  matchStart? word.2 = some (word.1, word.2.utf8ByteSize)

/-- Pieces and a tail that are told apart by blanks: only the first piece and the tail may do
    without any. -/
structure Separated (pieces : List Piece) (tail : List Char) : Prop where
  gap_blank : ∀ piece ∈ pieces, ∀ c ∈ piece.gap, isBlank c = true
  tail_blank : ∀ c ∈ tail, isBlank c = true
  gap_ne_nil : ∀ piece ∈ pieces.tail, piece.gap ≠ []

variable {piece : Piece} {pieces : List Piece} {tail gap rest : List Char} {here lastEnd : Position}
  {kind : Kind} {lexeme : String} {tokens : List Token} {p q : Place}

/-! ## Whole lexemes -/

/-- Counting in bytes and counting in characters agree on whole lexemes. -/
private theorem isWhole_iff : IsWhole (kind, lexeme) ↔
    firstMatch? lexeme.toList = some (kind, lexeme.toList.length) := by
  have := @matchStart?_append_iff lexeme "" kind
  rw [String.append_empty, String.toList_empty, List.append_nil] at this
  exact this

/-- Every token that is found on a walk is whole. -/
theorem Reads.isWhole (h : Reads p tokens q) : ∀ token ∈ tokens, IsWhole token.word := by
  induction h with
  | done => exact fun _ member => absurd member List.not_mem_nil
  | blank _ _ ih => exact ih
  | token starts _ ih =>
    refine List.forall_mem_cons.mpr ⟨isWhole_iff.mpr ?_, ih⟩
    -- A lexeme that is found in front of a rest is also found in front of nothing.
    have alone := firstMatch?_append_congr starts (.of_isPrefix List.nil_prefix)
    rw [List.append_nil] at alone
    rw [String.toList_ofList]
    exact alone

/-! ## Spaced lexemes -/

/-- A walk passes over blanks. -/
theorem Reads.blanks (blank : ∀ c ∈ gap, isBlank c = true)
    (later : Reads ⟨rest, here.skip gap, lastEnd⟩ tokens q) :
    Reads ⟨gap ++ rest, here, lastEnd⟩ tokens q := by
  induction gap generalizing here with
  | nil => exact later
  | cons c gap ih =>
    obtain ⟨first, others⟩ := List.forall_mem_cons.mp blank
    exact .blank first (ih others later)

/-- Lexemes that are set apart stay so without the first of them. -/
private theorem Separated.of_cons (h : Separated (piece :: pieces) tail) :
    Separated pieces tail where
  gap_blank other member := h.gap_blank other (List.mem_cons_of_mem piece member)
  tail_blank := h.tail_blank
  gap_ne_nil other member := h.gap_ne_nil other (List.mem_of_mem_tail member)

/-- Behind each piece the text ends or goes on with a blank. -/
private theorem Separated.breaks (h : Separated (piece :: pieces) tail) :
    Breaks (joined pieces ++ tail) := by
  intro c isHead
  -- The next character is one of the tail, or it belongs to the gap of the next piece, which has
  -- one.
  cases pieces with
  | nil => exact h.tail_blank c (List.mem_of_mem_head? isHead)
  | cons next pieces =>
    cases gap : next.gap with
    | nil => exact absurd gap (h.gap_ne_nil next List.mem_cons_self)
    | cons d gap' =>
      rw [joined_cons, Piece.text, gap] at isHead
      obtain rfl : d = c := Option.some.inj isHead
      exact h.gap_blank next (by simp) d (by simp [gap])

/-- Whole lexemes that are told apart by blanks are read back. -/
theorem reads_joined (h : Separated pieces tail)
    (whole : ∀ piece ∈ pieces, IsWhole piece.token.word) (here lastEnd : Position) :
    ∃ tokens here' lastEnd',
      Reads ⟨joined pieces ++ tail, here, lastEnd⟩ tokens ⟨[], here', lastEnd'⟩ ∧
        tokens.map Token.word = pieces.map (·.token.word) := by
  induction pieces generalizing here lastEnd with
  | nil =>
    have reads : Reads ⟨tail ++ [], here, lastEnd⟩ [] ⟨[], here.skip tail, lastEnd⟩ :=
      .blanks h.tail_blank .done
    rw [List.append_nil] at reads
    exact ⟨[], _, _, reads, rfl⟩
  | cons piece pieces ih =>
    obtain ⟨first, others⟩ := List.forall_mem_cons.mp whole
    -- The blank behind the lexeme, or the end of the text, leaves it as it is.
    have starts := firstMatch?_append_of_breaks h.breaks (isWhole_iff.mp first)
    obtain ⟨tokens, here', lastEnd', later, same⟩ := ih h.of_cons others
      ((here.skip piece.gap).shift piece.token.lexeme.toList.length)
      ((here.skip piece.gap).shift piece.token.lexeme.toList.length)
    have reads : Reads ⟨piece.gap ++ (piece.token.lexeme.toList ++ (joined pieces ++ tail)), here,
        lastEnd⟩ _ _ := .blanks (h.gap_blank piece List.mem_cons_self) (.token starts later)
    rw [← List.append_assoc, ← List.append_assoc, ← Piece.text, ← joined_cons] at reads
    refine ⟨_, here', lastEnd', reads, ?_⟩
    rw [List.map_cons, List.map_cons, same, Token.word, String.ofList_toList]
    rfl

/-- Whole lexemes with blanks between them are what the text that they make up splits into. -/
private theorem tokenize_of_separated (h : Separated pieces tail)
    (whole : ∀ piece ∈ pieces, IsWhole piece.token.word) :
    ∃ tokens, tokenize (String.ofList (joined pieces ++ tail)) = .ok tokens ∧
      tokens.map Token.word = pieces.map (·.token.word) ++ [(.endOfInput, "")] := by
  obtain ⟨tokens, here, lastEnd, reads, same⟩ := reads_joined h whole .start .start
  rw [← String.toList_ofList (l := joined pieces ++ tail)] at reads
  refine ⟨_, tokenize_eq_ok_iff.mpr ⟨tokens, here, lastEnd, reads, rfl⟩, ?_⟩
  rw [List.map_append, same]
  rfl

end Lexical

open Lexical

/-- Whole lexemes with blanks between them are what the text that they make up splits into.  All
    lexemes of a text are whole, so a text that splits into tokens can be spaced anew without a
    change to the kinds and the lexemes of its tokens. -/
theorem tokenize_spacing :
    (∀ (pieces : List Piece) (tail : List Char), Separated pieces tail →
      (∀ piece ∈ pieces, IsWhole piece.token.word) →
      ∃ tokens, tokenize (String.ofList (joined pieces ++ tail)) = .ok tokens ∧
        tokens.map Token.word = pieces.map (·.token.word) ++ [(.endOfInput, "")]) ∧
    (∀ text : String, ∀ token ∈ (scan text).tokens, IsWhole token.word) ∧
    ∀ (text : String) (tokens : List Token), tokenize text = .ok tokens →
      tokens.dropLast = (scan text).tokens ∧
      ∀ (pieces : List Piece) (tail : List Char), Separated pieces tail →
        pieces.map (·.token.word) = tokens.dropLast.map Token.word →
        ∃ respaced, tokenize (String.ofList (joined pieces ++ tail)) = .ok respaced ∧
          respaced.map Token.word = tokens.map Token.word := by
  have whole (text : String) : ∀ token ∈ (scan text).tokens, IsWhole token.word := by
    obtain ⟨_, reads, _⟩ := exists_reads_scan text
    exact reads.isWhole
  refine ⟨fun _ _ => tokenize_of_separated, whole, fun text tokens split => ?_⟩
  rw [tokenize_eq] at split
  cases outcome : (scan text).outcome with
  | error =>
    rw [outcome] at split
    cases split
  | ok last =>
    rw [outcome] at split
    obtain rfl := Except.ok.inj split
    refine ⟨List.dropLast_concat, fun pieces tail separated same => ?_⟩
    rw [List.dropLast_concat] at same
    -- The pieces have the lexemes that were found, and these are whole.
    have wholePieces : ∀ word ∈ pieces.map (·.token.word), IsWhole word := by
      rw [same]
      exact List.forall_mem_map.mpr (whole text)
    obtain ⟨respaced, split, words⟩ :=
      tokenize_of_separated separated (List.forall_mem_map.mp wholePieces)
    refine ⟨respaced, split, ?_⟩
    rw [words, same, List.map_append]
    rfl

/-- The numbers and the sign of `1.5.2` can be set apart by any blanks, but for ones inside the
    first number. -/
theorem tokenize_spacing_number :
    tokenize "1.5.2" = .ok [⟨.number, "1.5", ⟨1, 0⟩⟩, ⟨.dot, ".", ⟨1, 3⟩⟩,
      ⟨.number, "2", ⟨1, 4⟩⟩, .endOfInput ⟨1, 5⟩] ∧
    IsWhole (.number, "1.5") ∧ IsWhole (.dot, ".") ∧ IsWhole (.number, "2") ∧
    (∃ tokens, tokenize "1.5 .\u00a0\n2\t" = .ok tokens ∧ tokens.map Token.word =
      [(.number, "1.5"), (.dot, "."), (.number, "2"), (.endOfInput, "")]) ∧
    ∃ respaced, tokenize "1.5 .\u00a0\n2\t" = .ok respaced ∧ respaced.map Token.word =
      [(.number, "1.5"), (.dot, "."), (.number, "2"), (.endOfInput, "")] := by
  have split : tokenize "1.5.2" = .ok [⟨.number, "1.5", ⟨1, 0⟩⟩, ⟨.dot, ".", ⟨1, 3⟩⟩,
      ⟨.number, "2", ⟨1, 4⟩⟩, .endOfInput ⟨1, 5⟩] := by
    cbv
  have blank : Text.isBlank ' ' = true ∧ Text.isBlank '\u00a0' = true ∧ Text.isBlank '\n' = true ∧
      Text.isBlank '\t' = true := by
    decide
  have separated : Separated [⟨[], .number, "1.5", .start⟩, ⟨[' '], .dot, ".", .start⟩,
      ⟨['\u00a0', '\n'], .number, "2", .start⟩] ['\t'] :=
    ⟨by simp [blank], by simp [blank], by simp⟩
  have first : IsWhole (.number, "1.5") := isWhole_iff.mpr (by decide)
  have sign : IsWhole (.dot, ".") := isWhole_iff.mpr (by decide)
  have second : IsWhole (.number, "2") := isWhole_iff.mpr (by decide)
  have spaced := tokenize_spacing.1 _ _ separated (by simp [Token.word, first, sign, second])
  have respaced := (tokenize_spacing.2.2 _ _ split).2 _ _ separated rfl
  exact ⟨split, first, sign, second, spaced, respaced⟩

end LoxSyntax
