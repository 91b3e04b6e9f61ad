import LoxSyntax.Proofs.Lexical.Reads

/-! # Layouts

A text that splits into tokens is made up of the lexemes of the tokens, in order, and of blanks
before, between and behind them.  The scanner counts lines and columns as it goes, and comes to the
positions that are found by looking at the text in front of each token.  `tokenize_layout` says so
of a whole text: no character is lost, and no position is off. -/

namespace LoxSyntax.Lexical

open Text

/-- A token, and the blanks between it and the token before. -/
structure Piece where
  gap : List Char
  token : Token

namespace Piece

/-- The characters of a piece: the gap and then the lexeme. -/
def text (piece : Piece) : List Char := piece.gap ++ piece.token.lexeme.toList

/-- A piece as the scanner finds them, apart from the position. -/
structure WellFormed (piece : Piece) : Prop where
  gap_blank : ∀ c ∈ piece.gap, isBlank c = true
  isLexeme : IsLexeme piece.token.lexeme.toList
  kind_ne : piece.token.kind ≠ .endOfInput

end Piece

/-- The characters of some pieces. -/
def joined (pieces : List Piece) : List Char := pieces.flatMap Piece.text

/-- The tokens of some pieces have the positions at which their lexemes begin, if the first piece
    begins at a given position. -/
def Placed (here : Position) : List Piece → Prop
  | [] => True
  | piece :: rest => piece.token.position = here.skip piece.gap ∧ Placed (here.skip piece.text) rest

/-- What was read between two places is laid out as some pieces and a run of blanks behind them. -/
structure Layout (p : Place) (pieces : List Piece) (tail : List Char) (q : Place) : Prop where
  rest_eq : p.rest = joined pieces ++ (tail ++ q.rest)
  tail_blank : ∀ c ∈ tail, isBlank c = true
  wellFormed : ∀ piece ∈ pieces, piece.WellFormed
  placed : Placed p.here pieces
  here_eq : q.here = p.here.skip (joined pieces ++ tail)
  lastEnd_eq : q.lastEnd = if pieces = [] then p.lastEnd else p.here.skip (joined pieces)

variable {pieces : List Piece} {tail rest lexeme : List Char} {here lastEnd : Position}
  {kind : Kind} {tokens : List Token} {p q : Place}

/-- The first piece stands in front of the others. -/
theorem joined_cons (piece : Piece) (pieces : List Piece) :
    joined (piece :: pieces) = piece.text ++ joined pieces := List.flatMap_cons

/-! ## Layouts of what was read -/

/-- A walk that goes nowhere has no pieces. -/
private theorem Layout.nil (p : Place) : Layout p [] [] p where
  rest_eq := rfl
  tail_blank _ member := absurd member List.not_mem_nil
  wellFormed _ member := absurd member List.not_mem_nil
  placed := trivial
  here_eq := rfl
  lastEnd_eq := rfl

/-- A blank belongs to the first gap, or to the end if there are no tokens. -/
private theorem Layout.blank {c : Char} (h : isBlank c = true)
    (layout : Layout ⟨rest, here.advance c, lastEnd⟩ pieces tail q) :
    ∃ pieces' tail', Layout ⟨c :: rest, here, lastEnd⟩ pieces' tail' q ∧
      pieces'.map (·.token) = pieces.map (·.token) := by
  have rest_eq : rest = joined pieces ++ (tail ++ q.rest) := layout.rest_eq
  cases pieces with
  | nil =>
    refine ⟨[], c :: tail, ?_, rfl⟩
    exact {
      rest_eq := congrArg (c :: ·) rest_eq
      tail_blank := List.forall_mem_cons.mpr ⟨h, layout.tail_blank⟩
      wellFormed := layout.wellFormed
      placed := trivial
      here_eq := layout.here_eq
      lastEnd_eq := layout.lastEnd_eq }
  | cons piece pieces =>
    -- The gap of the first piece grows, and its token stays where it is.
    refine ⟨⟨c :: piece.gap, piece.token⟩ :: pieces, tail, ?_, rfl⟩
    obtain ⟨wellFormed, others⟩ := List.forall_mem_cons.mp layout.wellFormed
    have extended : Piece.WellFormed ⟨c :: piece.gap, piece.token⟩ :=
      { wellFormed with gap_blank := List.forall_mem_cons.mpr ⟨h, wellFormed.gap_blank⟩ }
    exact {
      rest_eq := congrArg (c :: ·) rest_eq
      tail_blank := layout.tail_blank
      wellFormed := List.forall_mem_cons.mpr ⟨extended, others⟩
      placed := layout.placed
      here_eq := layout.here_eq
      lastEnd_eq := layout.lastEnd_eq }

/-- A token begins a piece without a gap. -/
private theorem Layout.token (h : firstMatch? (lexeme ++ rest) = some (kind, lexeme.length))
    (layout : Layout ⟨rest, here.shift lexeme.length, here.shift lexeme.length⟩ pieces tail q) :
    Layout ⟨lexeme ++ rest, here, lastEnd⟩ (⟨[], kind, String.ofList lexeme, here⟩ :: pieces) tail
      q := by
  obtain ⟨isLexeme, kind_ne⟩ := isLexeme_of_match h
  -- A lexeme lies on one line, so shifting by its length is walking over it.
  have walked := Position.skip_eq_shift isLexeme.one_line here
  have wellFormed : Piece.WellFormed ⟨[], kind, String.ofList lexeme, here⟩ :=
    { gap_blank := fun _ member => absurd member List.not_mem_nil
      isLexeme := by rw [String.toList_ofList]; exact isLexeme
      kind_ne := kind_ne }
  have text_eq : Piece.text ⟨[], kind, String.ofList lexeme, here⟩ = lexeme := by
    rw [Piece.text, String.toList_ofList, List.nil_append]
  have rest_eq : rest = joined pieces ++ (tail ++ q.rest) := layout.rest_eq
  have here_eq : q.here = (here.shift lexeme.length).skip (joined pieces ++ tail) := layout.here_eq
  have placed : Placed (here.shift lexeme.length) pieces := layout.placed
  -- If this is the last token, then its end is the end of the last token.
  have lastEnd_eq : q.lastEnd = (here.shift lexeme.length).skip (joined pieces) := by
    rw [layout.lastEnd_eq]
    split
    · next none =>
      rw [none]
      rfl
    · rfl
  rw [← walked] at here_eq placed lastEnd_eq
  refine ⟨?_, layout.tail_blank, List.forall_mem_cons.mpr ⟨wellFormed, layout.wellFormed⟩, ?_, ?_,
    ?_⟩
  · rw [joined_cons, text_eq, List.append_assoc, ← rest_eq]
  · exact ⟨rfl, by rw [text_eq]; exact placed⟩
  · rw [joined_cons, text_eq, List.append_assoc, Position.skip_append]
    exact here_eq
  · rw [if_neg (List.cons_ne_nil _ _), joined_cons, text_eq, Position.skip_append]
    exact lastEnd_eq

/-- What was read is laid out as pieces with the tokens that were found. -/
theorem Reads.exists_layout (h : Reads p tokens q) :
    ∃ pieces tail, Layout p pieces tail q ∧ pieces.map (·.token) = tokens := by
  induction h with
  | done => exact ⟨[], [], .nil _, rfl⟩
  | blank isBlank _ ih =>
    obtain ⟨pieces, tail, layout, rfl⟩ := ih
    -- A blank goes to the gap of the next piece, or to the tail if there is none.
    obtain ⟨pieces', tail', layout', same⟩ := layout.blank isBlank
    exact ⟨pieces', tail', layout', same⟩
  | token starts _ ih =>
    obtain ⟨pieces, tail, layout, rfl⟩ := ih
    exact ⟨_, tail, layout.token starts, rfl⟩

/-! ## Positions in a layout -/

/-- A walk comes to the position where the text in front of it ends. -/
theorem Reads.here_eq (h : Reads p tokens q) {front : List Char}
    (split : p.rest = front ++ q.rest) :
    q.here = p.here.skip front := by
  obtain ⟨pieces, tail, layout, -⟩ := h.exists_layout
  have same := layout.rest_eq
  rw [split, ← List.append_assoc] at same
  rw [layout.here_eq, List.append_cancel_right same]

/-- Each token stands where the text in front of it ends. -/
theorem position_of_placed {before after : List Piece} {piece : Piece}
    (h : Placed here (before ++ piece :: after)) :
    piece.token.position = here.skip (joined before ++ piece.gap) := by
  induction before generalizing here with
  | nil => exact h.1
  | cons other before ih =>
    rw [ih h.2, joined_cons, List.append_assoc, Position.skip_append here]

end LoxSyntax.Lexical

namespace LoxSyntax

open Lexical

/-- A text that splits into tokens is made up of their lexemes and of blanks around these.  Each
    token has the position where the text in front of it ends, and the marker for the end of the
    input the one where the text up to the last token ends. -/
theorem tokenize_layout (text : String) (tokens : List Token) (h : tokenize text = .ok tokens) :
    ∃ pieces tail,
      text.toList = joined pieces ++ tail ∧
      (∀ c ∈ tail, Text.isBlank c = true) ∧
      (∀ piece ∈ pieces, piece.WellFormed) ∧
      (∀ before piece after, pieces = before ++ piece :: after →
        piece.token.position = .endOf (String.ofList (joined before ++ piece.gap))) ∧
      tokens = pieces.map (·.token) ++ [.endOfInput (.endOf (String.ofList (joined pieces)))] ∧
      (pieces = [] → tokens = [.endOfInput ⟨1, 0⟩]) := by
  obtain ⟨found, here, lastEnd, reads, rfl⟩ := tokenize_eq_ok_iff.mp h
  obtain ⟨pieces, tail, layout, rfl⟩ := reads.exists_layout
  have rest_eq : text.toList = joined pieces ++ (tail ++ []) := layout.rest_eq
  rw [List.append_nil] at rest_eq
  -- The marker stands behind the last piece, and at the start if there is none.
  have lastEnd_eq : lastEnd = Position.endOf (String.ofList (joined pieces)) := by
    rw [Position.endOf_eq_skip, String.toList_ofList, show lastEnd = _ from layout.lastEnd_eq]
    split
    · next none =>
      rw [none]
      rfl
    · rfl
  refine ⟨pieces, tail, rest_eq, layout.tail_blank, layout.wellFormed, ?_, by rw [lastEnd_eq], ?_⟩
  · intro before piece after split
    -- Walking over the pieces in front counts as looking back at them does.
    have placed : Placed .start pieces := layout.placed
    rw [split] at placed
    rw [position_of_placed placed, Position.endOf_eq_skip, String.toList_ofList]
  · intro none
    rw [lastEnd_eq, none]
    rfl

/-- A text of two lines with a string that is longer in bytes than in characters. -/
theorem tokenize_layout_lines :
    tokenize "x =\n \"é\";\r\n" = .ok [⟨.identifier, "x", ⟨1, 0⟩⟩, ⟨.equal, "=", ⟨1, 2⟩⟩,
      ⟨.string, "\"é\"", ⟨2, 1⟩⟩, ⟨.semicolon, ";", ⟨2, 4⟩⟩, .endOfInput ⟨2, 5⟩] ∧
    ∃ pieces tail,
      "x =\n \"é\";\r\n".toList = joined pieces ++ tail ∧
      (∀ c ∈ tail, Text.isBlank c = true) ∧
      (∀ piece ∈ pieces, piece.WellFormed) ∧
      (∀ before piece after, pieces = before ++ piece :: after →
        piece.token.position = .endOf (String.ofList (joined before ++ piece.gap))) := by
  have accepted : tokenize "x =\n \"é\";\r\n" = .ok [⟨.identifier, "x", ⟨1, 0⟩⟩,
      ⟨.equal, "=", ⟨1, 2⟩⟩, ⟨.string, "\"é\"", ⟨2, 1⟩⟩, ⟨.semicolon, ";", ⟨2, 4⟩⟩,
      .endOfInput ⟨2, 5⟩] := by
    cbv
  obtain ⟨pieces, tail, text, blank, wellFormed, positions, _⟩ := tokenize_layout _ _ accepted
  exact ⟨accepted, pieces, tail, text, blank, wellFormed, positions⟩

end LoxSyntax
