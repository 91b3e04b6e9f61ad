import LoxSyntax.Proofs.Lexical.Boundary
import LoxSyntax.Proofs.Lexical.Layout

/-! # Texts of several parts

A text can be split into tokens line by line.  No token reaches over the end of a line, so a walk
over the first part of a text goes on in the same way when a newline and a second part stand behind
it (`keepsTokens_newline`), and the walk over the second part is the one over this part alone, some
lines further down (`Reads.down`).  `tokenize_lines` says what this comes to for the tokens and the
errors of the whole text. -/

namespace LoxSyntax

namespace Position

/-- The position in the same column some lines further down. -/
def down (p : Position) (lines : Nat) : Position := ⟨p.line + lines, p.column⟩

/-- Moving a position down some lines and over a character can be done in either order. -/
private theorem advance_down (p : Position) (lines : Nat) (c : Char) :
    (p.down lines).advance c = (p.advance c).down lines := by
  unfold advance
  split
  · simp [down, Nat.add_right_comm]
  · rfl

/-- A newline leads to the start of a text that is moved down by the lines so far. -/
private theorem advance_newline (p : Position) : p.advance '\n' = start.down p.line := by
  rw [advance, if_pos rfl, Nat.add_comm]
  rfl

end Position

/-- The token some lines further down. -/
def Token.down (token : Token) (lines : Nat) : Token :=
  { token with position := token.position.down lines }

/-- The error some lines further down. -/
def LexicalError.down : LexicalError → Nat → LexicalError
  | strayCharacter char position, lines => strayCharacter char (position.down lines)
  | unclosedString position, lines => unclosedString (position.down lines)

namespace Lexical

open Text

variable {rest more : List Char} {c : Char} {tokens : List Token} {p q : Place}

/-! ## The first part -/

/-- A newline changes no token, whatever stands behind it. -/
theorem keepsTokens_newline (more : List Char) : KeepsTokens ('\n' :: more) :=
  fun _ _ starts => firstMatch?_append_newline.trans starts

/-- A newline behind a text does not help a walk that can go no further within the text. -/
private theorem Stuck.append_newline (h : Stuck (c :: rest)) (more : List Char) :
    Stuck (c :: rest ++ '\n' :: more) := by
  intro d isHead
  obtain ⟨notBlank, starts⟩ := h c rfl
  obtain rfl : c = d := Option.some.inj isHead
  exact ⟨notBlank, firstMatch?_append_newline.trans starts⟩

/-- A walk over all of a text comes down by the newlines of the text. -/
private theorem Reads.line_eq (h : Reads p tokens q) (all : q.rest = []) :
    q.here.line = p.here.line + p.rest.count '\n' := by
  have split : p.rest = p.rest ++ q.rest := by rw [all, List.append_nil]
  rw [h.here_eq split, Position.line_skip]

/-! ## The second part -/

/-- A walk is the same some lines further down. -/
theorem Reads.down (h : Reads p tokens q) (lines : Nat) :
    Reads ⟨p.rest, p.here.down lines, p.lastEnd.down lines⟩ (tokens.map (·.down lines))
      ⟨q.rest, q.here.down lines, q.lastEnd.down lines⟩ := by
  induction h with
  | done => exact .done
  | blank isBlank _ ih =>
    rw [← Position.advance_down] at ih
    exact .blank isBlank ih
  | token starts _ ih => exact .token starts ih

/-- Where the last token before a walk ended matters only to a walk without tokens. -/
private theorem Reads.replace_lastEnd (h : Reads p tokens q) (lastEnd : Position) :
    Reads ⟨p.rest, p.here, lastEnd⟩ tokens
      ⟨q.rest, q.here, if tokens = [] then lastEnd else q.lastEnd⟩ := by
  induction h with
  | done => exact .done
  | blank isBlank _ ih => exact .blank isBlank ih
  | token starts later _ =>
    rw [if_neg (List.cons_ne_nil _ _)]
    exact .token starts later

/-! ## Both parts -/

/-- A walk over all of the first part goes on with the walk over the second part. -/
private theorem Reads.next_line {first second : List Char} {here lastEnd : Position}
    {found : List Token} (h : Reads ⟨first, .start, .start⟩ found ⟨[], here, lastEnd⟩)
    (h' : Reads ⟨second, .start, .start⟩ tokens q) :
    Reads ⟨first ++ '\n' :: second, .start, .start⟩
      (found ++ tokens.map (·.down (1 + first.count '\n')))
      ⟨q.rest, q.here.down (1 + first.count '\n'),
        if tokens = [] then lastEnd else q.lastEnd.down (1 + first.count '\n')⟩ := by
  have line_eq : here.line = 1 + first.count '\n' := h.line_eq rfl
  -- The second walk starts behind the last token of the first part, not at the start of a text.
  have later := (h'.down (1 + first.count '\n')).replace_lastEnd lastEnd
  simp only [List.map_eq_nil_iff] at later
  refine (h.append_text (keepsTokens_newline second)).append (.blank isBlank_newline ?_)
  rw [Position.advance_newline, line_eq]
  exact later

/-- An error some lines further down is the same error there. -/
private theorem errorAt_down (c : Char) (position : Position) (lines : Nat) :
    errorAt c (position.down lines) = (errorAt c position).down lines := by
  unfold errorAt
  split
  · rfl
  · rfl

/-- The tokens of two parts of a text as the tokens of the whole, if the second part is so many
    lines further down.  If the second part has no tokens, then the first part has the last one. -/
def joinLines (lines : Nat) (front back : List Token) : List Token :=
  if back.length = 1 then front else front.dropLast ++ back.map (·.down lines)

/-- The marker for the end of the input stands behind the last token of the whole text. -/
private theorem joinLines_endOfInput (lines : Nat) (front back : List Token)
    (last last' : Position) :
    joinLines lines (front ++ [.endOfInput last]) (back ++ [.endOfInput last']) =
      front ++ back.map (·.down lines) ++
        [.endOfInput (if back = [] then last else last'.down lines)] := by
  unfold joinLines
  cases back with
  | nil => simp
  | cons token back =>
    -- The marker of the front goes, as there are tokens behind it.
    rw [if_neg (by simp), if_neg (List.cons_ne_nil _ _), List.dropLast_concat, List.map_append,
      List.append_assoc]
    rfl

end Lexical

open Lexical

/-- The tokens of two parts that both split into tokens. -/
theorem tokenize_append_line {a b : String} {front back : List Token} {last last' : Position}
    (h : tokenize a = .ok (front ++ [.endOfInput last]))
    (h' : tokenize b = .ok (back ++ [.endOfInput last'])) :
    ∃ lines last'', tokenize (a ++ "\n" ++ b) =
      .ok (front ++ back.map (·.down lines) ++ [.endOfInput last'']) := by
  obtain ⟨found, _, _, reads, split⟩ := tokenize_eq_ok_iff.mp h
  obtain ⟨found', _, _, reads', split'⟩ := tokenize_eq_ok_iff.mp h'
  obtain rfl : front = found := (List.append_inj' split rfl).1
  obtain rfl : back = found' := (List.append_inj' split' rfl).1
  -- The walk over the second part starts where the newline leaves off.
  have walk := reads.next_line reads'
  rw [show a.toList ++ '\n' :: b.toList = (a ++ "\n" ++ b).toList by simp] at walk
  exact ⟨_, _, tokenize_eq_ok_iff.mpr ⟨_, _, _, walk, rfl⟩⟩

/-- A text that consists of a first part, a newline and a second part is split into tokens part by
    part.  An error in the first part comes first; what is found in the second part is found as many
    lines further down as the first part has. -/
theorem tokenize_lines (a b : String) :
    tokenize (a ++ "\n" ++ b) =
      match tokenize a, tokenize b with
      | .error error, _ => .error error
      | .ok _, .error error => .error (error.down (1 + a.toList.count '\n'))
      | .ok front, .ok back => .ok (joinLines (1 + a.toList.count '\n') front back) := by
  obtain ⟨⟨rest, here, lastEnd⟩, front, stuck, outcome⟩ := exists_reads_scan a
  obtain ⟨⟨rest', here', lastEnd'⟩, back, stuck', outcome'⟩ := exists_reads_scan b
  have text_eq : (a ++ "\n" ++ b).toList = a.toList ++ '\n' :: b.toList := by simp
  rw [tokenize_eq (a ++ "\n" ++ b), tokenize_eq a, tokenize_eq b, outcome, outcome']
  cases rest with
  | cons c rest =>
    -- The walk over the whole text stops in the first part.
    have walk := front.append_text (keepsTokens_newline b.toList)
    rw [← text_eq] at walk
    rw [scan_of_reads walk (stuck.append_newline b.toList)]
    rfl
  | nil =>
    -- The walk over the whole text stops where the one over the second part does.
    have walk := front.next_line back
    rw [← text_eq] at walk
    rw [scan_of_reads walk stuck']
    cases rest' with
    | cons c rest' => exact congrArg Except.error (errorAt_down c here' _)
    | nil => exact congrArg Except.ok (joinLines_endOfInput _ _ _ lastEnd lastEnd').symm

/-- A blank second part leaves the end of the text where the first part ends. -/
example : tokenize "a\n\n \n" = tokenize "a" := by cbv

end LoxSyntax
