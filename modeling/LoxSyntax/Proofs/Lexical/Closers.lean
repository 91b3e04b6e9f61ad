import LoxSyntax.Proofs.Lexical.Boundary
import LoxSyntax.Proofs.Lexical.Reads

/-! # Closing signs behind a text

A semicolon or a closing brace can be written directly behind a text that splits into tokens.  No
lexeme goes on with either sign, so the tokens of the text stay as they are (`keepsTokens_closer`),
and the sign becomes a token of its own.  `tokenize_append_closers` says this of any row of such
signs. -/

namespace LoxSyntax.Lexical

variable {rest : List Char} {c : Char} {kind : Kind}

/-- The signs that end a statement and a block, and their kinds. -/
def closers : List (Char × Kind) := [(';', .semicolon), ('}', .rightBrace)]

/-- A text begins with the same token when a closing sign stands behind it. -/
theorem keepsTokens_closer (h : (c, kind) ∈ closers) : KeepsTokens (c :: rest) := by
  have notReached : ∀ closer ∈ closers, ∀ row ∈ table,
      row.pattern = .string ∨ row.pattern.reaches closer.1 = false := by
    decide +kernel
  -- That is checked on the table: no row but the one of strings goes on with such a sign.
  intro text found starts
  apply firstMatch?_append_of_reaches _ starts
  intro row member
  simpa using notReached (c, kind) h row member

/-- A closing sign is a token, whatever stands behind it. -/
private theorem firstMatch?_closer (h : (c, kind) ∈ closers) :
    firstMatch? (c :: rest) = some (kind, 1) := by
  simp only [closers, List.mem_cons, Prod.mk.injEq, List.not_mem_nil, or_false] at h
  rcases h with ⟨rfl, rfl⟩ | ⟨rfl, rfl⟩
  · rfl
  · rfl

end LoxSyntax.Lexical

namespace LoxSyntax

open Lexical

/-- A closing sign behind a text is a token behind those of the text. -/
private theorem tokenize_append_closer {text : String} {front : List Token} {last : Position}
    {c : Char} {kind : Kind} (h : tokenize text = .ok (front ++ [.endOfInput last]))
    (closer : (c, kind) ∈ closers) :
    ∃ token last', tokenize (text ++ String.singleton c) =
      .ok (front ++ [token] ++ [.endOfInput last']) ∧ token.kind = kind := by
  obtain ⟨found, here, lastEnd, reads, split⟩ := tokenize_eq_ok_iff.mp h
  obtain rfl : front = found := (List.append_inj' split rfl).1
  have sign : Reads ⟨[c] ++ [], here, lastEnd⟩ [⟨kind, String.ofList [c], here⟩]
      ⟨[], here.shift 1, here.shift 1⟩ := .token (firstMatch?_closer closer) .done
  -- The walk over the text goes on with the sign behind it.
  have walk : Reads ⟨text.toList ++ [c], .start, .start⟩ _ _ :=
    (reads.append_text (keepsTokens_closer closer)).append sign
  have text_eq : (text ++ String.singleton c).toList = text.toList ++ [c] := by simp
  rw [← text_eq] at walk
  exact ⟨_, _, tokenize_eq_ok_iff.mpr ⟨_, _, _, walk, rfl⟩, rfl⟩

/-- A semicolon behind a text is a token behind those of the text. -/
theorem tokenize_append_semicolon {text : String} {front : List Token}
    {last : Position} (h : tokenize text = .ok (front ++ [.endOfInput last])) :
    ∃ semicolon last', tokenize (text ++ ";") = .ok (front ++ [semicolon] ++ [.endOfInput last']) ∧
      semicolon.kind = .semicolon := by
  have closer : (';', Kind.semicolon) ∈ closers := by decide
  rw [show ";" = String.singleton ';' from rfl]
  exact tokenize_append_closer h closer

/-- Closing signs behind a text are tokens behind those of the text. -/
theorem tokenize_append_closers {text : String} {front : List Token} {last : Position}
    (h : tokenize text = .ok (front ++ [.endOfInput last])) (signs : List (Char × Kind))
    (closing : ∀ sign ∈ signs, sign ∈ closers) :
    ∃ more last', tokenize (text ++ String.ofList (signs.map Prod.fst)) =
      .ok (front ++ more ++ [.endOfInput last']) ∧ more.map (·.kind) = signs.map Prod.snd := by
  induction signs generalizing text front last with
  | nil => exact ⟨[], last, by simpa using h, rfl⟩
  | cons sign signs ih =>
    obtain ⟨first, others⟩ := List.forall_mem_cons.mp closing
    -- The first sign becomes a token, and the others stand behind a text that ends with it.
    obtain ⟨token, _, split, isKind⟩ := tokenize_append_closer h first
    obtain ⟨more, last', split, kinds⟩ := ih split others
    have text_eq : text ++ String.ofList ((sign :: signs).map Prod.fst) =
        text ++ String.singleton sign.1 ++ String.ofList (signs.map Prod.fst) := by
      simp [← String.toList_inj]
    rw [List.append_assoc front [token] more] at split
    refine ⟨token :: more, last', ?_, by rw [List.map_cons, kinds, isKind, List.map_cons]⟩
    rw [text_eq]
    exact split

end LoxSyntax
