import LoxSyntax.Proofs.Check.Accepted
import LoxSyntax.Proofs.Grammar.Marker
import LoxSyntax.Proofs.Lexical.Closers

/-! # Accepted texts one after the other

Two accepted texts with a newline in between are accepted again, unless the first one ends in a
`print` that takes the marker for the end of the input, which then is no longer next.  Such a text
can be closed with a semicolon first (`check_concatenation`). -/

namespace LoxSyntax

/-- The last token of a text, if it has one, ends a statement or a block. -/
def EndsClosed (source : String) : Prop :=
  ∀ token ∈ (Lexical.scan source).tokens.getLast?,
    token.kind = .semicolon ∨ token.kind = .rightBrace

variable {word more : List Kind}

/-! ## Words of programs -/

/-- A token that ends a statement or a block does not end an expression. -/
private theorem Kind.not_closes_of_mem_expressionEnds {kind : Kind} (h : kind ∈ expressionEnds) :
    ¬(kind = .semicolon ∨ kind = .rightBrace) := by
  revert h
  cases kind <;> decide

/-- Declarations without the marker end with a semicolon or a brace. -/
private theorem Derives.closes_of_declarations (h : Derives (.many (.category .declaration)) word)
    (unmarked : .endOfInput ∉ word) :
    ∀ kind ∈ word.getLast?, kind = .semicolon ∨ kind = .rightBrace := by
  intro kind last
  have member : kind ∈ Kind.declarationEnds := mem_ends_of_derives h last
  have notMarker : kind ≠ .endOfInput := by
    intro isMarker
    exact unmarked (isMarker ▸ List.mem_of_getLast? last)
  simpa [Kind.declarationEnds, notMarker] using member

namespace Recognizer

/-- A program that ends with a semicolon or a brace is made up of declarations that need no
    marker. -/
private theorem IsProgram.declarations (h : IsProgram word)
    (closed : ∀ kind ∈ word.getLast?, kind = .semicolon ∨ kind = .rightBrace) :
    Derives (.many (.category .declaration)) word := by
  rcases h with derived | derived
  · exact derived
  · -- The token in front of the marker would end an expression.
    obtain ⟨kind, ends, last⟩ := derived.mem_expressionEnds rfl
    exact absurd (closed kind last) (Kind.not_closes_of_mem_expressionEnds ends)

/-- A program that does not end with a semicolon or a brace needs the marker. -/
private theorem IsProgram.takes_marker (h : IsProgram word) (unmarked : .endOfInput ∉ word)
    (notClosed : ¬∀ kind ∈ word.getLast?, kind = .semicolon ∨ kind = .rightBrace) :
    Derives (.many (.category .declaration)) (word ++ [.endOfInput]) := by
  rcases h with derived | derived
  · exact absurd (derived.closes_of_declarations unmarked) notClosed
  · exact derived

/-- Declarations in front of a program leave it a program. -/
private theorem IsProgram.append (h : Derives (.many (.category .declaration)) word)
    (h' : IsProgram more) : IsProgram (word ++ more) := by
  rcases h' with derived | derived
  · exact .inl (h.many_append derived)
  · rw [IsProgram, List.append_assoc]
    exact .inr (h.many_append derived)

end Recognizer

/-! ## Texts -/

open Recognizer

/-- Whether a text ends closed is seen from the last token in front of the marker. -/
private theorem endsClosed_iff {source : String} {front : List Token} {last : Position}
    (h : tokenize source = .ok (front ++ [.endOfInput last])) :
    EndsClosed source ↔
      ∀ kind ∈ (front.map (·.kind)).getLast?, kind = .semicolon ∨ kind = .rightBrace := by
  rw [EndsClosed, scan_tokens_of_tokenize h, List.getLast?_map]
  simp

/-- Declarations in front of an accepted text, in lines of their own, leave it accepted. -/
private theorem check_append_line {a b : String} {front : List Token} {last : Position}
    (h : tokenize a = .ok (front ++ [.endOfInput last]))
    (derived : Derives (.many (.category .declaration)) (front.map (·.kind)))
    (accepted : check b = .ok ()) : check (a ++ "\n" ++ b) = .ok () := by
  obtain ⟨back, _, split, program⟩ := check_eq_ok_iff.mp accepted
  obtain ⟨lines, _, whole⟩ := tokenize_append_line h split
  apply (check_eq_ok_iff_of_tokenize whole).mpr
  -- The tokens of the second text stand some lines further down, and keep their kinds.
  have kinds_eq : (front ++ back.map (·.down lines)).map (·.kind) =
      front.map (·.kind) ++ back.map (·.kind) := by
    rw [List.map_append, List.map_map]
    rfl
  rw [kinds_eq]
  exact .append derived program

/-- Accepted texts can be put one after the other.  If the first one has no tokens or ends with a
    semicolon or a brace, then a newline in between is enough.  Otherwise it ends in a `print` that
    takes the marker for the end of the input in place of a semicolon, and it can be given one. -/
theorem check_concatenation (a b : String) (accepted : check a = .ok ())
    (accepted' : check b = .ok ()) :
    (EndsClosed a → check (a ++ "\n" ++ b) = .ok ()) ∧
    (¬EndsClosed a →
      (∃ front expression,
        (Lexical.scan a).tokens.map (·.kind) = front ++ .kwPrint :: expression ∧
        Derives (.category .expression) expression ∧
        Derives (.many (.category .declaration))
          (front ++ .kwPrint :: (expression ++ [.endOfInput]))) ∧
      check (a ++ ";") = .ok () ∧ check (a ++ ";\n" ++ b) = .ok ()) := by
  obtain ⟨front, _, split, program⟩ := check_eq_ok_iff.mp accepted
  have unmarked := marker_not_mem_map (kind_ne_of_tokenize split)
  rw [endsClosed_iff split, scan_tokens_of_tokenize split]
  constructor
  · intro closed
    exact check_append_line split (program.declarations closed) accepted'
  · intro notClosed
    have marked := program.takes_marker unmarked notClosed
    obtain ⟨before, expression, kinds_eq, derived⟩ := marked.exists_print rfl rfl
    -- The semicolon takes the place of the marker.
    obtain ⟨semicolon, _, closed, isSemicolon⟩ := tokenize_append_semicolon split
    have declarations : Derives (.many (.category .declaration))
        ((front ++ [semicolon]).map (·.kind)) := by
      rw [List.map_append, List.map_singleton, isSemicolon]
      exact marked.replace_last_marker unmarked
    refine ⟨⟨before, expression, kinds_eq, derived, ?_⟩, ?_, ?_⟩
    · rw [kinds_eq, List.append_assoc, List.cons_append] at marked
      exact marked
    · exact (check_eq_ok_iff_of_tokenize closed).mpr (.inl declarations)
    · have := check_append_line closed declarations accepted'
      rw [show a ++ ";\n" = a ++ ";" ++ "\n" by rw [String.append_assoc]; rfl]
      exact this

set_option maxRecDepth 4000 in
/-- In `print 1`, the marker stands in for the semicolon. -/
theorem check_concatenation_print :
    ¬EndsClosed "print 1" ∧ check "print 1" = .ok () ∧ check "x = 2;" = .ok () ∧
      check "print 1;\nx = 2;" = .ok () := by
  have accepted : check "print 1" = .ok () := by cbv
  have accepted' : check "x = 2;" = .ok () := by cbv
  have notClosed : ¬EndsClosed "print 1" := by
    intro closed
    have := closed ⟨.number, "1", ⟨1, 6⟩⟩ (by cbv)
    simp at this
  exact ⟨notClosed, accepted, accepted',
    ((check_concatenation _ _ accepted accepted').2 notClosed).2.2⟩

end LoxSyntax
