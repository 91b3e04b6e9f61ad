import LoxSyntax.Proofs.Lexical.Layout
import LoxSyntax.Proofs.Lexical.Lookahead

/-! # Where a text has no token

A text that does not split into tokens has a first place without a token, and the error names this
place and the character there.  The text in front of the place splits into the tokens that were
found.  If the character is no quotation mark, then no lexeme begins with it
(`isForeign_of_firstMatch?`).  It is no point, either, so the matcher does not look past it, and
what stands behind it cannot change the tokens in front of it (`standsIn_of_isForeign`): every text
with the same beginning has the same error.
`tokenize_error` draws this together. -/

namespace LoxSyntax.Lexical

open Text

variable {rest more : List Char} {c : Char} {pattern : Pattern} {row : Row}

/-! ## Characters that begin no lexeme -/

namespace Pattern

/-- Whether every text that begins like a lexeme of a pattern begins with one. -/
def isImmediate : Pattern → Bool
  | symbol sign => sign.length == 1
  | number | identifier => true
  | _ => false

/-- A text that begins like a lexeme of such a pattern begins with one. -/
private theorem length?_ne_none_of_isImmediate (immediate : pattern.isImmediate = true)
    (begins : pattern.begins c = true) : pattern.length? (c :: rest) ≠ none := by
  cases pattern with
  | keyword | string => cases immediate
  | symbol sign =>
    -- A sign of one character is all there when it begins.
    obtain ⟨d, rfl⟩ := List.length_eq_one_iff.mp (beq_iff_eq.mp immediate)
    obtain rfl : d = c := Option.some.inj (beq_iff_eq.mp begins)
    simp [length?]
  | number =>
    have digit : isDigit c = true := begins
    simp [length?, digitsLength, digit]
  | identifier =>
    have start : isIdentifierStart c = true := begins
    simp [length?, start]

end Pattern

/-- Keywords are made up of letters, and longer signs of characters that are signs, too. -/
private theorem spelling_of_mem_table :
    ∀ row ∈ table, row.pattern.spelling.all isIdentifierStart = true ∨
      (row.pattern.spelling.all fun c => table.any (·.pattern == .symbol [c])) = true := by
  decide

/-- Each character of a keyword or a sign, also within it, could begin a token. -/
private theorem exists_isImmediate_of_mem_spelling (member : row ∈ table)
    (inside : c ∈ row.pattern.spelling) :
    ∃ other ∈ table, other.pattern.isImmediate = true ∧ other.pattern.begins c = true := by
  rcases spelling_of_mem_table row member with letters | signs
  · exact ⟨⟨.identifier, .identifier⟩, by simp [table], rfl, List.all_eq_true.mp letters c inside⟩
  · obtain ⟨other, member', isSign⟩ := List.any_eq_true.mp (List.all_eq_true.mp signs c inside)
    rw [beq_iff_eq] at isSign
    exact ⟨other, member', by rw [isSign]; rfl, by simp [isSign, Pattern.begins]⟩

/-- A character that begins no token begins no lexeme at all, unless it is a quotation mark. -/
theorem isForeign_of_firstMatch? (h : firstMatch? (c :: rest) = none) (notQuote : c ≠ '"') :
    IsForeign c := by
  -- No pattern that needs only its first character begins with it.
  have notImmediate : ∀ row ∈ table, row.pattern.isImmediate = true →
      row.pattern.begins c = false := by
    intro row member immediate
    have missed := firstMatch?_eq_none_iff.mp h row member
    cases begins : row.pattern.begins c with
    | false => rfl
    | true => exact absurd missed (Pattern.length?_ne_none_of_isImmediate immediate begins)
  -- Every character within a keyword or a sign is also the first one of such a pattern.
  have notSpelled : ∀ row ∈ table, c ∉ row.pattern.spelling := by
    intro row member inside
    obtain ⟨other, member', immediate, begins⟩ :=
      exists_isImmediate_of_mem_spelling member inside
    cases (notImmediate other member' immediate).symm.trans begins
  intro row member
  have notSpelled := notSpelled row member
  have notImmediate := notImmediate row member
  cases isPattern : row.pattern with
  | keyword word | symbol word =>
    rw [isPattern] at notSpelled
    rw [Pattern.begins, beq_eq_false_iff_ne]
    exact fun isHead => notSpelled (List.mem_of_mem_head? isHead)
  | string => exact beq_eq_false_iff_ne.mpr notQuote
  | number | identifier =>
    rw [isPattern] at notImmediate
    exact notImmediate rfl

namespace IsForeign

/-- Such a character occurs in no keyword and in no sign. -/
private theorem not_mem_spelling (h : IsForeign c) (member : row ∈ table) :
    c ∉ row.pattern.spelling := by
  intro inside
  obtain ⟨other, member', -, begins⟩ := exists_isImmediate_of_mem_spelling member inside
  cases (h other member').symm.trans begins

/-- A quotation mark begins a string. -/
private theorem ne_quote (h : IsForeign c) : c ≠ '"' :=
  beq_eq_false_iff_ne.mp (h ⟨.string, .string⟩ (by simp [table]))

/-- A point is a sign by itself. -/
private theorem ne_point (h : IsForeign c) : c ≠ '.' := by
  have isRow : (⟨.dot, .symbol ['.']⟩ : Row) ∈ table := by simp [table]
  exact fun point => h.not_mem_spelling isRow (List.mem_singleton.mpr point)

end IsForeign

/-! ## Walks up to the place of an error -/

/-- What stands behind a foreign character does not matter to the tokens in front of it. -/
theorem standsIn_of_isForeign (h : IsForeign c) : StandsIn (c :: more) (c :: rest) :=
  standsIn_of_shows fun front => .of_ne_point h.ne_point front rest more

/-- The error at a character is placed at the character. -/
theorem position_errorAt (c : Char) (position : Position) :
    (errorAt c position).position = position := by
  unfold errorAt
  split
  · rfl
  · rfl

/-- Where no quotation mark is reached before the end of the line, there is none on the line. -/
private theorem quote_not_mem_line (h : (rest.drop (quotedLength rest)).head? ≠ some '"') :
    '"' ∉ rest.takeWhile (· ≠ '\n') := by
  induction rest with
  | nil => simp
  | cons c rest ih =>
    by_cases newline : c = '\n'
    · simp [newline]
    · by_cases quote : c = '"'
      · simp [quote, quotedLength] at h
      · -- Neither the end of the line nor a quotation mark has been reached.
        have shift : quotedLength (c :: rest) = quotedLength rest + 1 := by
          simp [quotedLength, newline, quote]
        rw [shift, List.drop_succ_cons] at h
        simpa [newline, Ne.symm quote] using ih h

/-- A quotation mark that begins no token has no other one behind it on its line. -/
private theorem quote_not_mem_line_of_firstMatch? (h : firstMatch? ('"' :: rest) = none) :
    '"' ∉ rest.takeWhile (· ≠ '\n') := by
  have missed := firstMatch?_eq_none_iff.mp h ⟨.string, .string⟩ (by simp [table])
  apply quote_not_mem_line
  simpa [Pattern.length?] using missed

end LoxSyntax.Lexical

namespace LoxSyntax

open Lexical

/-- A walk that comes to a foreign character ends there with an error, whatever stands behind it. -/
private theorem tokenize_eq_error_of_isForeign {front rest : List Char} {c : Char}
    {tokens : List Token}
    {here lastEnd : Position} (h : IsForeign c) (notBlank : Text.isBlank c = false)
    (reads : Reads ⟨front ++ c :: rest, .start, .start⟩ tokens ⟨c :: rest, here, lastEnd⟩)
    (more : String) :
    tokenize (String.ofList front ++ String.singleton c ++ more) =
      .error (.strayCharacter c here) := by
  have standsIn : StandsIn (c :: more.toList) (c :: rest) := standsIn_of_isForeign h
  obtain ⟨front', split, walk⟩ := reads.replace_rest standsIn
  obtain rfl := List.append_cancel_right split
  -- Neither a blank nor a token is there, so the walk ends.
  have stuck : Stuck (c :: more.toList) := by
    intro d isHead
    obtain rfl : c = d := Option.some.inj isHead
    exact ⟨notBlank, h.firstMatch?_eq_none⟩
  have text_eq : front ++ c :: more.toList =
      (String.ofList front ++ String.singleton c ++ more).toList := by
    simp
  rw [text_eq] at walk
  rw [tokenize_eq, scan_of_reads walk stuck]
  exact congrArg Except.error (if_neg h.ne_quote)

/-- A text that does not split into tokens splits into a first part, a character without a token and
    the rest.  The first part has the tokens that were found, and the error is at its end.  It is
    the error of an unclosed string if the character is a quotation mark, without another one on its
    line, and otherwise the error of all texts that begin with the first part and the character. -/
theorem tokenize_error (text : String) (error : LexicalError) (h : tokenize text = .error error) :
    ∃ (front : String) (c : Char) (rest : String),
      text = front ++ String.singleton c ++ rest ∧
      (∃ last, tokenize front = .ok ((scan text).tokens ++ [.endOfInput last])) ∧
      Text.isBlank c = false ∧
      matchStart? (String.singleton c ++ rest) = none ∧
      error.position = .endOf front ∧
      (c = '"' → error = .unclosedString (.endOf front) ∧
        '"' ∉ rest.toList.takeWhile (· ≠ '\n')) ∧
      (c ≠ '"' → error = .strayCharacter c (.endOf front) ∧
        ∀ more, tokenize (front ++ String.singleton c ++ more) = .error error) := by
  obtain ⟨⟨rest, here, lastEnd⟩, reads, stuck, outcome⟩ := exists_reads_scan text
  rw [tokenize_eq, outcome] at h
  cases rest with
  | nil => cases h
  | cons c rest =>
    obtain rfl : errorAt c here = error := Except.error.inj h
    have notBlank : Text.isBlank c = false := (stuck c rfl).1
    have starts : firstMatch? (c :: rest) = none := (stuck c rfl).2
    -- Without what is left, the same tokens are read off the front.
    obtain ⟨front, split, walk⟩ := reads.replace_rest standsIn_nil
    have here_eq : here = .endOf (String.ofList front) := by
      rw [Position.endOf_eq_skip, String.toList_ofList]
      exact reads.here_eq split
    change text.toList = front ++ c :: rest at split
    rw [List.append_nil, ← String.toList_ofList (l := front)] at walk
    refine ⟨String.ofList front, c, String.ofList rest, ?_,
      ⟨lastEnd, tokenize_eq_ok_iff.mpr ⟨_, here, lastEnd, walk, rfl⟩⟩, notBlank, ?_, ?_, ?_, ?_⟩
    · rw [← String.toList_inj, split]
      simp
    · simp [matchStart?, starts]
    · rw [position_errorAt, here_eq]
    · intro quote
      rw [quote] at starts ⊢
      rw [here_eq, String.toList_ofList]
      exact ⟨rfl, quote_not_mem_line_of_firstMatch? starts⟩
    · intro notQuote
      have error_eq : errorAt c here = .strayCharacter c here := if_neg notQuote
      rw [split] at reads
      rw [error_eq]
      constructor
      · rw [here_eq]
      · intro more
        have foreign := isForeign_of_firstMatch? starts notQuote
        exact tokenize_eq_error_of_isForeign foreign notBlank reads more

/-- The word character behind the number of `or 1é;` begins no token, and nothing that follows it
    can help. -/
theorem tokenize_error_word :
    tokenize "or 1é;" = .error (.strayCharacter 'é' ⟨1, 4⟩) ∧
    ∃ (front : String) (c : Char) (rest : String),
      "or 1é;" = front ++ String.singleton c ++ rest ∧
      (∃ last, tokenize front = .ok [⟨.kwOr, "or", ⟨1, 0⟩⟩, ⟨.number, "1", ⟨1, 3⟩⟩,
        .endOfInput last]) ∧
      matchStart? (String.singleton c ++ rest) = none ∧
      ⟨1, 4⟩ = Position.endOf front ∧
      (c ≠ '"' → ∀ more, tokenize (front ++ String.singleton c ++ more) =
        .error (.strayCharacter 'é' ⟨1, 4⟩)) := by
  have rejected : tokenize "or 1é;" = .error (.strayCharacter 'é' ⟨1, 4⟩) := by
    cbv
  have found : (scan "or 1é;").tokens =
      [⟨.kwOr, "or", ⟨1, 0⟩⟩, ⟨.number, "1", ⟨1, 3⟩⟩] := by
    cbv
  obtain ⟨front, c, rest, split, accepted, -, starts, position, -, others⟩ :=
    tokenize_error _ _ rejected
  rw [found] at accepted
  exact ⟨rejected, front, c, rest, split, accepted, starts, position, fun notQuote =>
    (others notQuote).2⟩

end LoxSyntax
