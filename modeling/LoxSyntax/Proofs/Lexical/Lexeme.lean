import Mathlib.Data.List.TakeWhile
import LoxSyntax.Lexical.Table
import LoxSyntax.Proofs.Text.Separation

/-! # What lexemes are like

Whatever row of the lexical table a text begins with, the lexeme that is found lies on one line, and
neither begins nor ends with a blank (`isLexeme_of_firstMatch?`).  So a walk over a text may count
columns within a lexeme, and the blanks between lexemes belong to none of them. -/

namespace LoxSyntax.Lexical

open Text

/-- A run of characters that lies on one line, and neither begins nor ends with a blank. -/
structure IsLexeme (text : List Char) : Prop where
  one_line : '\n' ∉ text
  first : ∃ c, text.head? = some c ∧ isBlank c = false
  last : ∃ c, text.getLast? = some c ∧ isBlank c = false

/-- A run of characters none of which is blank. -/
private theorem isLexeme_of_forall {text : List Char} (nonempty : text ≠ [])
    (h : ∀ c ∈ text, isBlank c = false) : IsLexeme text where
  one_line newline := absurd ((h _ newline).symm.trans isBlank_newline) Bool.false_ne_true
  first := ⟨text.head nonempty, List.head?_eq_some_head nonempty, h _ (List.head_mem nonempty)⟩
  last := ⟨text.getLast nonempty, List.getLast?_eq_some_getLast nonempty,
    h _ (List.getLast_mem nonempty)⟩

/-- The first characters with a property are as many as a text begins with. -/
private theorem take_length_takeWhile (p : Char → Bool) (text : List Char) :
    text.take (text.takeWhile p).length = text.takeWhile p :=
  (List.prefix_iff_eq_take.mp (List.takeWhile_prefix p)).symm

/-- Whether the spelling of a keyword or a sign has no blank in it. -/
def Pattern.isPlain : Pattern → Bool
  | keyword word => word.all (!isBlank ·)
  | symbol sign => sign.all (!isBlank ·)
  | _ => true

variable {text : List Char} {n : Nat}

/-! ## The lexemes of each pattern -/

/-- No digit of a run is blank. -/
private theorem not_blank_of_mem_digits {c : Char} (member : c ∈ text.takeWhile isDigit) :
    isBlank c = false :=
  isBlank_of_isDigit (List.mem_takeWhile_imp member)

/-- No character of a fraction is blank. -/
private theorem not_blank_of_mem_fraction {c : Char}
    (member : c ∈ text.take (fractionLength text)) : isBlank c = false := by
  unfold fractionLength at member
  split at member
  · next rest =>
    split at member
    · simp at member
    · rw [List.take_succ_cons, digitsLength, take_length_takeWhile] at member
      -- A fraction is a point and the digits behind it.
      rcases List.mem_cons.mp member with rfl | digit
      · decide
      · exact not_blank_of_mem_digits digit
  · simp at member

namespace Pattern

/-- What the pattern of numbers reads is like a lexeme. -/
private theorem isLexeme_number (h : number.length? text = some n) : IsLexeme (text.take n) := by
  simp only [length?, Option.ite_none_left_eq_some, Option.some.injEq] at h
  obtain ⟨positive, rfl⟩ := h
  rw [List.take_add, digitsLength, take_length_takeWhile]
  apply isLexeme_of_forall
  · -- The pattern asks for a digit in front, whatever is behind it.
    intro empty
    rw [digitsLength, (List.append_eq_nil_iff.mp empty).1] at positive
    exact positive rfl
  · intro c member
    rcases List.mem_append.mp member with digit | fraction
    · exact not_blank_of_mem_digits digit
    · exact not_blank_of_mem_fraction fraction

/-- What the pattern of strings reads is like a lexeme. -/
private theorem isLexeme_string (h : string.length? text = some n) : IsLexeme (text.take n) := by
  cases text with
  | nil => simp [length?] at h
  | cons c rest =>
    by_cases quote : c = '"'
    · subst quote
      simp only [length?, Option.ite_none_right_eq_some, Option.some.injEq] at h
      obtain ⟨closed, rfl⟩ := h
      -- The closing quotation mark stands where the characters between the two end.
      have quoted : rest.take (quotedLength rest + 1) =
          rest.takeWhile (fun c => c ≠ '"' && c ≠ '\n') ++ ['"'] := by
        rw [List.take_add, quotedLength, take_length_takeWhile]
        rw [quotedLength] at closed
        rw [List.take_one, closed]
        rfl
      rw [List.take_succ_cons, quoted]
      have notBlank : isBlank '"' = false := by decide
      have isLast (middle : List Char) : ('"' :: (middle ++ ['"'])).getLast? = some '"' := by
        rw [← List.cons_append, List.getLast?_concat]
      refine ⟨?_, ⟨'"', rfl, notBlank⟩, ⟨'"', isLast _, notBlank⟩⟩
      intro newline
      rcases List.mem_cons.mp newline with same | newline
      · cases same
      · rcases List.mem_append.mp newline with newline | same
        · cases List.mem_takeWhile_imp newline
        · exact absurd (List.mem_singleton.mp same) (by decide)
    · simp [length?, quote] at h

/-- What the pattern of identifiers reads is like a lexeme. -/
private theorem isLexeme_identifier (h : identifier.length? text = some n) :
    IsLexeme (text.take n) := by
  cases text with
  | nil => simp [length?] at h
  | cons c rest =>
    simp only [length?, Option.ite_none_right_eq_some, Option.some.injEq] at h
    obtain ⟨start, rfl⟩ := h
    rw [List.take_succ_cons, take_length_takeWhile]
    apply isLexeme_of_forall (List.cons_ne_nil _ _)
    -- Both the first character and those behind it are word characters.
    intro other member
    rcases List.mem_cons.mp member with rfl | word
    · exact isBlank_of_isWord (isWord_of_isIdentifierStart start)
    · exact isBlank_of_isWord (List.mem_takeWhile_imp word)

/-- The lexemes of all patterns are alike in this. -/
private theorem isLexeme_of_length? {pattern : Pattern} (solid : pattern.isSolid = true)
    (plain : pattern.isPlain = true) (h : pattern.length? text = some n) :
    IsLexeme (text.take n) := by
  cases pattern with
  | keyword word =>
    simp only [length?, Option.ite_none_right_eq_some, Bool.and_eq_true, Option.some.injEq] at h
    obtain ⟨⟨fits, -⟩, rfl⟩ := h
    -- What is read is the word itself.
    rw [← List.prefix_iff_eq_take.mp (List.isPrefixOf_iff_prefix.mp fits)]
    exact isLexeme_of_forall (by simpa [isSolid] using solid) (by simpa [isPlain] using plain)
  | symbol sign =>
    simp only [length?, Option.ite_none_right_eq_some, Option.some.injEq] at h
    obtain ⟨fits, rfl⟩ := h
    rw [← List.prefix_iff_eq_take.mp (List.isPrefixOf_iff_prefix.mp fits)]
    exact isLexeme_of_forall (by simpa [isSolid] using solid) (by simpa [isPlain] using plain)
  | number => exact isLexeme_number h
  | string => exact isLexeme_string h
  | identifier => exact isLexeme_identifier h

end Pattern

/-! ## The lexemes of the table -/

/-- No keyword and no sign of the table holds a blank. -/
theorem isPlain_of_mem_table : ∀ row ∈ table, row.pattern.isPlain = true := by decide

/-- No row of the table stands for the end of the input. -/
private theorem kind_ne_of_mem_table : ∀ row ∈ table, row.kind ≠ .endOfInput := by decide

/-- What a text begins with is a lexeme, and it is never the marker for the end of the input. -/
theorem isLexeme_of_firstMatch? {kind : Kind} (h : firstMatch? text = some (kind, n)) :
    IsLexeme (text.take n) ∧ kind ≠ .endOfInput := by
  obtain ⟨row, member, rfl, found⟩ := exists_row_of_firstMatch? h
  exact ⟨Pattern.isLexeme_of_length? (isSolid_of_mem_table row member)
    (isPlain_of_mem_table row member) found, kind_ne_of_mem_table row member⟩

/-! ## Lengths in bytes -/

section Bytes

variable {text lexeme lexeme' rest : String} {kind : Kind}

/-- A text that begins with another one has the bytes of that one, and more if it is longer. -/
private theorem exists_utf8ByteSize (h : lexeme.toList <+: lexeme'.toList) :
    ∃ more : String, lexeme'.utf8ByteSize = lexeme.utf8ByteSize + more.utf8ByteSize ∧
      lexeme'.toList.length = lexeme.toList.length + more.toList.length := by
  obtain ⟨more, split⟩ := h
  have split : lexeme' = lexeme ++ String.ofList more := by
    rw [← String.toList_inj, ← split]
    simp
  exact ⟨String.ofList more, by rw [split, String.utf8ByteSize_append], by simp [split]⟩

/-- Of two first parts of a text, the one with fewer bytes has fewer characters. -/
theorem utf8ByteSize_lt_iff (h : lexeme.toList <+: text.toList)
    (h' : lexeme'.toList <+: text.toList) :
    lexeme'.utf8ByteSize < lexeme.utf8ByteSize ↔ lexeme'.toList.length < lexeme.toList.length := by
  -- Of two beginnings of a text, the shorter one begins the other.
  rcases Nat.lt_or_ge lexeme'.toList.length lexeme.toList.length with shorter | longer
  · obtain ⟨more, bytes, length_eq⟩ :=
      exists_utf8ByteSize (List.prefix_of_prefix_length_le h' h (Nat.le_of_lt shorter))
    have nonempty : more.utf8ByteSize ≠ 0 := by
      rw [Ne, String.utf8ByteSize_eq_zero_iff]
      rintro rfl
      exact Nat.ne_of_lt shorter length_eq.symm
    omega
  · obtain ⟨more, bytes, -⟩ := exists_utf8ByteSize (List.prefix_of_prefix_length_le h h' longer)
    omega

/-- Measured in bytes or in characters, a lexeme is found in front of the same rest. -/
theorem matchStart?_append_iff :
    matchStart? (lexeme ++ rest) = some (kind, lexeme.utf8ByteSize) ↔
      firstMatch? (lexeme.toList ++ rest.toList) = some (kind, lexeme.toList.length) := by
  rw [matchStart?, Option.map_eq_some_iff, String.toList_append]
  constructor
  · intro h
    obtain ⟨⟨_, n⟩, found, same⟩ := h
    obtain ⟨rfl, bytes⟩ := Prod.mk.inj same
    have within := (bounds_of_firstMatch? found).2
    have isPrefix : lexeme.toList <+: (lexeme ++ rest).toList := by simp
    have isPrefix' : (String.ofList ((lexeme.toList ++ rest.toList).take n)).toList <+:
        (lexeme ++ rest).toList := by
      rw [String.toList_ofList, String.toList_append]
      exact List.take_prefix n _
    -- Neither of the two has fewer bytes, so neither has fewer characters.
    have notShorter := utf8ByteSize_lt_iff isPrefix isPrefix'
    have notLonger := utf8ByteSize_lt_iff isPrefix' isPrefix
    rw [String.toList_ofList, List.length_take_of_le within] at notShorter notLonger
    have same : n = lexeme.toList.length := by omega
    rw [found, same]
  · intro found
    refine ⟨_, found, Prod.ext rfl ?_⟩
    show (String.ofList ((lexeme.toList ++ rest.toList).take lexeme.toList.length)).utf8ByteSize = _
    rw [List.take_left, String.ofList_toList]

end Bytes

end LoxSyntax.Lexical
