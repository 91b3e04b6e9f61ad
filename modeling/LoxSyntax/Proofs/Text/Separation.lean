import LoxSyntax.Text.Line
import LoxSyntax.Text.Word

/-! # Blank characters are apart from others

No character of a word is blank, and no digit is.  Both come down to ranges of code points that do
not overlap, which is checked on the tables (`CodePoints.contains_eq_false_of_apart`). -/

namespace LoxSyntax

namespace CodePoints

/-- Whether no range of one set overlaps a range of another. -/
def apart (set other : CodePoints) : Bool :=
  set.ranges.all fun range => other.ranges.all fun range' =>
    range.2 < range'.1 || range'.2 < range.1

/-- A character in one set is in no set apart from it. -/
theorem contains_eq_false_of_apart {set other : CodePoints} {c : Char}
    (h : set.apart other = true) (member : set.contains c = true) : other.contains c = false := by
  obtain ⟨range, inSet, above, below⟩ := (contains_iff set c).mp member
  rw [← Bool.not_eq_true, contains_iff]
  rintro ⟨range', inOther, above', below'⟩
  have separate := List.all_eq_true.mp (List.all_eq_true.mp h range inSet) range' inOther
  simp only [Bool.or_eq_true, decide_eq_true_eq] at separate
  omega

end CodePoints

namespace Text

variable {c : Char}

/-- No decimal digit is blank. -/
theorem isBlank_of_isDigit (h : isDigit c = true) : isBlank c = false := by
  have apart : digitRanges.apart blankRanges = true := by decide +kernel
  exact CodePoints.contains_eq_false_of_apart apart h

/-- No alphabetic character is blank. -/
private theorem isBlank_of_isAlphabetic (h : isAlphabetic c = true) : isBlank c = false := by
  have apart : alphabeticRanges.apart blankRanges = true := by decide +kernel
  exact CodePoints.contains_eq_false_of_apart apart h

/-- No combining mark is blank. -/
private theorem isBlank_of_isMark (h : isMark c = true) : isBlank c = false := by
  have apart : markRanges.apart blankRanges = true := by decide +kernel
  exact CodePoints.contains_eq_false_of_apart apart h

/-- No connector punctuation is blank. -/
private theorem isBlank_of_isConnector (h : isConnector c = true) : isBlank c = false := by
  have apart : connectorRanges.apart blankRanges = true := by decide +kernel
  exact CodePoints.contains_eq_false_of_apart apart h

/-- The characters that join or separate letters take no room, but they are not blank. -/
private theorem isBlank_of_isJoinControl (h : isJoinControl c = true) : isBlank c = false := by
  simp only [isJoinControl, Bool.or_eq_true, decide_eq_true_eq] at h
  rcases h with rfl | rfl <;> decide

/-- No character of a word is blank. -/
theorem isBlank_of_isWord (h : isWord c = true) : isBlank c = false := by
  simp only [isWord, Bool.or_eq_true] at h
  rcases h with (((h | h) | h) | h) | h
  · exact isBlank_of_isAlphabetic h
  · exact isBlank_of_isMark h
  · exact isBlank_of_isDigit h
  · exact isBlank_of_isConnector h
  · exact isBlank_of_isJoinControl h

/-- The unaccented Latin letters. -/
def latinRanges : CodePoints where
  ranges := [(0x41, 0x5a), (0x61, 0x7a)]

/-- The letters of the core library are the unaccented Latin ones. -/
private theorem contains_latinRanges_of_isAlpha (h : c.isAlpha = true) :
    latinRanges.contains c = true := by
  -- What the test for letters says in code points.
  change (decide (0x41 ≤ c.val ∧ c.val ≤ 0x5a) ||
    (decide (0x61 ≤ c.val) && decide (c.val ≤ 0x7a))) = true at h
  simp only [Bool.or_eq_true, Bool.and_eq_true, decide_eq_true_eq, UInt32.le_iff_toNat_le] at h
  rw [CodePoints.contains_iff]
  rcases h with upper | lower
  · exact ⟨(0x41, 0x5a), by decide, upper⟩
  · exact ⟨(0x61, 0x7a), by decide, lower⟩

/-- The letters that an identifier can begin with are alphabetic. -/
private theorem isAlphabetic_of_isAlpha (h : c.isAlpha = true) : isAlphabetic c = true := by
  -- Both ranges of Latin letters are among the alphabetic ones as they stand.
  have included : ∀ range ∈ latinRanges.ranges, range ∈ alphabeticRanges.ranges := by decide
  have letter := contains_latinRanges_of_isAlpha h
  rw [CodePoints.contains_iff] at letter
  obtain ⟨range, member, within⟩ := letter
  rw [isAlphabetic, CodePoints.contains_iff]
  exact ⟨range, included range member, within⟩

/-- An identifier begins with a character of a word. -/
theorem isWord_of_isIdentifierStart (h : isIdentifierStart c = true) : isWord c = true := by
  simp only [isIdentifierStart, Bool.or_eq_true, decide_eq_true_eq] at h
  rcases h with letter | rfl
  · rw [isWord, isAlphabetic_of_isAlpha letter]
    rfl
  · decide +kernel

/-- No identifier begins with a digit. -/
theorem isDigit_of_isIdentifierStart (h : isIdentifierStart c = true) : isDigit c = false := by
  have apart : latinRanges.apart digitRanges = true := by decide +kernel
  simp only [isIdentifierStart, Bool.or_eq_true, decide_eq_true_eq] at h
  rcases h with letter | rfl
  · exact CodePoints.contains_eq_false_of_apart apart (contains_latinRanges_of_isAlpha letter)
  · decide +kernel

end Text

end LoxSyntax
