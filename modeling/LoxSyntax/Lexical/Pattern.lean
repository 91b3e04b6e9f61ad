import LoxSyntax.Text.Line
import LoxSyntax.Text.Word

/-! # Patterns of lexemes

A pattern describes the lexemes of one kind of token.  `length?` measures the lexeme that a text
begins with; each pattern reads as far as it can and looks at most two characters past the end of
what it takes.

Main statement: a lexeme is never empty and lies within the text, `bounds_of_length?`. -/

namespace LoxSyntax.Lexical

open Text

/-- The form of the lexemes of one kind. -/
inductive Pattern where
  /-- A reserved word, which must not run on into a longer word. -/
  | keyword (word : List Char)
  /-- A sign of fixed spelling, whatever follows it. -/
  | symbol (sign : List Char)
  /-- Decimal digits, with a point and further digits if digits follow the point. -/
  | number
  /-- Anything on one line between two quotation marks. -/
  | string
  /-- A letter or `_` and the word characters behind it. -/
  | identifier
  deriving DecidableEq

/-- The number of decimal digits that a text begins with. -/
def digitsLength (text : List Char) : Nat := (text.takeWhile isDigit).length

/-- The length of the fraction that a text begins with: a point and the digits behind it, or
    nothing where no digit follows a point. -/
def fractionLength : List Char → Nat
  | '.' :: rest => if digitsLength rest = 0 then 0 else digitsLength rest + 1
  | _ => 0

/-- The number of characters before the quotation mark or the end of line that a text reaches
    first. -/
def quotedLength (text : List Char) : Nat :=
  (text.takeWhile fun c => c ≠ '"' && c ≠ '\n').length

namespace Pattern

/-- The length of the lexeme of a pattern that a text begins with. -/
def length? : Pattern → List Char → Option Nat
  | keyword word, text =>
    if word.isPrefixOf text && !((text.drop word.length).head?.any isWord) then
      some word.length
    else
      none
  | symbol sign, text => if sign.isPrefixOf text then some sign.length else none
  | number, text =>
    if digitsLength text = 0 then
      none
    else
      some (digitsLength text + fractionLength (text.drop (digitsLength text)))
  | string, '"' :: rest =>
    if (rest.drop (quotedLength rest)).head? = some '"' then
      some (quotedLength rest + 2)
    else
      none
  | identifier, c :: rest =>
    if isIdentifierStart c then some ((rest.takeWhile isWord).length + 1) else none
  | _, _ => none

/-- Whether every lexeme of a pattern has at least one character. -/
def isSolid : Pattern → Bool
  | keyword word => !word.isEmpty
  | symbol sign => !sign.isEmpty
  | _ => true

end Pattern

/-! ## Lengths -/

/-- The digits that a text begins with lie within the text. -/
theorem digitsLength_le (text : List Char) : digitsLength text ≤ text.length :=
  (List.takeWhile_sublist _).length_le

/-- The fraction that a text begins with lies within the text. -/
private theorem fractionLength_le (text : List Char) : fractionLength text ≤ text.length := by
  unfold fractionLength
  split
  · next rest =>
    have := digitsLength_le rest
    simp only [List.length_cons]
    split <;> omega
  · exact Nat.zero_le _

namespace Pattern

/-- A word that begins a text is no longer than the text. -/
private theorem length_le_of_isPrefixOf {start text : List Char}
    (h : start.isPrefixOf text = true) : start.length ≤ text.length :=
  (List.isPrefixOf_iff_prefix.mp h).length_le

/-- A lexeme is not empty and ends within the text that it was found in. -/
theorem bounds_of_length? {pattern : Pattern} {text : List Char} {n : Nat}
    (solid : pattern.isSolid = true) (h : pattern.length? text = some n) :
    0 < n ∧ n ≤ text.length := by
  cases pattern with
  | keyword word =>
    simp only [length?, Option.ite_none_right_eq_some, Bool.and_eq_true, Option.some.injEq] at h
    obtain ⟨⟨fits, -⟩, rfl⟩ := h
    exact ⟨by simpa [isSolid, List.length_pos_iff] using solid, length_le_of_isPrefixOf fits⟩
  | symbol sign =>
    simp only [length?, Option.ite_none_right_eq_some, Option.some.injEq] at h
    obtain ⟨fits, rfl⟩ := h
    exact ⟨by simpa [isSolid, List.length_pos_iff] using solid, length_le_of_isPrefixOf fits⟩
  | number =>
    simp only [length?, Option.ite_none_left_eq_some, Option.some.injEq] at h
    obtain ⟨positive, rfl⟩ := h
    have whole := digitsLength_le text
    have fraction := fractionLength_le (text.drop (digitsLength text))
    rw [List.length_drop] at fraction
    omega
  | string =>
    cases text with
    | nil => simp [length?] at h
    | cons c rest =>
      by_cases quote : c = '"'
      · simp only [quote, length?, Option.ite_none_right_eq_some, Option.some.injEq] at h
        obtain ⟨closed, rfl⟩ := h
        -- The quotation mark that closes the string is a character of the text.
        rw [List.head?_drop] at closed
        have := (List.getElem?_eq_some_iff.mp closed).1
        simp only [List.length_cons]
        omega
      · simp [length?, quote] at h
  | identifier =>
    cases text with
    | nil => simp [length?] at h
    | cons c rest =>
      simp only [length?, Option.ite_none_right_eq_some, Option.some.injEq] at h
      obtain ⟨-, rfl⟩ := h
      have := (List.takeWhile_sublist isWord (l := rest)).length_le
      simp only [List.length_cons]
      omega

end Pattern

end LoxSyntax.Lexical
