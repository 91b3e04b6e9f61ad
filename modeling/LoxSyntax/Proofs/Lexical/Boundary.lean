import LoxSyntax.Proofs.Lexical.Lexeme

/-! # Where lexemes end

How the token that a text begins with depends on what is put behind the text.  It stays the same in
front of a character that no pattern reaches (`firstMatch?_append_of_reaches`), such as a blank
(`firstMatch?_append_of_breaks`).  A newline goes further: no pattern looks past it, so it can be
put behind any text, and if the text begins with no token, then it still does not
(`firstMatch?_append_newline`). -/

namespace LoxSyntax.Lexical

open Text

/-- A text at which every word ends: it is empty or begins with a blank. -/
def Breaks (text : List Char) : Prop := ∀ c ∈ text.head?, isBlank c = true

variable {text rest : List Char} {c : Char} {n : Nat} {pattern : Pattern} {kind : Kind}

/-! ## Runs of characters -/

/-- A run of characters ends where the text does, unless the next character belongs to it. -/
theorem takeWhile_append_of_head {p : Char → Bool} (h : ∀ c ∈ rest.head?, p c = false) :
    (text ++ rest).takeWhile p = text.takeWhile p := by
  have stops : rest.takeWhile p = [] := by
    cases rest with
    | nil => rfl
    | cons c rest => rw [List.takeWhile_cons_of_neg (by simp [h c rfl])]
  rw [List.takeWhile_append]
  split
  · -- All of the text belongs to the run, which would go on behind it.
    next whole => rw [stops, List.append_nil, (List.takeWhile_prefix p).eq_of_length whole]
  · rfl

/-- A run of characters that ends within a text is the same whatever stands behind the text. -/
private theorem takeWhile_append_of_lt {p : Char → Bool}
    (h : (text.takeWhile p).length < text.length) :
    (text ++ rest).takeWhile p = text.takeWhile p := by
  rw [List.takeWhile_append, if_neg (Nat.ne_of_lt h)]

/-- A word without the next character of a text begins the text only if it ends before that. -/
private theorem prefix_append_iff_of_head {word : List Char} (h : ∀ c ∈ rest.head?, c ∉ word) :
    word <+: text ++ rest ↔ word <+: text := by
  constructor
  · intro begins
    rcases List.prefix_or_prefix_of_prefix begins (List.prefix_append text rest) with
      inside | longer
    · exact inside
    · -- What a longer word has behind the text would begin with the next character.
      obtain ⟨more, rfl⟩ := longer
      have begins := (List.prefix_append_right_inj text).mp begins
      cases more with
      | nil => simp
      | cons c more =>
        obtain ⟨tail, rfl⟩ := begins
        exact absurd (List.mem_append_right text List.mem_cons_self) (h c rfl)
  · intro begins
    exact begins.trans (List.prefix_append text rest)

namespace Pattern

/-! ## The first character -/

/-- Whether the lexemes of a pattern can begin with a character. -/
def begins : Pattern → Char → Bool
  | keyword word, c => word.head? == some c
  | symbol sign, c => sign.head? == some c
  | number, c => isDigit c
  | string, c => c == '"'
  | identifier, c => isIdentifierStart c

/-- A text with a lexeme of a pattern begins as the lexemes of the pattern do. -/
theorem begins_of_length? (solid : pattern.isSolid = true)
    (h : pattern.length? (c :: rest) = some n) : pattern.begins c = true := by
  cases pattern with
  | keyword word =>
    simp only [length?, Option.ite_none_right_eq_some, Bool.and_eq_true] at h
    cases word with
    | nil => cases solid
    | cons d word =>
      obtain ⟨_, same⟩ := List.isPrefixOf_iff_prefix.mp h.1.1
      simp [begins, (List.cons.inj same).1]
  | symbol sign =>
    simp only [length?, Option.ite_none_right_eq_some] at h
    cases sign with
    | nil => cases solid
    | cons d sign =>
      obtain ⟨_, same⟩ := List.isPrefixOf_iff_prefix.mp h.1
      simp [begins, (List.cons.inj same).1]
  | number =>
    simp only [length?, Option.ite_none_left_eq_some] at h
    cases digit : isDigit c with
    | true => exact digit
    -- A number without a digit in front would have no digits at all.
    | false => simp [digitsLength, digit] at h
  | string =>
    by_cases quote : c = '"'
    · simp [begins, quote]
    · simp [length?, quote] at h
  | identifier =>
    simp only [length?, Option.ite_none_right_eq_some] at h
    exact h.1

end Pattern

/-! ## What may stand behind a lexeme -/

/-- A run of digits ends where the text does, unless a digit follows. -/
private theorem digitsLength_append_of_head (h : ∀ c ∈ rest.head?, isDigit c = false) :
    digitsLength (text ++ rest) = digitsLength text := by
  rw [digitsLength, takeWhile_append_of_head h, ← digitsLength]

/-- A fraction ends where the text does, unless a digit follows or a point begins one. -/
private theorem fractionLength_append_of_head (digit : ∀ c ∈ rest.head?, isDigit c = false)
    (notPoint : ∀ c ∈ rest.head?, c ≠ '.') :
    fractionLength (text ++ rest) = fractionLength text := by
  cases text with
  | nil =>
    cases rest with
    | nil => rfl
    -- Where the text is empty, only a point behind it could begin a fraction.
    | cons c rest => simp [fractionLength, notPoint c rfl]
  | cons c text =>
    by_cases point : c = '.'
    · subst point
      simp only [List.cons_append, fractionLength, digitsLength_append_of_head digit]
    · simp [fractionLength, point]

/-- A character that belongs to no word ends a word that a text ends with, just as the end of the
    text does. -/
private theorem any_isWord_head?_append_of_head (h : ∀ c ∈ rest.head?, isWord c = false) :
    (text ++ rest).head?.any isWord = text.head?.any isWord := by
  cases text with
  | cons => rfl
  | nil =>
    rw [List.nil_append]
    cases next : rest.head? with
    | none => rfl
    | some c => simp [h c next]

namespace Pattern

/-- Whether a character that stands behind the first one of a text can matter to a pattern. -/
def reaches (c : Char) : Pattern → Bool
  | keyword word => word.tail.contains c || isWord c
  | symbol sign => sign.tail.contains c
  | number => isDigit c || c == '.'
  | string => true
  | identifier => isWord c

/-- A word that does not go on with the next character begins a longer text only if it begins the
    text. -/
private theorem isPrefixOf_append_of_tail {word : List Char}
    (h : ∀ d ∈ rest.head?, word.tail.contains d = false) :
    word.isPrefixOf (c :: text ++ rest) = word.isPrefixOf (c :: text) := by
  cases word with
  | nil => rfl
  | cons e word =>
    have notMember : ∀ d ∈ rest.head?, d ∉ word := by
      intro d isHead
      simpa using h d isHead
    -- The first character is there in any case, so only the others of the word are compared.
    rw [Bool.eq_iff_iff, List.isPrefixOf_iff_prefix, List.isPrefixOf_iff_prefix, List.cons_append,
      List.cons_prefix_cons, List.cons_prefix_cons, prefix_append_iff_of_head notMember]

/-- A character that a pattern does not reach ends a lexeme just as the end of the text does. -/
private theorem length?_append_of_reaches (h : ∀ d ∈ rest.head?, pattern.reaches d = false) :
    pattern.length? (c :: text ++ rest) = pattern.length? (c :: text) := by
  cases pattern with
  | keyword word =>
    have notMember : ∀ d ∈ rest.head?, word.tail.contains d = false :=
      fun d isHead => (Bool.or_eq_false_iff.mp (h d isHead)).1
    have notWord : ∀ d ∈ rest.head?, isWord d = false :=
      fun d isHead => (Bool.or_eq_false_iff.mp (h d isHead)).2
    simp only [length?, isPrefixOf_append_of_tail notMember]
    cases fits : word.isPrefixOf (c :: text) with
    | false => rfl
    | true =>
      have within := (List.isPrefixOf_iff_prefix.mp fits).length_le
      rw [List.drop_append_of_le_length within, any_isWord_head?_append_of_head notWord]
  | symbol sign => simp only [length?, isPrefixOf_append_of_tail h]
  | number =>
    have notDigit : ∀ d ∈ rest.head?, isDigit d = false :=
      fun d isHead => (Bool.or_eq_false_iff.mp (h d isHead)).1
    have notPoint : ∀ d ∈ rest.head?, d ≠ '.' :=
      fun d isHead => beq_eq_false_iff_ne.mp (Bool.or_eq_false_iff.mp (h d isHead)).2
    -- The fraction is looked for behind the digits, which are the same.
    simp only [length?, digitsLength_append_of_head notDigit]
    rw [List.drop_append_of_le_length (digitsLength_le _),
      fractionLength_append_of_head notDigit notPoint]
  | string =>
    cases rest with
    | nil => rw [List.append_nil]
    | cons d rest => cases h d rfl
  | identifier =>
    have notWord : ∀ d ∈ rest.head?, isWord d = false := h
    simp only [List.cons_append, length?, takeWhile_append_of_head notWord]

end Pattern

/-! ## Blanks -/

namespace Pattern

/-- The characters of a keyword or a sign. -/
def spelling : Pattern → List Char
  | keyword word => word
  | symbol sign => sign
  | _ => []

/-- No keyword and no sign holds a blank. -/
private theorem isBlank_of_mem_spelling (plain : pattern.isPlain = true)
    (inside : c ∈ pattern.spelling) : isBlank c = false := by
  cases pattern with
  | keyword word | symbol word => simpa using List.all_eq_true.mp plain c inside
  | number | string | identifier => cases inside

/-- No lexeme begins with a blank. -/
private theorem isBlank_of_begins (plain : pattern.isPlain = true)
    (begins : pattern.begins c = true) : isBlank c = false := by
  cases pattern with
  | keyword word | symbol word =>
    exact isBlank_of_mem_spelling plain (List.mem_of_mem_head? (beq_iff_eq.mp begins))
  | number => exact isBlank_of_isDigit begins
  | string =>
    rw [beq_iff_eq.mp begins]
    decide
  | identifier => exact isBlank_of_isWord (isWord_of_isIdentifierStart begins)

/-- Only strings go on with a blank. -/
private theorem isBlank_of_reaches (plain : pattern.isPlain = true) (notString : pattern ≠ .string)
    (reached : pattern.reaches c = true) : isBlank c = false := by
  cases pattern with
  | keyword word =>
    rw [reaches, Bool.or_eq_true, List.contains_iff_mem] at reached
    -- The keyword itself can go on, or a longer word can.
    rcases reached with inside | word
    · exact isBlank_of_mem_spelling plain (List.mem_of_mem_tail inside)
    · exact isBlank_of_isWord word
  | symbol sign =>
    rw [reaches, List.contains_iff_mem] at reached
    exact isBlank_of_mem_spelling plain (List.mem_of_mem_tail reached)
  | number =>
    rw [reaches, Bool.or_eq_true, beq_iff_eq] at reached
    rcases reached with digit | rfl
    · exact isBlank_of_isDigit digit
    · decide
  | string => contradiction
  | identifier => exact isBlank_of_isWord reached

end Pattern

/-! ## Strings -/

/-- The characters behind a quotation mark, up to the next one, lie within the text. -/
private theorem quotedLength_le (text : List Char) : quotedLength text ≤ text.length :=
  (List.takeWhile_sublist _).length_le

namespace Pattern

/-- A string that is closed within a text is the same whatever stands behind the text. -/
private theorem length?_string_append (h : string.length? text = some n) :
    string.length? (text ++ rest) = some n := by
  cases text with
  | nil => simp [length?] at h
  | cons c text =>
    by_cases quote : c = '"'
    · subst quote
      simp only [length?, Option.ite_none_right_eq_some, Option.some.injEq] at h
      obtain ⟨closed, rfl⟩ := h
      -- The closing quotation mark stands behind the quoted characters.
      have inside : quotedLength text < text.length := by
        rw [List.head?_drop] at closed
        exact (List.getElem?_eq_some_iff.mp closed).1
      have same : quotedLength (text ++ rest) = quotedLength text :=
        congrArg List.length (takeWhile_append_of_lt inside)
      rw [List.cons_append, length?, same, List.drop_append_of_le_length (Nat.le_of_lt inside),
        List.head?_append, closed, Option.some_or, if_pos rfl]
    · simp [length?, quote] at h

/-- A newline ends an open string just as the end of the text does. -/
private theorem length?_string_append_newline :
    string.length? (text ++ '\n' :: rest) = string.length? text := by
  cases text with
  | nil => rfl
  | cons c text =>
    by_cases quote : c = '"'
    · subst quote
      simp only [length?, List.cons_append]
      -- A newline cannot be quoted, and it is no quotation mark that closes the string.
      have same : quotedLength (text ++ '\n' :: rest) = quotedLength text := by
        rw [quotedLength, takeWhile_append_of_head (by simp), ← quotedLength]
      rw [same, List.drop_append_of_le_length (quotedLength_le text)]
      cases behind : text.drop (quotedLength text) with
      | nil => rfl
      | cons => rfl
    · simp [length?, quote]

end Pattern

/-! ## The table -/

/-- A text begins with no token exactly if no row reads anything. -/
theorem firstMatch?_eq_none_iff :
    firstMatch? text = none ↔ ∀ row ∈ table, row.pattern.length? text = none := by
  simp only [firstMatch?, List.findSome?_eq_none_iff, Row.fit?_eq_none_iff]

/-- Rows that read two texts alike find the same token. -/
private theorem firstMatch?_congr {other : List Char}
    (h : ∀ row ∈ table, row.pattern.length? other = row.pattern.length? text) :
    firstMatch? other = firstMatch? text := by
  rw [firstMatch?, firstMatch?]
  -- The induction is on the rows of the table, so it needs the hypothesis for the later rows alone.
  revert h
  induction table with
  | nil => exact fun _ => rfl
  | cons row rows ih =>
    intro h
    obtain ⟨same, later⟩ := List.forall_mem_cons.mp h
    rw [List.findSome?_cons, List.findSome?_cons, ih later, Row.fit?, Row.fit?, same]

/-- The token that a quotation mark begins is a string. -/
private theorem length?_string_of_firstMatch? (h : firstMatch? ('"' :: text) = some (kind, n)) :
    Pattern.string.length? ('"' :: text) = some n := by
  have strings : ∀ row ∈ table, row.pattern.begins '"' = true → row.pattern = .string := by decide
  obtain ⟨row, member, -, found⟩ := exists_row_of_firstMatch? h
  rw [← strings row member (Pattern.begins_of_length? (isSolid_of_mem_table row member) found)]
  exact found

/-- A text that begins with a token does not begin with a string that is closed only behind the
    text. -/
private theorem length?_string_append_of_firstMatch? (h : firstMatch? text = some (kind, n)) :
    Pattern.string.length? (text ++ rest) = Pattern.string.length? text := by
  cases text with
  | nil => exact absurd (bounds_of_firstMatch? h).2 (Nat.not_le.mpr (bounds_of_firstMatch? h).1)
  | cons c text =>
    by_cases quote : c = '"'
    · subst quote
      have closed := length?_string_of_firstMatch? h
      rw [closed, Pattern.length?_string_append closed]
    · simp [Pattern.length?, quote]

/-- The token that a text begins with is the same in front of a character that no row but the one of
    strings reaches. -/
theorem firstMatch?_append_of_reaches
    (h : ∀ row ∈ table, row.pattern = .string ∨ ∀ d ∈ rest.head?, row.pattern.reaches d = false)
    (starts : firstMatch? text = some (kind, n)) :
    firstMatch? (text ++ rest) = some (kind, n) := by
  cases text with
  | nil =>
    -- The empty text begins with no token.
    obtain ⟨positive, within⟩ := bounds_of_firstMatch? starts
    exact absurd within (Nat.not_le.mpr positive)
  | cons c text =>
    rw [← starts]
    apply firstMatch?_congr
    intro row member
    rcases h row member with isString | notReached
    · rw [isString]
      exact length?_string_append_of_firstMatch? starts
    · exact Pattern.length?_append_of_reaches notReached

/-- A character that no lexeme begins with. -/
def IsForeign (c : Char) : Prop := ∀ row ∈ table, row.pattern.begins c = false

/-- A text that begins with such a character has no token there, whatever follows. -/
theorem IsForeign.firstMatch?_eq_none (h : IsForeign c) : firstMatch? (c :: rest) = none := by
  apply firstMatch?_eq_none_iff.mpr
  intro row member
  cases found : row.pattern.length? (c :: rest) with
  | none => rfl
  | some n =>
    cases (h row member).symm.trans
      (Pattern.begins_of_length? (isSolid_of_mem_table row member) found)

/-! ## A blank behind a text -/

/-- No lexeme begins with a blank. -/
private theorem isForeign_of_isBlank (blank : isBlank c = true) : IsForeign c := by
  intro row member
  cases begins : row.pattern.begins c with
  | false => rfl
  | true =>
    cases blank.symm.trans (Pattern.isBlank_of_begins (isPlain_of_mem_table row member) begins)

/-- No lexeme goes on with a blank, unless it is a string. -/
private theorem reaches_eq_false_of_isBlank (blank : isBlank c = true) (row : Row)
    (member : row ∈ table) (notString : row.pattern ≠ .string) : row.pattern.reaches c = false := by
  cases reached : row.pattern.reaches c with
  | false => rfl
  | true =>
    cases blank.symm.trans
      (Pattern.isBlank_of_reaches (isPlain_of_mem_table row member) notString reached)

/-- A lexeme is read as a token of the same kind when it stands in front of a blank. -/
theorem firstMatch?_append_of_breaks (h : Breaks rest)
    (starts : firstMatch? text = some (kind, n)) :
    firstMatch? (text ++ rest) = some (kind, n) := by
  apply firstMatch?_append_of_reaches _ starts
  intro row member
  by_cases isString : row.pattern = .string
  · exact .inl isString
  · exact .inr fun d isHead => reaches_eq_false_of_isBlank (h d isHead) row member isString

/-- A newline behind a text makes no difference to the token that the text begins with. -/
theorem firstMatch?_append_newline : firstMatch? (text ++ '\n' :: rest) = firstMatch? text := by
  cases text with
  | nil => exact (isForeign_of_isBlank isBlank_newline).firstMatch?_eq_none
  | cons c text =>
    apply firstMatch?_congr
    intro row member
    by_cases isString : row.pattern = .string
    · rw [isString, Pattern.length?_string_append_newline]
    · have notReached := reaches_eq_false_of_isBlank isBlank_newline row member isString
      exact Pattern.length?_append_of_reaches (by simpa using notReached)

end LoxSyntax.Lexical
