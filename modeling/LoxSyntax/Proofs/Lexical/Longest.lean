import LoxSyntax.Proofs.Lexical.Boundary

/-! # The longest lexeme

The first row of the table that fits a text is also the one that reads the longest lexeme off it, so
the order of the rows matters only where two rows read the same lexeme, which happens to a keyword
and an identifier.  What a row reads on its own is said by `Pattern.Takes`, without the look-ahead
of the scanner (`takes_iff`).  Any two rows of the table are either told apart by the first
character or ordered so that the earlier one prevails (`pairwise_prevails`), which means that it
reads at least as much (`Pattern.Takes.length_le_of_prevails`).  `matchStart?_longest` draws the
conclusion. -/

namespace LoxSyntax.Lexical

open Text

section Patterns

variable {text lexeme lexeme' rest rest' : List Char} {n : Nat} {pattern other : Pattern}

namespace Pattern

/-! ## What a pattern reads -/

/-- A pattern, on its own, reads a lexeme off a text and leaves the rest.  Words and digits are read
    as far as they go, and a string up to the first quotation mark. -/
inductive Takes : Pattern → List Char → List Char → Prop
  | keyword {word rest : List Char} (ends : ∀ c ∈ rest.head?, isWord c = false) :
    Takes (.keyword word) word rest
  | symbol {sign rest : List Char} : Takes (.symbol sign) sign rest
  | whole {digits rest : List Char} (nonempty : digits ≠ []) (all : ∀ c ∈ digits, isDigit c = true)
    (ends : ∀ c ∈ rest.head?, isDigit c = false)
    (noFraction : ∀ c more, rest = '.' :: c :: more → isDigit c = false) :
    Takes .number digits rest
  | fraction {digits decimals rest : List Char} (nonempty : digits ≠ [])
    (all : ∀ c ∈ digits, isDigit c = true) (nonempty' : decimals ≠ [])
    (all' : ∀ c ∈ decimals, isDigit c = true) (ends : ∀ c ∈ rest.head?, isDigit c = false) :
    Takes .number (digits ++ '.' :: decimals) rest
  | string {quoted rest : List Char} (inside : ∀ c ∈ quoted, c ≠ '"' ∧ c ≠ '\n') :
    Takes .string ('"' :: (quoted ++ ['"'])) rest
  | identifier {c : Char} {word rest : List Char} (start : isIdentifierStart c = true)
    (all : ∀ d ∈ word, isWord d = true) (ends : ∀ d ∈ rest.head?, isWord d = false) :
    Takes .identifier (c :: word) rest

end Pattern

/-- A run of characters with a property, up to where the text ends or goes on with another one. -/
private theorem takeWhile_run {p : Char → Bool} (all : ∀ c ∈ text, p c = true)
    (ends : ∀ c ∈ rest.head?, p c = false) : (text ++ rest).takeWhile p = text := by
  rw [takeWhile_append_of_head ends, List.takeWhile_eq_self_iff.mpr all]

/-- A text begins with a run of characters with a property, which may be empty. -/
private theorem exists_run (p : Char → Bool) (text : List Char) :
    ∃ run rest, text = run ++ rest ∧ (∀ c ∈ run, p c = true) ∧ ∀ c ∈ rest.head?, p c = false := by
  refine ⟨text.takeWhile p, text.dropWhile p, List.takeWhile_append_dropWhile.symm,
    fun c => List.mem_takeWhile_imp, fun c isHead => ?_⟩
  have := List.head?_dropWhile_not p text
  rw [isHead] at this
  simpa using this

/-- A run of characters that is followed by another one is the same however the text is split. -/
theorem eq_of_run {p : Char → Bool} (all : ∀ c ∈ lexeme, p c = true)
    (ends : ∀ c ∈ rest.head?, p c = false) (all' : ∀ c ∈ lexeme', p c = true)
    (ends' : ∀ c ∈ rest'.head?, p c = false) (same : lexeme ++ rest = lexeme' ++ rest') :
    lexeme = lexeme' := by
  rw [← takeWhile_run all ends, same, takeWhile_run all' ends']

/-- The digits that a text begins with are a run of digits that ends there. -/
private theorem digitsLength_run (all : ∀ c ∈ text, isDigit c = true)
    (ends : ∀ c ∈ rest.head?, isDigit c = false) : digitsLength (text ++ rest) = text.length := by
  rw [digitsLength, takeWhile_run all ends]

/-- The quoted characters are those up to the first quotation mark. -/
private theorem quotedLength_run (inside : ∀ c ∈ text, c ≠ '"' ∧ c ≠ '\n') :
    quotedLength (text ++ '"' :: rest) = text.length := by
  rw [quotedLength, takeWhile_run (by simpa using inside) (by simp)]

/-- A number has no fraction exactly where no point with a digit behind it follows. -/
private theorem fractionLength_eq_zero_iff :
    fractionLength text = 0 ↔ ∀ c more, text = '.' :: c :: more → isDigit c = false := by
  unfold fractionLength
  split
  · next rest =>
    cases rest with
    | nil => simp [digitsLength]
    | cons c more => cases digit : isDigit c <;> simp [digitsLength, digit]
  · next notPoint => simpa using fun c more point => absurd point (notPoint (c :: more))

namespace Pattern

/-- What a pattern reads on its own is as long as the scanner says. -/
theorem Takes.length?_eq (h : pattern.Takes lexeme rest) :
    pattern.length? (lexeme ++ rest) = some lexeme.length := by
  -- Each kind of lexeme is a run of characters, and the matcher measures how far the run goes.
  cases h with
  | keyword ends =>
    have notWord : rest.head?.any isWord = false := by
      cases rest with
      | nil => rfl
      | cons c rest => simpa using ends c rfl
    simp [length?, notWord]
  | symbol => simp [length?]
  | whole nonempty all ends noFraction =>
    have positive : lexeme.length ≠ 0 := by simpa using nonempty
    rw [length?, digitsLength_run all ends, if_neg positive, List.drop_left,
      fractionLength_eq_zero_iff.mpr noFraction]
    rfl
  | @fraction digits decimals _ nonempty all nonempty' all' ends =>
    have positive : digits.length ≠ 0 := by simpa using nonempty
    have positive' : decimals.length ≠ 0 := by simpa using nonempty'
    have point : isDigit '.' = false := by decide
    rw [List.append_assoc, List.cons_append, length?, digitsLength_run all (by simp [point]),
      if_neg positive, List.drop_left, fractionLength, digitsLength_run all' ends, if_neg positive']
    simp
  | @string quoted _ inside =>
    simp [length?, quotedLength_run inside]
  | @identifier c word _ start all ends =>
    rw [List.cons_append, length?, if_pos start, takeWhile_run all ends]
    rfl

/-- What is measured as a number is one, with a fraction or without. -/
private theorem exists_takes_number (h : number.length? text = some n) :
    ∃ lexeme rest, text = lexeme ++ rest ∧ lexeme.length = n ∧ number.Takes lexeme rest := by
  obtain ⟨digits, tail, rfl, all, ends⟩ := exists_run isDigit text
  simp only [length?, digitsLength_run all ends, List.drop_left, Option.ite_none_left_eq_some,
    Option.some.injEq, List.length_eq_zero_iff] at h
  obtain ⟨nonempty, rfl⟩ := h
  by_cases noFraction : fractionLength tail = 0
  · exact ⟨digits, tail, rfl, by omega,
      .whole nonempty all ends (fractionLength_eq_zero_iff.mp noFraction)⟩
  · -- A fraction is a point and the digits behind it.
    obtain ⟨more, rfl⟩ : ∃ more, tail = '.' :: more := by
      unfold fractionLength at noFraction
      split at noFraction
      · exact ⟨_, rfl⟩
      · exact absurd rfl noFraction
    obtain ⟨decimals, rest, rfl, all', ends'⟩ := exists_run isDigit more
    rw [fractionLength, digitsLength_run all' ends'] at noFraction ⊢
    have nonempty' : decimals.length ≠ 0 := fun empty => noFraction (if_pos empty)
    refine ⟨digits ++ '.' :: decimals, rest, by simp, by simp [nonempty'], ?_⟩
    exact .fraction nonempty all (List.length_eq_zero_iff.not.mp nonempty') all' ends'

/-- What is measured as a string is closed by its last character. -/
private theorem exists_takes_string (h : string.length? text = some n) :
    ∃ lexeme rest, text = lexeme ++ rest ∧ lexeme.length = n ∧ string.Takes lexeme rest := by
  cases text with
  | nil => cases h
  | cons c text =>
    by_cases quote : c = '"'
    · subst quote
      obtain ⟨quoted, tail, rfl, inside, ends⟩ := exists_run (fun c => c ≠ '"' && c ≠ '\n') text
      -- The run of characters without quotation marks is all that stands between the two.
      have length_eq : quotedLength (quoted ++ tail) = quoted.length := by
        rw [quotedLength, takeWhile_run inside ends]
      rw [length?, length_eq, List.drop_left, Option.ite_none_right_eq_some,
        Option.some.injEq] at h
      obtain ⟨closed, rfl⟩ := h
      obtain ⟨rest, rfl⟩ := List.head?_eq_some_iff.mp closed
      exact ⟨'"' :: (quoted ++ ['"']), rest, by simp, by simp, .string (by simpa using inside)⟩
    · simp [length?, quote] at h

/-- What is measured as an identifier is a run of word characters. -/
private theorem exists_takes_identifier (h : identifier.length? text = some n) :
    ∃ lexeme rest, text = lexeme ++ rest ∧ lexeme.length = n ∧ identifier.Takes lexeme rest := by
  cases text with
  | nil => cases h
  | cons c text =>
    obtain ⟨word, rest, rfl, all, ends⟩ := exists_run isWord text
    rw [length?, takeWhile_run all ends, Option.ite_none_right_eq_some, Option.some.injEq] at h
    obtain ⟨start, rfl⟩ := h
    exact ⟨c :: word, rest, rfl, rfl, .identifier start all ends⟩

/-- Where the scanner measures something, the pattern reads a lexeme of that length. -/
theorem exists_takes_of_length? (h : pattern.length? text = some n) :
    ∃ lexeme rest, text = lexeme ++ rest ∧ lexeme.length = n ∧ pattern.Takes lexeme rest := by
  cases pattern with
  | keyword word =>
    simp only [length?, Option.ite_none_right_eq_some, Bool.and_eq_true, Bool.not_eq_true',
      Option.some.injEq, List.isPrefixOf_iff_prefix] at h
    obtain ⟨⟨⟨rest, rfl⟩, ends⟩, rfl⟩ := h
    -- What is left behind the word shows that it ends there.
    rw [List.drop_left] at ends
    refine ⟨word, rest, rfl, rfl, .keyword fun c isHead => ?_⟩
    rw [isHead] at ends
    exact ends
  | symbol sign =>
    simp only [length?, Option.ite_none_right_eq_some, Option.some.injEq,
      List.isPrefixOf_iff_prefix] at h
    obtain ⟨⟨rest, rfl⟩, rfl⟩ := h
    exact ⟨sign, rest, rfl, rfl, .symbol⟩
  | number => exact exists_takes_number h
  | string => exact exists_takes_string h
  | identifier => exact exists_takes_identifier h

/-- The scanner measures what a pattern reads on its own. -/
theorem takes_iff :
    pattern.Takes lexeme rest ↔ pattern.length? (lexeme ++ rest) = some lexeme.length := by
  constructor
  · exact Takes.length?_eq
  · intro h
    obtain ⟨lexeme', rest', same, length_eq, takes⟩ := exists_takes_of_length? h
    obtain ⟨rfl, rfl⟩ := List.append_inj same length_eq.symm
    exact takes

/-! ## Which of two patterns reads more -/

/-- Whether no text begins with lexemes of both patterns, because of the first character. -/
def apart : Pattern → Pattern → Bool
  | keyword word, other | symbol word, other => !word.head?.any other.begins
  | number, string | number, identifier | string, identifier => true
  | _, _ => false

/-- Whether a pattern reads more than another one that fits the same text, or the two are a keyword
    and the pattern of identifiers. -/
def prevails : Pattern → Pattern → Bool
  | keyword word, keyword word' => word ≠ word'
  | keyword _, identifier => true
  | symbol sign, symbol sign' => sign'.length < sign.length
  | _, _ => false

/-- A lexeme begins with a character that the pattern can begin with. -/
private theorem Takes.exists_begins (h : pattern.Takes lexeme rest)
    (solid : pattern.isSolid = true) : ∃ c, lexeme.head? = some c ∧ pattern.begins c = true := by
  cases lexeme with
  -- A lexeme that is read is never empty.
  | nil => exact absurd (bounds_of_length? solid h.length?_eq).1 (Nat.lt_irrefl 0)
  | cons c lexeme => exact ⟨c, rfl, begins_of_length? solid h.length?_eq⟩

/-- Patterns that are apart do not both fit a text. -/
private theorem not_begins_of_apart {c : Char} (h : pattern.apart other = true)
    (begins : pattern.begins c = true) : other.begins c = false := by
  cases pattern with
  | keyword word | symbol word =>
    have isHead : word.head? = some c := beq_iff_eq.mp begins
    simpa [apart, isHead] using h
  -- Digits begin neither strings nor names.
  | number =>
    cases other with
    | string =>
      apply beq_eq_false_iff_ne.mpr
      rintro rfl
      exact absurd begins (by decide)
    | identifier =>
      cases start : isIdentifierStart c with
      | false => exact start
      | true => cases begins.symm.trans (isDigit_of_isIdentifierStart start)
    | _ => cases h
  | string =>
    cases other with
    | identifier =>
      rw [beq_iff_eq.mp begins]
      decide
    | _ => cases h
  | identifier => cases other <;> cases h

/-- Whether a pattern is told from identifiers by its first character, unless it is a keyword, which
    is a word. -/
def isTidy : Pattern → Bool
  | keyword word => word.head?.any isIdentifierStart && word.all isWord
  | symbol sign => !sign.head?.any isIdentifierStart
  | _ => true

/-- A keyword of word characters is a run of these. -/
theorem isWord_of_isTidy {word : List Char} (tidy : (Pattern.keyword word).isTidy = true) :
    ∀ c ∈ word, isWord c = true := by
  rw [isTidy, Bool.and_eq_true] at tidy
  exact List.all_eq_true.mp tidy.2

/-- Of two patterns that both fit a text, the one that prevails reads at least as much. -/
theorem Takes.length_le_of_prevails (h : pattern.Takes lexeme rest)
    (h' : other.Takes lexeme' rest') (same : lexeme ++ rest = lexeme' ++ rest')
    (tidy : pattern.isTidy = true) (tidy' : other.isTidy = true)
    (prevails : pattern.prevails other = true) :
    lexeme'.length ≤ lexeme.length ∧
      (lexeme'.length = lexeme.length →
        (∃ word, pattern = .keyword word) ∧ other = .identifier) := by
  cases h with
  | keyword ends =>
    cases h' with
    | keyword ends' =>
      -- Two keywords that both end where the word does are one.
      have := eq_of_run (isWord_of_isTidy tidy) ends (isWord_of_isTidy tidy') ends' same
      simp [Pattern.prevails, this] at prevails
    | @identifier c word _ start all ends' =>
      have run : ∀ d ∈ c :: word, isWord d = true :=
        List.forall_mem_cons.mpr ⟨isWord_of_isIdentifierStart start, all⟩
      rw [eq_of_run (isWord_of_isTidy tidy) ends run ends' same]
      exact ⟨Nat.le_refl _, fun _ => ⟨⟨_, rfl⟩, rfl⟩⟩
    | _ => cases prevails
  | symbol =>
    cases h' with
    | symbol =>
      have shorter : lexeme'.length < lexeme.length := of_decide_eq_true prevails
      exact ⟨by omega, fun tie => by omega⟩
    | _ => cases prevails
  | _ => cases prevails

end Pattern

/-! ## The rows of the table -/

/-- All rows of the table are tidy. -/
theorem isTidy_of_mem_table : ∀ row ∈ table, row.pattern.isTidy = true := by decide +kernel

/-- Each row of the table is told from those behind it by the first character, or prevails. -/
theorem pairwise_prevails : table.Pairwise fun row other =>
    row.pattern.apart other.pattern = true ∨ row.pattern.prevails other.pattern = true := by
  decide +kernel

/-- The row with the pattern of identifiers stands for identifiers. -/
private theorem kind_of_mem_table :
    ∀ row ∈ table, row.pattern = .identifier → row.kind = .identifier := by
  decide

/-- Of two rows that fit a text, the earlier one prevails: the two are not apart. -/
theorem pairwise_prevails_of_takes : table.Pairwise fun row other =>
    ∀ lexeme rest lexeme' rest', row.pattern.Takes lexeme rest → other.pattern.Takes lexeme' rest' →
      lexeme ++ rest = lexeme' ++ rest' → row.pattern.prevails other.pattern = true := by
  refine pairwise_prevails.imp_of_mem fun {row other} member member' h => ?_
  intro lexeme rest lexeme' rest' takes takes' same
  rcases h with isApart | prevails
  · -- Both lexemes begin with the first character of the text.
    obtain ⟨c, isHead, begins⟩ := takes.exists_begins (isSolid_of_mem_table row member)
    obtain ⟨c', isHead', begins'⟩ := takes'.exists_begins (isSolid_of_mem_table other member')
    have sameHead : c = c' := by
      have := congrArg List.head? same
      simpa [List.head?_append, isHead, isHead'] using this
    rw [← sameHead] at begins'
    cases begins'.symm.trans (Pattern.not_begins_of_apart isApart begins)
  · exact prevails

/-- Of two rows that fit a text, the earlier one reads at least as much.  They read the same only if
    they are a keyword and the row of identifiers. -/
private theorem pairwise_length_le : table.Pairwise fun row other =>
    ∀ lexeme rest lexeme' rest', row.pattern.Takes lexeme rest → other.pattern.Takes lexeme' rest' →
      lexeme ++ rest = lexeme' ++ rest' →
      lexeme'.length ≤ lexeme.length ∧ (lexeme'.length = lexeme.length →
        (∃ word, row.pattern = .keyword word) ∧ other.kind = .identifier) := by
  refine pairwise_prevails_of_takes.imp_of_mem fun {row other} member member' h => ?_
  intro lexeme rest lexeme' rest' takes takes' same
  obtain ⟨le, tie⟩ := takes.length_le_of_prevails takes' same (isTidy_of_mem_table row member)
    (isTidy_of_mem_table other member') (h _ _ _ _ takes takes' same)
  exact ⟨le, fun same => ⟨(tie same).1, kind_of_mem_table other member' (tie same).2⟩⟩

end Patterns

section Texts

variable {text lexeme lexeme' : String} {row other : Row} {before after : List Row} {n : Nat}

/-! ## Texts -/

/-- A row, on its own, reads a lexeme off the front of a text. -/
def Row.Takes (row : Row) (text lexeme : String) : Prop :=
  ∃ rest, text = lexeme ++ rest ∧ row.pattern.Takes lexeme.toList rest.toList

/-- A row of the table, with the rows before and behind it, reads the longest lexeme that a row
    reads off a text, and it is the first row to read one of this length. -/
structure Longest (text : String) (before : List Row) (row : Row) (after : List Row)
    (lexeme : String) : Prop where
  table_eq : table = before ++ row :: after
  takes : row.Takes text lexeme
  before_lt : ∀ other ∈ before, ∀ lexeme', other.Takes text lexeme' →
    lexeme'.utf8ByteSize < lexeme.utf8ByteSize
  after_le : ∀ other ∈ after, ∀ lexeme', other.Takes text lexeme' →
    lexeme'.utf8ByteSize ≤ lexeme.utf8ByteSize

/-- What a row reads is as long as the scanner says. -/
private theorem Row.Takes.length?_eq (h : row.Takes text lexeme) :
    row.pattern.length? text.toList = some lexeme.toList.length := by
  obtain ⟨rest, rfl, takes⟩ := h
  rw [String.toList_append]
  exact takes.length?_eq

/-- A row reads as much as the scanner says. -/
private theorem Row.takes_of_length? (h : row.pattern.length? text.toList = some n) :
    row.Takes text (String.ofList (text.toList.take n)) := by
  obtain ⟨lexeme, rest, split, rfl, takes⟩ := Pattern.exists_takes_of_length? h
  refine ⟨String.ofList rest, ?_, ?_⟩
  · rw [← String.toList_inj, split]
    simp
  · rw [split, List.take_left, String.toList_ofList, String.toList_ofList]
    exact takes

/-- A row that measures nothing reads nothing, and the other way round. -/
private theorem Row.length?_eq_none_iff :
    row.pattern.length? text.toList = none ↔ ∀ lexeme, ¬row.Takes text lexeme := by
  constructor
  · intro missed lexeme takes
    cases missed.symm.trans takes.length?_eq
  · intro h
    cases found : row.pattern.length? text.toList with
    | none => rfl
    | some n => exact absurd (Row.takes_of_length? found) (h _)

/-- The lexeme that a row reads begins the text. -/
private theorem Row.Takes.isPrefix (h : row.Takes text lexeme) : lexeme.toList <+: text.toList := by
  obtain ⟨rest, rfl, -⟩ := h
  exact ⟨rest.toList, String.toList_append.symm⟩

/-- Of two rows that read lexemes off a text, the earlier one reads at least as many bytes. -/
private theorem pairwise_utf8ByteSize_le (text : String) : table.Pairwise fun row other =>
    ∀ lexeme lexeme', row.Takes text lexeme → other.Takes text lexeme' →
      lexeme'.utf8ByteSize ≤ lexeme.utf8ByteSize ∧
      (lexeme'.utf8ByteSize = lexeme.utf8ByteSize →
        (∃ word, row.pattern = .keyword word) ∧ other.kind = .identifier) := by
  refine pairwise_length_le.imp fun {row other} h lexeme lexeme' takes takes' => ?_
  have lt_iff := utf8ByteSize_lt_iff takes.isPrefix takes'.isPrefix
  have gt_iff := utf8ByteSize_lt_iff takes'.isPrefix takes.isPrefix
  obtain ⟨rest, split, reads⟩ := takes
  obtain ⟨rest', split', reads'⟩ := takes'
  have same : lexeme.toList ++ rest.toList = lexeme'.toList ++ rest'.toList := by
    rw [← String.toList_append, ← String.toList_append, ← split, ← split']
  obtain ⟨le, tie⟩ := h _ _ _ _ reads reads' same
  -- Of two beginnings of the text, the one with more characters has more bytes.
  exact ⟨by omega, fun sameBytes => tie (by omega)⟩

/-- A text begins with no token exactly if no row reads a lexeme off it. -/
private theorem matchStart?_eq_none_iff :
    matchStart? text = none ↔ ∀ row ∈ table, ∀ lexeme, ¬row.Takes text lexeme := by
  rw [matchStart?, Option.map_eq_none_iff, firstMatch?_eq_none_iff]
  simp only [Row.length?_eq_none_iff]

/-- The scanner finds what the first row that fits reads. -/
private theorem matchStart?_eq_some_iff {kind : Kind} {size : Nat} :
    matchStart? text = some (kind, size) ↔ ∃ before row after lexeme,
      table = before ++ row :: after ∧ row.Takes text lexeme ∧
      (∀ other ∈ before, ∀ lexeme', ¬other.Takes text lexeme') ∧
      row.kind = kind ∧ lexeme.utf8ByteSize = size := by
  simp only [matchStart?, Option.map_eq_some_iff, firstMatch?, List.findSome?_eq_some_iff,
    Row.fit?_eq_none_iff, Row.length?_eq_none_iff]
  constructor
  · intro h
    obtain ⟨⟨_, n⟩, ⟨before, row, after, table_eq, fits, earlier⟩, same⟩ := h
    obtain ⟨rfl, found⟩ := Row.fit?_eq_some_iff.mp fits
    obtain ⟨rfl, rfl⟩ := Prod.mk.inj same
    exact ⟨before, row, after, _, table_eq, Row.takes_of_length? found, earlier, rfl, rfl⟩
  · intro h
    obtain ⟨before, row, after, lexeme, table_eq, takes, earlier, rfl, rfl⟩ := h
    -- The size in bytes is that of as many characters as the row reads.
    refine ⟨(row.kind, lexeme.toList.length), ⟨before, row, after, table_eq,
      Row.fit?_eq_some_iff.mpr ⟨rfl, takes.length?_eq⟩, earlier⟩, ?_⟩
    show (row.kind, (String.ofList (text.toList.take lexeme.toList.length)).utf8ByteSize) = _
    rw [← List.prefix_iff_eq_take.mp takes.isPrefix, String.ofList_toList]

end Texts

end LoxSyntax.Lexical

namespace LoxSyntax

open Lexical

/-- The token that a text begins with is the longest lexeme that a row of the table reads off the
    text, and the first such row says what kind it is; there is no token if no row reads anything.
    Two rows read lexemes of the same length only if one is a keyword and the other one, behind it,
    is the row of identifiers. -/
theorem matchStart?_longest (text : String) :
    (matchStart? text = none ↔ ∀ row ∈ table, ∀ lexeme, ¬row.Takes text lexeme) ∧
    (∀ kind size, matchStart? text = some (kind, size) ↔
      ∃ before row after lexeme, Longest text before row after lexeme ∧
        row.kind = kind ∧ lexeme.utf8ByteSize = size) ∧
    table.Pairwise fun row other => ∀ lexeme lexeme', row.Takes text lexeme →
      other.Takes text lexeme' → lexeme'.utf8ByteSize = lexeme.utf8ByteSize →
      (∃ word, row.pattern = .keyword word) ∧ other.kind = .identifier := by
  have pairwise := pairwise_utf8ByteSize_le text
  refine ⟨matchStart?_eq_none_iff, fun kind size => ?_, ?_⟩
  · rw [matchStart?_eq_some_iff]
    constructor
    · intro h
      obtain ⟨before, row, after, lexeme, table_eq, takes, earlier, isKind, isSize⟩ := h
      rw [table_eq, List.pairwise_append, List.pairwise_cons] at pairwise
      refine ⟨before, row, after, lexeme, ⟨table_eq, takes, ?_, ?_⟩, isKind, isSize⟩
      · intro other member lexeme' takes'
        exact absurd takes' (earlier other member lexeme')
      · intro other member lexeme' takes'
        exact (pairwise.2.1.1 other member lexeme lexeme' takes takes').1
    · intro h
      obtain ⟨before, row, after, lexeme, longest, isKind, isSize⟩ := h
      rw [longest.table_eq, List.pairwise_append] at pairwise
      refine ⟨before, row, after, lexeme, longest.table_eq, longest.takes, ?_, isKind, isSize⟩
      -- An earlier row would read at least as much as this one, and it reads less.
      intro other member lexeme' takes'
      have le := (pairwise.2.2 other member row List.mem_cons_self _ _ takes' longest.takes).1
      exact absurd (longest.before_lt other member lexeme' takes') (Nat.not_lt.mpr le)
  · exact pairwise.imp fun h lexeme lexeme' takes takes' => (h lexeme lexeme' takes takes').2

/-- A word that goes on behind the letters of a keyword is an identifier. -/
example : matchStart? "or_else" = some (.identifier, 7) ∧
    matchStart? "or else" = some (.kwOr, 2) := by
  cbv

end LoxSyntax
