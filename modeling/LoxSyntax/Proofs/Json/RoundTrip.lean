import LoxSyntax.Json.Write
import LoxSyntax.Proofs.Json.Read

/-! # Written values are read back

A value reads back from what is written of it, on one line or on several.  What is written behind a
value matters at one place: a number ends where no digit follows. -/

namespace LoxSyntax.Json

variable {blanks rest : List Char}

/-! ## Blanks and signs -/

/-- Whether a text is made of blanks. -/
def Blank (text : List Char) : Prop := ∀ c ∈ text, isSpace c = true

/-- The empty text is blank. -/
private theorem blank_nil : Blank [] := nofun

/-- Blanks in front of a text are skipped. -/
private theorem skipSpaces_append (blank : Blank blanks) :
    skipSpaces (blanks ++ rest) = skipSpaces rest :=
  List.dropWhile_append_of_pos blank

/-- Blanks are skipped up to the first character that is none. -/
private theorem skipSpaces_append_cons {c : Char} (blank : Blank blanks)
    (visible : isSpace c = false) : skipSpaces (blanks ++ c :: rest) = c :: rest := by
  rw [skipSpaces_append blank, skipSpaces, List.dropWhile_cons_of_neg (by simp [visible])]

/-- A sign is found behind blanks. -/
private theorem readSign_append {sign : Char} (blank : Blank blanks)
    (visible : isSpace sign = false) : readSign sign (blanks ++ sign :: rest) = some rest := by
  rw [readSign, skipSpaces_append_cons blank visible]
  simp

/-- A sign is found where a text begins with it. -/
private theorem readSign_self {sign : Char} (visible : isSpace sign = false) :
    readSign sign (sign :: rest) = some rest :=
  readSign_append blank_nil visible

/-- A sign is not found where another one stands. -/
private theorem readSign_append_of_ne {sign c : Char} (blank : Blank blanks)
    (visible : isSpace c = false) (ne : c ≠ sign) : readSign sign (blanks ++ c :: rest) = none := by
  rw [readSign, skipSpaces_append_cons blank visible]
  simp [ne]

/-! ## Strings -/

/-- A digit that is written is read back. -/
private theorem hexValue?_hexDigit {n : Nat} (digit : n < 16) :
    hexValue? (hexDigit n) = some n := by
  have all : ∀ n : Fin 16, hexValue? (hexDigit n) = some n.val := by decide
  exact all ⟨n, digit⟩

/-- A character below 32 is read back from its number. -/
private theorem readUnicode_of_lt {c : Char} (control : c.toNat < 32) :
    readUnicode ('0' :: '0' :: hexDigit (c.toNat / 16) :: hexDigit (c.toNat % 16) :: rest) =
      some (c, rest) := by
  have zero : hexValue? '0' = some 0 := rfl
  have high := hexValue?_hexDigit (n := c.toNat / 16) (by omega)
  have low := hexValue?_hexDigit (n := c.toNat % 16) (by omega)
  have value : (c.toNat / 16) * 16 + c.toNat % 16 = c.toNat := by omega
  have notHigh : ¬(0xD800 ≤ c.toNat ∧ c.toNat < 0xDC00) := by omega
  have notLow : ¬(0xDC00 ≤ c.toNat ∧ c.toNat < 0xE000) := by omega
  simp [readUnicode, readHex, zero, high, low, value, notHigh, notLow]

/-- A character is read back as it is written in a string. -/
private theorem readChar_escape (c : Char) : readChar (escape c ++ rest) = some (c, rest) := by
  have ofNumber {n : Nat} (h : c.toNat = n) : c = Char.ofNat n := by rw [← h, Char.ofNat_toNat]
  -- Seven characters have a short escape, all other control characters a long one.
  by_cases short : c ∈ ['"', '\\', '\n', '\r', '\t', Char.ofNat 8, Char.ofNat 12]
  · simp only [List.mem_cons, List.not_mem_nil, or_false] at short
    obtain rfl | rfl | rfl | rfl | rfl | rfl | rfl := short <;> rfl
  · simp only [List.mem_cons, List.not_mem_nil, or_false, not_or] at short
    obtain ⟨quote, backslash, newline, carriageReturn, tab, backspace, formFeed⟩ := short
    have notEight : c.toNat ≠ 8 := fun h => backspace (ofNumber h)
    have notTwelve : c.toNat ≠ 12 := fun h => formFeed (ofNumber h)
    rw [escape, if_neg quote, if_neg backslash, if_neg newline, if_neg carriageReturn, if_neg tab,
      if_neg notEight, if_neg notTwelve]
    split
    · next control => exact readUnicode_of_lt control
    · next plain => simp [readChar, quote, backslash, plain]

/-- A string ends at its quotation mark. -/
private theorem readString_quote : readString ('"' :: rest) = some ([], rest) := by
  rw [readString]
  simp

/-- A string is read character by character. -/
private theorem readString_of_readChar {text more : List Char} {c : Char} {characters : List Char}
    (readFirst : readChar text = some (c, more))
    (readRest : readString more = some (characters, rest)) :
    readString text = some (c :: characters, rest) := by
  -- A quotation mark is no character of a string, so the string does not end here.
  have noQuote : text.head? ≠ some '"' := by
    cases text with
    | nil => simp
    | cons d more =>
      rintro ⟨⟩
      cases readFirst
  rw [readString, if_neg noQuote]
  split
  · next none => rw [none] at readFirst; cases readFirst
  · next found =>
    rw [found] at readFirst
    cases readFirst
    rw [readRest]
    rfl

/-- The characters of a string are read back. -/
private theorem readString_escape (characters : List Char) :
    readString (characters.flatMap escape ++ '"' :: rest) = some (characters, rest) := by
  induction characters with
  | nil => exact readString_quote
  | cons c characters ih =>
    rw [List.flatMap_cons, List.append_assoc]
    exact readString_of_readChar (readChar_escape c) ih

/-- A quoted text consists of its escaped characters between quotation marks. -/
private theorem toList_quote (text : String) :
    (quote text).toList = '"' :: (text.toList.flatMap escape ++ ['"']) := by
  simp [quote]

/-- A quoted text is read back, with blanks in front of it. -/
private theorem readQuoted_quote (blank : Blank blanks) (text : String) :
    readQuoted (blanks ++ ((quote text).toList ++ rest)) = some (text, rest) := by
  have sign : readSign '"' (blanks ++ '"' :: (text.toList.flatMap escape ++ '"' :: rest)) =
      some (text.toList.flatMap escape ++ '"' :: rest) := readSign_append blank rfl
  simp [readQuoted, toList_quote, sign, readString_escape, String.ofList_toList]

/-! ## Numbers and words -/

/-- Whether a number cannot go on into a text. -/
def EndsNumber (text : List Char) : Prop := ∀ c ∈ text.head?, c.isDigit = false

/-- Blanks are no digits. -/
private theorem isDigit_eq_false_of_isSpace {c : Char} (space : isSpace c = true) :
    c.isDigit = false := by
  simp only [isSpace, Bool.or_eq_true, decide_eq_true_eq] at space
  obtain ((rfl | rfl) | rfl) | rfl := space <;> rfl

/-- A number ends at blanks. -/
private theorem Blank.endsNumber (blank : Blank blanks) : EndsNumber blanks := by
  intro c first
  exact isDigit_eq_false_of_isSpace (blank c (List.mem_of_head? first))

/-- A number ends at a sign behind blanks, as neither the blanks nor the sign are digits. -/
private theorem endsNumber_append {c : Char} (blank : Blank blanks) (sign : c.isDigit = false) :
    EndsNumber (blanks ++ c :: rest) := by
  cases blanks with
  | nil => rintro d ⟨⟩; exact sign
  | cons b blanks =>
    rintro d ⟨⟩
    exact isDigit_eq_false_of_isSpace (blank b List.mem_cons_self)

/-- The digits of a number begin with a zero only if there is no other. -/
private theorem toDigits_of_head?_eq_zero {n : Nat} (zero : (Nat.toDigits 10 n).head? = some '0') :
    Nat.toDigits 10 n = ['0'] := by
  induction n using Nat.strongRecOn with
  | ind n ih =>
    rw [Nat.toDigits_eq_if (by decide)] at zero ⊢
    split at zero
    · next small =>
      rw [if_pos small]
      simpa using zero
    · next large =>
      -- The first digit of a larger number is that of its tenth part, which is not zero.
      have front : (Nat.toDigits 10 (n / 10)).head? = some '0' := by
        obtain ⟨c, more, digits⟩ :=
          List.exists_cons_of_ne_nil (Nat.toDigits_ne_nil (n := n / 10) (b := 10))
        rw [digits] at zero ⊢
        exact zero
      have digits := ih (n / 10) (by omega) front
      have value : Nat.ofDigitChars 10 (Nat.toDigits 10 (n / 10)) 0 = n / 10 :=
        Nat.ofDigitChars_toDigits (by decide) (by decide)
      rw [digits] at value
      have : 0 = n / 10 := value
      omega

/-- The digits of a number are taken from the front of a text. -/
private theorem takeWhile_isDigit_append {digits : List Char} (all : ∀ c ∈ digits, c.isDigit = true)
    (ends : EndsNumber rest) : (digits ++ rest).takeWhile Char.isDigit = digits := by
  rw [List.takeWhile_append_of_pos all]
  cases rest with
  | nil => simp
  | cons c rest => simp [ends c rfl]

/-- What is behind the digits of a number is left. -/
private theorem dropWhile_isDigit_append {digits : List Char} (all : ∀ c ∈ digits, c.isDigit = true)
    (ends : EndsNumber rest) : (digits ++ rest).dropWhile Char.isDigit = rest := by
  rw [List.dropWhile_append_of_pos all]
  cases rest with
  | nil => rfl
  | cons c rest => simp [ends c rfl]

/-- Numbers are written with digits. -/
private theorem isDigit_of_mem_toDigits {n : Nat} : ∀ c ∈ Nat.toDigits 10 n, c.isDigit = true :=
  fun _ member => Nat.isDigit_of_mem_toDigits (by decide) (by decide) member

/-- A number is read back from its digits if no digit follows. -/
private theorem readNumber_toDigits (n : Nat) (ends : EndsNumber rest) :
    readNumber (Nat.toDigits 10 n ++ rest) = some (n, rest) := by
  have digits := takeWhile_isDigit_append (isDigit_of_mem_toDigits (n := n)) ends
  have left := dropWhile_isDigit_append (isDigit_of_mem_toDigits (n := n)) ends
  -- The reader refuses leading zeros, and the writer writes none.
  have wellFormed : ¬(Nat.toDigits 10 n = [] ∨
      (Nat.toDigits 10 n).head? = some '0' ∧ Nat.toDigits 10 n ≠ ['0']) := by
    rintro (empty | ⟨zero, more⟩)
    · exact Nat.toDigits_ne_nil empty
    · exact more (toDigits_of_head?_eq_zero zero)
  simp only [readNumber, digits, left, if_neg wellFormed]
  rw [Nat.ofDigitChars_toDigits (by decide) (by decide)]

/-- A word is no prefix of a text with another first letter. -/
private theorem isPrefixOf?_cons_of_ne {c d : Char} (word : List Char) (ne : d ≠ c) :
    (d :: word).isPrefixOf? (c :: rest) = none := by
  have differ : (d == c) = false := beq_eq_false_iff_ne.2 ne
  show (if (d == c) = true then word.isPrefixOf? rest else none) = none
  rw [differ, if_neg Bool.false_ne_true]

/-- A text is no word if it does not begin with the first letter of one. -/
private theorem readWord_eq_none {c : Char} (null : c ≠ 'n') (true : c ≠ 't') (false : c ≠ 'f') :
    readWord (c :: rest) = none := by
  simp [readWord, words, isPrefixOf?_cons_of_ne, Ne.symm null, Ne.symm true, Ne.symm false]

/-- A number is read back as a value: it is no word, as words begin with letters. -/
private theorem readScalar_number (n : Nat) (ends : EndsNumber rest) :
    readScalar (Nat.toDigits 10 n ++ rest) = some (number n, rest) := by
  have noWord : readWord (Nat.toDigits 10 n ++ rest) = none := by
    cases digits : Nat.toDigits 10 n with
    | nil => exact absurd digits Nat.toDigits_ne_nil
    | cons c more =>
      have digit : c.isDigit = true := isDigit_of_mem_toDigits (n := n) c (by simp [digits])
      refine readWord_eq_none ?_ ?_ ?_ <;> (rintro rfl; cases digit)
  rw [readScalar, noWord, readNumber_toDigits n ends]

/-- A text is read back as a value. -/
private theorem readScalar_quote (text : String) :
    readScalar ((quote text).toList ++ rest) = some (string text, rest) := by
  -- The quotation mark is neither the first letter of a word nor a digit.
  have noWord : readWord ((quote text).toList ++ rest) = none := by
    rw [toList_quote, List.cons_append]
    exact readWord_eq_none (by decide) (by decide) (by decide)
  have noNumber : readNumber ((quote text).toList ++ rest) = none := by
    simp [readNumber, toList_quote]
  have quoted := @readQuoted_quote [] rest blank_nil text
  rw [List.nil_append] at quoted
  rw [readScalar, noWord, noNumber, quoted]
  rfl

/-! ## What is written

Writing appends to what has been written before, and what it appends does not depend on that. -/

section

variable (layout : Layout) (depth : Nat)

/-- The characters that are written of a value. -/
def written (value : Json) : List Char := (value.write layout depth "").toList

/-- The characters that are written of the items behind the first one. -/
def writtenItems (items : List Json) : List Char := (writeItems layout depth "" items).toList

/-- The characters that are written of the members behind the first one. -/
def writtenMembers (members : List (String × Json)) : List Char :=
  (writeMembers layout depth "" members).toList

end

mutual

/-- Writing a value appends what is written of it. -/
private theorem toList_write (layout : Layout) (depth : Nat) (out : String) (value : Json) :
    (value.write layout depth out).toList = out.toList ++ written layout depth value := by
  -- All three follow the recursion of the writer, at the text written so far and at the empty one.
  cases value with
  | null | bool _ | number _ | string _ => simp [written, write]
  | array items =>
    cases items with
    | nil => simp [written, write]
    | cons item rest =>
      rw [written, write, write]
      simp only [String.toList_append, toList_writeItems _ _ _ rest,
        toList_write _ _ _ item, List.append_assoc, String.toList_empty, List.nil_append]
  | object members =>
    cases members with
    | nil => simp [written, write]
    | cons member rest =>
      obtain ⟨name, value⟩ := member
      rw [written, write, write]
      simp only [String.toList_append, toList_writeMembers _ _ _ rest,
        toList_write _ _ _ value, List.append_assoc, String.toList_empty, List.nil_append]

/-- Writing items appends what is written of them. -/
private theorem toList_writeItems (layout : Layout) (depth : Nat) (out : String)
    (items : List Json) :
    (writeItems layout depth out items).toList = out.toList ++ writtenItems layout depth items := by
  cases items with
  | nil => simp [writtenItems, writeItems]
  | cons item rest =>
    rw [writtenItems, writeItems, writeItems]
    simp only [String.toList_append, toList_writeItems _ _ _ rest,
      toList_write _ _ _ item, List.append_assoc, String.toList_empty, List.nil_append]

/-- Writing members appends what is written of them. -/
private theorem toList_writeMembers (layout : Layout) (depth : Nat) (out : String)
    (members : List (String × Json)) :
    (writeMembers layout depth out members).toList =
      out.toList ++ writtenMembers layout depth members := by
  cases members with
  | nil => simp [writtenMembers, writeMembers]
  | cons member rest =>
    obtain ⟨name, value⟩ := member
    rw [writtenMembers, writeMembers, writeMembers]
    simp only [String.toList_append, toList_writeMembers _ _ _ rest,
      toList_write _ _ _ value, List.append_assoc, String.toList_empty, List.nil_append]

end

section

variable {layout : Layout} {depth : Nat}

/-- What is written of `null`. -/
private theorem written_null : written layout depth null = ['n', 'u', 'l', 'l'] := by
  rw [written, write]
  rfl

/-- What is written of a truth value. -/
private theorem written_bool (value : Bool) : written layout depth (bool value) =
    if value then ['t', 'r', 'u', 'e'] else ['f', 'a', 'l', 's', 'e'] := by
  cases value <;> (rw [written, write]; rfl)

/-- What is written of a number. -/
private theorem written_number (n : Nat) : written layout depth (number n) = Nat.toDigits 10 n := by
  rw [written, write, String.toList_append, ← Nat.toList_repr]
  rfl

/-- What is written of a text. -/
private theorem written_string (text : String) :
    written layout depth (string text) = (quote text).toList := by
  rw [written, write, String.toList_append]
  rfl

/-- An array without items is written on one line in both layouts. -/
private theorem written_emptyArray : written layout depth (array []) = ['[', ']'] := by
  rw [written, write]
  rfl

/-- An object without members is written on one line in both layouts. -/
private theorem written_emptyObject : written layout depth (object []) = ['\x7b', '\x7d'] := by
  rw [written, write]
  rfl

/-- An array is written as its first item and the others, all one level deeper, between brackets. -/
private theorem written_array (item : Json) (items : List Json) :
    written layout depth (array (item :: items)) =
      '[' :: ((layout.lineBreak (depth + 1)).toList ++ (written layout (depth + 1) item ++
        (writtenItems layout (depth + 1) items ++
          ((layout.lineBreak depth).toList ++ [']'])))) := by
  rw [written, write]
  simp [toList_write, toList_writeItems]

/-- Each item behind the first one is written behind a comma. -/
private theorem writtenItems_cons (item : Json) (items : List Json) :
    writtenItems layout depth (item :: items) =
      ',' :: ((layout.lineBreak depth).toList ++
        (written layout depth item ++ writtenItems layout depth items)) := by
  rw [writtenItems, writeItems]
  simp [toList_write, toList_writeItems]

/-- An object is written as its first member and the others, all one level deeper, between
    brackets. -/
private theorem written_object (name : String) (value : Json) (members : List (String × Json)) :
    written layout depth (object ((name, value) :: members)) =
      '\x7b' :: ((layout.lineBreak (depth + 1)).toList ++ ((quote name).toList ++
        (layout.colon.toList ++ (written layout (depth + 1) value ++
          (writtenMembers layout (depth + 1) members ++
            ((layout.lineBreak depth).toList ++ ['\x7d'])))))) := by
  rw [written, write]
  simp [toList_write, toList_writeMembers]

/-- Each member behind the first one is written behind a comma, its name in front of a colon. -/
private theorem writtenMembers_cons (name : String) (value : Json)
    (members : List (String × Json)) :
    writtenMembers layout depth ((name, value) :: members) =
      ',' :: ((layout.lineBreak depth).toList ++ ((quote name).toList ++ (layout.colon.toList ++
        (written layout depth value ++ writtenMembers layout depth members)))) := by
  rw [writtenMembers, writeMembers]
  simp [toList_write, toList_writeMembers]

/-- The break between two parts of a value is blank: nothing on one line, and on several lines a
    line feed and an indentation. -/
private theorem blank_lineBreak (layout : Layout) (depth : Nat) :
    Blank (layout.lineBreak depth).toList := by
  intro c member
  rw [Layout.lineBreak] at member
  split at member
  · rw [String.toList_ofList, List.mem_cons, List.mem_replicate] at member
    obtain rfl | ⟨-, rfl⟩ := member <;> rfl
  · cases member

/-- Behind a colon there are at most blanks before the value. -/
private theorem exists_blank_colon (layout : Layout) :
    ∃ blanks, layout.colon.toList = ':' :: blanks ∧ Blank blanks := by
  rw [Layout.colon]
  split
  · exact ⟨[' '], rfl, by simp [Blank, isSpace]⟩
  · exact ⟨[], rfl, by simp [Blank]⟩

end

/-! ## Values sign by sign -/

/-- The first sign behind blanks tells what kind of value is read. -/
private theorem readValue_of_skipSpaces {text : List Char} {c : Char}
    (skipped : skipSpaces text = c :: rest) :
    readValue text =
      if c = '[' then
        match readSign ']' rest with
        | some rest => some (.array [], rest)
        | none => (readItems rest).map fun (items, rest) => (.array items, rest)
      else if c = '\x7b' then
        match readSign '\x7d' rest with
        | some rest => some (.object [], rest)
        | none => (readMembers rest).map fun (members, rest) => (.object members, rest)
      else readScalar (c :: rest) := by
  -- The reader matches on the text without blanks, which is known.
  rw [readValue.eq_def]
  split
  · next none => cases none.symm.trans skipped
  · next found =>
    cases found.symm.trans skipped
    exact rfl

/-- A value without parts begins with no bracket. -/
private theorem readValue_of_scalar {text : List Char} {c : Char}
    (skipped : skipSpaces text = c :: rest)
    (notArray : c ≠ '[') (notObject : c ≠ '\x7b') : readValue text = readScalar (c :: rest) := by
  rw [readValue_of_skipSpaces skipped, if_neg notArray, if_neg notObject]

/-- An array is empty or has items. -/
private theorem readValue_of_array (blank : Blank blanks) :
    readValue (blanks ++ '[' :: rest) =
      match readSign ']' rest with
      | some rest => some (.array [], rest)
      | none => (readItems rest).map fun (items, rest) => (.array items, rest) :=
  (readValue_of_skipSpaces (skipSpaces_append_cons blank rfl)).trans (if_pos rfl)

/-- An object is empty or has members. -/
private theorem readValue_of_object (blank : Blank blanks) :
    readValue (blanks ++ '\x7b' :: rest) =
      match readSign '\x7d' rest with
      | some rest => some (.object [], rest)
      | none => (readMembers rest).map fun (members, rest) => (.object members, rest) :=
  ((readValue_of_skipSpaces (skipSpaces_append_cons blank rfl)).trans (if_neg (by decide))).trans
    (if_pos rfl)

section

variable {text last more : List Char} {item value : Json} {items : List Json} {name : String}
  {members : List (String × Json)}

/-- The last item of an array is followed by the closing bracket. -/
private theorem readItems_last (blank : Blank last)
    (read : readValue text = some (item, last ++ ']' :: rest)) :
    readItems text = some ([item], rest) := by
  have noComma : readSign ',' (last ++ ']' :: rest) = none :=
    readSign_append_of_ne blank rfl (by decide)
  have closed : readSign ']' (last ++ ']' :: rest) = some rest := readSign_append blank rfl
  simp [readItems, read, noComma, closed]

/-- An item with others behind it is followed by a comma. -/
private theorem readItems_next (read : readValue text = some (item, ',' :: more))
    (shorter : more.length < text.length) (readRest : readItems more = some (items, rest)) :
    readItems text = some (item :: items, rest) := by
  have comma : readSign ',' (',' :: more) = some more := readSign_self rfl
  rw [readItems]
  simp [read, comma, shorter, readRest]

/-- The name of a member is read up to the colon behind it. -/
private theorem readName_quote (blank : Blank blanks) (name : String) :
    readName (blanks ++ ((quote name).toList ++ ':' :: rest)) = some (name, rest) := by
  have colon : readSign ':' (':' :: rest) = some rest := readSign_self rfl
  simp [readName, readQuoted_quote blank, colon]

/-- The last member of an object is followed by the closing bracket. -/
private theorem readMembers_last (blank : Blank last)
    (readFirst : readName text = some (name, more)) (shorter : more.length < text.length)
    (read : readValue more = some (value, last ++ '\x7d' :: rest)) :
    readMembers text = some ([(name, value)], rest) := by
  have noComma : readSign ',' (last ++ '\x7d' :: rest) = none :=
    readSign_append_of_ne blank rfl (by decide)
  have closed : readSign '\x7d' (last ++ '\x7d' :: rest) = some rest := readSign_append blank rfl
  simp [readMembers, readFirst, shorter, read, noComma, closed]

/-- A member with others behind it is followed by a comma. -/
private theorem readMembers_next {left : List Char} (readFirst : readName text = some (name, more))
    (shorter : more.length < text.length) (read : readValue more = some (value, ',' :: left))
    (shorter' : left.length < text.length) (readRest : readMembers left = some (members, rest)) :
    readMembers text = some ((name, value) :: members, rest) := by
  have comma : readSign ',' (',' :: left) = some left := readSign_self rfl
  rw [readMembers]
  simp [readFirst, shorter, read, comma, shorter', readRest]

end

section

variable {layout : Layout} {depth : Nat}

/-- Digits are no blanks. -/
private theorem isSpace_eq_false_of_isDigit {c : Char} (digit : c.isDigit = true) :
    isSpace c = false := by
  cases space : isSpace c with
  | false => rfl
  | true => rw [isDigit_eq_false_of_isSpace space] at digit; cases digit

/-- What is written of a value begins with a sign that does not close an array. -/
private theorem exists_written_eq_cons (layout : Layout) (depth : Nat) (value : Json) : ∃ c more,
    written layout depth value = c :: more ∧ isSpace c = false ∧ c ≠ ']' := by
  cases value with
  | null => exact ⟨'n', _, written_null, rfl, by decide⟩
  | bool value =>
    cases value with
    | false => exact ⟨'f', _, written_bool false, rfl, by decide⟩
    | true => exact ⟨'t', _, written_bool true, rfl, by decide⟩
  -- Of a number only its first digit is known to be one, which is enough.
  | number n =>
    rw [written_number]
    obtain ⟨c, more, digits⟩ :=
      List.exists_cons_of_ne_nil (Nat.toDigits_ne_nil (n := n) (b := 10))
    have digit : c.isDigit = true := isDigit_of_mem_toDigits (n := n) c (by simp [digits])
    exact ⟨c, more, digits, isSpace_eq_false_of_isDigit digit, by rintro rfl; cases digit⟩
  | string text =>
    exact ⟨'"', _, (written_string text).trans (toList_quote text), rfl, by decide⟩
  | array items =>
    cases items with
    | nil => exact ⟨'[', _, written_emptyArray, rfl, by decide⟩
    | cons item rest => exact ⟨'[', _, written_array item rest, rfl, by decide⟩
  | object members =>
    cases members with
    | nil => exact ⟨'\x7b', _, written_emptyObject, rfl, by decide⟩
    | cons member rest => exact ⟨'\x7b', _, written_object _ _ rest, rfl, by decide⟩

end

/-! ## Values without parts -/

section

variable {layout : Layout} {depth : Nat}

/-- The word `null` is read back. -/
private theorem readValue_null (blank : Blank blanks) :
    readValue (blanks ++ (written layout depth null ++ rest)) = some (null, rest) := by
  rw [written_null]
  exact readValue_of_scalar (c := 'n') (skipSpaces_append_cons blank rfl) (by decide) (by decide)

/-- A truth value is read back. -/
private theorem readValue_bool (blank : Blank blanks) (value : Bool) :
    readValue (blanks ++ (written layout depth (bool value) ++ rest)) =
      some (bool value, rest) := by
  rw [written_bool]
  cases value with
  | false =>
    exact readValue_of_scalar (c := 'f') (skipSpaces_append_cons blank rfl) (by decide) (by decide)
  | true =>
    exact readValue_of_scalar (c := 't') (skipSpaces_append_cons blank rfl) (by decide) (by decide)

/-- A number is read back if no digit follows. -/
private theorem readValue_number (blank : Blank blanks) (n : Nat) (ends : EndsNumber rest) :
    readValue (blanks ++ (written layout depth (number n) ++ rest)) = some (number n, rest) := by
  have scalar := readScalar_number n ends
  rw [written_number]
  -- The first digit shows that it is neither an array nor an object.
  cases digits : Nat.toDigits 10 n with
  | nil => exact absurd digits Nat.toDigits_ne_nil
  | cons c more =>
    have digit : c.isDigit = true := isDigit_of_mem_toDigits (n := n) c (by simp [digits])
    rw [digits] at scalar
    have skipped : skipSpaces (blanks ++ c :: (more ++ rest)) = c :: (more ++ rest) :=
      skipSpaces_append_cons blank (isSpace_eq_false_of_isDigit digit)
    refine (readValue_of_scalar skipped ?_ ?_).trans scalar <;> (rintro rfl; cases digit)

/-- A text is read back. -/
private theorem readValue_string (blank : Blank blanks) (text : String) :
    readValue (blanks ++ (written layout depth (string text) ++ rest)) =
      some (string text, rest) := by
  have scalar := @readScalar_quote rest text
  rw [written_string]
  rw [toList_quote, List.cons_append] at scalar ⊢
  exact (readValue_of_scalar (skipSpaces_append_cons blank rfl) (by decide) (by decide)).trans
    scalar

end

/-! ## Values -/

mutual

/-- A value is read back from what is written of it, with blanks in front of it and anything behind
    it that does not continue a number. -/
private theorem readValue_written (layout : Layout) (depth : Nat) (value : Json)
    {blanks rest : List Char} (blank : Blank blanks) (ends : EndsNumber rest) :
    readValue (blanks ++ (written layout depth value ++ rest)) = some (value, rest) := by
  cases value with
  | null => exact readValue_null blank
  | bool value => exact readValue_bool blank value
  | number n => exact readValue_number blank n ends
  | string text => exact readValue_string blank text
  | array items =>
    cases items with
    | nil =>
      rw [written_emptyArray]
      exact readValue_of_array blank
    | cons item items =>
      have inside := readItems_written layout (depth + 1) item items rest
        (blank_lineBreak layout (depth + 1))
        (blank_lineBreak layout depth)
      -- No value begins with the bracket that would close the array at once.
      obtain ⟨c, more, first, visible, ne⟩ :=
        exists_written_eq_cons layout (depth + 1) item
      have opened : readSign ']' ((layout.lineBreak (depth + 1)).toList ++
          (written layout (depth + 1) item ++ (writtenItems layout (depth + 1) items ++
            ((layout.lineBreak depth).toList ++ ']' :: rest)))) = none := by
        rw [first]
        exact readSign_append_of_ne (blank_lineBreak _ _) visible ne
      simp only [written_array, List.cons_append, List.append_assoc, List.nil_append]
      rw [readValue_of_array blank, opened, inside]
      rfl
  | object members =>
    cases members with
    | nil =>
      rw [written_emptyObject]
      exact readValue_of_object blank
    | cons member members =>
      obtain ⟨name, value⟩ := member
      have inside := readMembers_written layout (depth + 1) name value members rest
        (blank_lineBreak layout (depth + 1))
        (blank_lineBreak layout depth)
      -- The first name begins with a quotation mark, which closes no object.
      have opened {more : List Char} : readSign '\x7d' ((layout.lineBreak (depth + 1)).toList ++
          ((quote name).toList ++ more)) = none := by
        rw [toList_quote]
        exact readSign_append_of_ne (blank_lineBreak _ _) rfl (by decide)
      simp only [written_object, List.cons_append, List.append_assoc, List.nil_append]
      rw [readValue_of_object blank, opened, inside]
      rfl
termination_by sizeOf value

/-- The items of an array are read back up to its closing bracket. -/
private theorem readItems_written (layout : Layout) (depth : Nat) (item : Json) (items : List Json)
    (rest : List Char) {blanks last : List Char} (blank : Blank blanks) (blankLast : Blank last) :
    readItems (blanks ++ (written layout depth item ++ (writtenItems layout depth items ++
      (last ++ ']' :: rest)))) = some (item :: items, rest) := by
  cases items with
  | nil =>
    exact readItems_last blankLast
      (readValue_written layout depth item blank (endsNumber_append blankLast rfl))
  | cons next items =>
    have inside := readItems_written layout depth next items rest
      (blank_lineBreak layout depth) blankLast
    rw [writtenItems_cons]
    simp only [List.cons_append, List.append_assoc]
    -- The comma ends a number, and what is behind it is shorter than the whole.
    refine readItems_next (readValue_written layout depth item blank
      (endsNumber_append blank_nil rfl)) ?_ inside
    simp only [List.length_append, List.length_cons]
    omega
termination_by sizeOf (item :: items)

/-- The members of an object are read back up to its closing bracket. -/
private theorem readMembers_written (layout : Layout) (depth : Nat) (name : String) (value : Json)
    (members : List (String × Json)) (rest : List Char) {blanks last : List Char}
    (blank : Blank blanks) (blankLast : Blank last) :
    readMembers (blanks ++ ((quote name).toList ++ (layout.colon.toList ++
      (written layout depth value ++ (writtenMembers layout depth members ++
        (last ++ '\x7d' :: rest)))))) = some ((name, value) :: members, rest) := by
  -- On several lines a blank stands behind the colon.
  obtain ⟨blanks', colon, blank'⟩ := exists_blank_colon layout
  rw [colon, List.cons_append]
  cases members with
  | nil =>
    refine readMembers_last blankLast (readName_quote blank name) ?_
      (readValue_written layout depth value blank' (endsNumber_append blankLast rfl))
    simp only [List.length_append, List.length_cons]
    omega
  | cons next members =>
    obtain ⟨name', value'⟩ := next
    have inside := readMembers_written layout depth name' value' members rest
      (blank_lineBreak layout depth) blankLast
    rw [writtenMembers_cons]
    simp only [List.cons_append, List.append_assoc]
    -- Both what is behind the name and what is behind the comma are shorter than the whole.
    refine readMembers_next (readName_quote blank name) ?_ (readValue_written layout depth value
      blank' (endsNumber_append blank_nil rfl)) ?_ inside
    all_goals
      simp only [List.length_append, List.length_cons]
      omega
termination_by sizeOf ((name, value) :: members)

end

/-- A text of a value is read back, with blanks behind it. -/
private theorem decode_write (layout : Layout) (value : Json) {blanks : String}
    (blank : Blank blanks.toList) : decode (value.write layout 0 "" ++ blanks) = some value := by
  -- A value at the top level has nothing in front of it, and the blanks behind it end a number.
  have read := readValue_written layout 0 value blank_nil blank.endsNumber
  have left : skipSpaces blanks.toList = [] := by
    rw [← List.append_nil blanks.toList, skipSpaces_append blank]
    rfl
  rw [List.nil_append] at read
  rw [decode, String.toList_append, ← written, read]
  simp [left]

/-- A line feed is blank. -/
private theorem blank_newline : Blank "\n".toList := by simp [Blank, isSpace]

/-- A value on one line is read back from the line. -/
theorem decode_compact (value : Json) : decode (value.compact ++ "\n") = some value :=
  decode_write .compact value blank_newline

/-- A value on several lines is read back from them. -/
theorem decode_pretty (value : Json) : decode (value.pretty ++ "\n") = some value :=
  decode_write .indented value blank_newline

end LoxSyntax.Json
