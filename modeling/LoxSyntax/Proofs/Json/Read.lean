import LoxSyntax.Json.Basic

/-! # Reading JSON

A reader of JSON texts that follows the grammar of the standard: blanks may stand around values and
signs, strings have their short escapes and the escapes by hexadecimal digits, which come in pairs
for characters beyond the first 65536, and numbers have no leading zeros.  It knows nothing of the
writer.  Of the numbers it reads only the natural ones, as there are no others among the values.

Each part of the reader takes what it can from the front of a text and gives what is left. -/

namespace LoxSyntax.Json

/-! ## Blanks and signs -/

/-- The characters that may stand around values and signs. -/
def isSpace (c : Char) : Bool := c = ' ' || c = '\t' || c = '\n' || c = '\r'

/-- A text without the blanks at its front. -/
def skipSpaces (text : List Char) : List Char := text.dropWhile isSpace

/-- What is left behind a sign, with blanks in front of it. -/
def readSign (sign : Char) (text : List Char) : Option (List Char) :=
  match skipSpaces text with
  | [] => none
  | c :: rest => if c = sign then some rest else none

/-! ## Strings -/

/-- The value of a hexadecimal digit in lower or upper case. -/
def hexValue? (c : Char) : Option Nat :=
  if '0' ≤ c ∧ c ≤ '9' then some (c.toNat - 48)
  else if 'a' ≤ c ∧ c ≤ 'f' then some (c.toNat - 87)
  else if 'A' ≤ c ∧ c ≤ 'F' then some (c.toNat - 55)
  else none

/-- The value of four hexadecimal digits. -/
def readHex (text : List Char) : Option (Nat × List Char) :=
  match text with
  | a :: b :: c :: d :: rest => do
    let a ← hexValue? a
    let b ← hexValue? b
    let c ← hexValue? c
    let d ← hexValue? d
    some (((a * 16 + b) * 16 + c) * 16 + d, rest)
  | _ => none

/-- The character that is escaped by hexadecimal digits, behind `\u`.  Two escapes make up one
    character if they are surrogates of each other, and one surrogate alone is none. -/
def readUnicode (text : List Char) : Option (Char × List Char) := do
  let (high, rest) ← readHex text
  if 0xD800 ≤ high ∧ high < 0xDC00 then
    match rest with
    | '\\' :: 'u' :: rest =>
      let (low, rest) ← readHex rest
      if 0xDC00 ≤ low ∧ low < 0xE000 then
        some (Char.ofNat (0x10000 + (high - 0xD800) * 0x400 + (low - 0xDC00)), rest)
      else none
    | _ => none
  else if 0xDC00 ≤ high ∧ high < 0xE000 then none
  else some (Char.ofNat high, rest)

/-- The characters that have a short escape, each behind the one that stands for it. -/
def shortEscapes : List (Char × Char) :=
  [('"', '"'), ('\\', '\\'), ('/', '/'), ('b', Char.ofNat 8), ('f', Char.ofNat 12), ('n', '\n'),
   ('r', '\r'), ('t', '\t')]

/-- The character that is escaped, behind a backslash. -/
def readEscape (text : List Char) : Option (Char × List Char) :=
  match text with
  | [] => none
  | c :: rest => if c = 'u' then readUnicode rest else (shortEscapes.lookup c).map (·, rest)

/-- One character of a string, which may be escaped.  Control characters have to be. -/
def readChar (text : List Char) : Option (Char × List Char) :=
  match text with
  | [] => none
  | c :: rest =>
    if c = '\\' then readEscape rest
    else if c = '"' ∨ c.toNat < 32 then none
    else some (c, rest)

/-- Four digits are taken from the front of a text. -/
private theorem length_lt_of_readHex {text rest : List Char} {value : Nat}
    (read : readHex text = some (value, rest)) : rest.length < text.length := by
  match text with
  | a :: b :: c :: d :: more =>
    simp only [readHex, Option.bind_eq_bind, Option.bind_eq_some_iff, Option.some.injEq,
      Prod.mk.injEq] at read
    obtain ⟨_, _, _, _, _, _, _, _, _, rfl⟩ := read
    simp only [List.length_cons]
    omega
  | [] | [_] | [_, _] | [_, _, _] => simp [readHex] at read

/-- Four or eight digits and the signs between them are taken from the front of a text. -/
private theorem length_lt_of_readUnicode {text rest : List Char} {c : Char}
    (read : readUnicode text = some (c, rest)) : rest.length < text.length := by
  simp only [readUnicode, Option.bind_eq_bind, Option.bind_eq_some_iff] at read
  obtain ⟨⟨high, more⟩, readHigh, read⟩ := read
  have shorter := length_lt_of_readHex readHigh
  dsimp only at read
  split at read
  · -- A first surrogate needs a second escape, whose digits are taken from what the first one left.
    split at read
    · next low =>
      simp only [Option.bind_eq_some_iff] at read
      obtain ⟨⟨value, last⟩, readLow, read⟩ := read
      have shorter' := length_lt_of_readHex readLow
      split at read
      · obtain ⟨rfl, rfl⟩ : _ = c ∧ last = rest := by simpa using read
        simp only [List.length_cons] at shorter
        omega
      · cases read
    · cases read
  · split at read
    · cases read
    · -- One escape alone.
      obtain ⟨-, rfl⟩ : Char.ofNat high = c ∧ more = rest := by simpa using read
      exact shorter

/-- Every character of a string is written by at least one character, which is what makes the reader
    of strings end. -/
theorem length_lt_of_readChar {text rest : List Char} {c : Char}
    (read : readChar text = some (c, rest)) : rest.length < text.length := by
  match text with
  | [] => cases read
  | d :: more =>
    simp only [readChar] at read
    split at read
    · -- A backslash is taken with what is escaped by it, and any other character alone.
      match more with
      | [] => cases read
      | e :: more =>
        simp only [readEscape] at read
        split at read
        · have := length_lt_of_readUnicode read
          simp only [List.length_cons]
          omega
        · obtain ⟨_, -, read⟩ := Option.map_eq_some_iff.1 read
          cases read
          simp only [List.length_cons]
          omega
    · split at read
      · cases read
      · cases read
        simp

/-- The characters of a string up to the quotation mark that closes it. -/
def readString (text : List Char) : Option (List Char × List Char) :=
  if text.head? = some '"' then some ([], text.tail)
  else
    match read : readChar text with
    | none => none
    | some (c, rest) =>
      have := length_lt_of_readChar read
      (readString rest).map fun (characters, rest) => (c :: characters, rest)
termination_by text.length

/-- A string with its quotation marks, and blanks in front of it. -/
def readQuoted (text : List Char) : Option (String × List Char) := do
  let (characters, rest) ← readString (← readSign '"' text)
  some (String.ofList characters, rest)

/-- The name of a member and the colon behind it. -/
def readName (text : List Char) : Option (String × List Char) := do
  let (name, rest) ← readQuoted text
  some (name, ← readSign ':' rest)

/-! ## Values -/

/-- A natural number, which begins with a zero only if it is zero. -/
def readNumber (text : List Char) : Option (Nat × List Char) :=
  let digits := text.takeWhile Char.isDigit
  if digits = [] ∨ digits.head? = some '0' ∧ digits ≠ ['0'] then none
  else some (Nat.ofDigitChars 10 digits 0, text.dropWhile Char.isDigit)

/-- The words that stand for values. -/
def words : List (String × Json) := [("null", null), ("true", bool true), ("false", bool false)]

/-- A value that is written as a word. -/
def readWord (text : List Char) : Option (Json × List Char) :=
  words.findSome? fun (word, value) => (word.toList.isPrefixOf? text).map (value, ·)

/-- A value without parts. -/
def readScalar (text : List Char) : Option (Json × List Char) :=
  match readWord text with
  | some result => some result
  | none =>
    match readNumber text with
    | some (value, rest) => some (.number value, rest)
    | none => (readQuoted text).map fun (value, rest) => (.string value, rest)

mutual

/-- A value, with blanks in front of it. -/
def readValue (text : List Char) : Option (Json × List Char) :=
  match skipped : skipSpaces text with
  | [] => none
  | c :: rest =>
    have : rest.length < text.length := by
      have : (skipSpaces text).length ≤ text.length := (List.dropWhile_suffix isSpace).length_le
      rw [skipped] at this
      exact this
    if c = '[' then
      match readSign ']' rest with
      | some rest => some (.array [], rest)
      | none => (readItems rest).map fun (items, rest) => (.array items, rest)
    else if c = '\x7b' then
      match readSign '\x7d' rest with
      | some rest => some (.object [], rest)
      | none => (readMembers rest).map fun (members, rest) => (.object members, rest)
    else readScalar (c :: rest)
termination_by (text.length, 0)

/-- The items of an array up to its closing bracket. -/
def readItems (text : List Char) : Option (List Json × List Char) :=
  match readValue text with
  | none => none
  | some (item, more) =>
    match readSign ',' more with
    | none => (readSign ']' more).map ([item], ·)
    | some more =>
      -- what is left is always shorter
      if more.length < text.length then
        (readItems more).map fun (items, rest) => (item :: items, rest)
      else none
termination_by (text.length, 1)

/-- The members of an object up to its closing bracket. -/
def readMembers (text : List Char) : Option (List (String × Json) × List Char) :=
  match readName text with
  | none => none
  | some (name, more) =>
    if more.length < text.length then
      match readValue more with
      | none => none
      | some (value, more) =>
        match readSign ',' more with
        | none => (readSign '\x7d' more).map ([(name, value)], ·)
        | some more =>
          if more.length < text.length then
            (readMembers more).map fun (members, rest) => ((name, value) :: members, rest)
          else none
    else none
termination_by (text.length, 1)

end

/-- The value that a text writes, if it is the text of a value. -/
def decode (text : String) : Option Json :=
  match readValue text.toList with
  | some (value, rest) => if skipSpaces rest = [] then some value else none
  | none => none

example : decode " [10, \"\\u0041\\/\"]\r\n" = some (.array [.number 10, .string "A/"]) := by cbv

example : decode "[01]" = none := by cbv

end LoxSyntax.Json
