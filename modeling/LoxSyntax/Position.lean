/-! # Positions in a text

A position counts lines from one and columns from zero, in characters.  `advance` moves a position
over one character; `endOf` finds the end of a whole text without walking over it.

Main statement: the two agree, `endOf_eq_skip`. -/

namespace LoxSyntax

/-- A place in a text: the line, counted from one, and the number of characters before the place
    on that line. -/
structure Position where
  line : Nat
  column : Nat
  deriving DecidableEq, Inhabited

namespace Position

/-- The beginning of a text. -/
def start : Position := ⟨1, 0⟩

/-- The position behind a character: a newline starts the next line, and any other character takes
    one column. -/
def advance (p : Position) (c : Char) : Position :=
  if c = '\n' then ⟨p.line + 1, 0⟩ else ⟨p.line, p.column + 1⟩

/-- The position `n` characters further on the same line. -/
def shift (p : Position) (n : Nat) : Position := ⟨p.line, p.column + n⟩

/-- The position behind a run of characters. -/
def skip (p : Position) (text : List Char) : Position := text.foldl advance p

/-- The position behind the last character of a text: one line per newline, and a column for each
    character after the last newline. -/
def endOf (text : String) : Position :=
  let chars := text.toList
  ⟨1 + chars.count '\n', (chars.reverse.takeWhile (· != '\n')).length⟩

/-- The position as messages show it, with the column counted from one. -/
def render (p : Position) : String := s!"{p.line}:{p.column + 1}"

/-! ## Walking over a text -/

@[simp] theorem skip_nil (p : Position) : p.skip [] = p := rfl

@[simp] theorem skip_cons (p : Position) (c : Char) (text : List Char) :
    p.skip (c :: text) = (p.advance c).skip text := rfl

/-- Walking over two runs of characters is walking over one and then over the other. -/
theorem skip_append (p : Position) (text more : List Char) :
    p.skip (text ++ more) = (p.skip text).skip more := List.foldl_append

/-- On one line, walking adds to the column. -/
theorem skip_eq_shift {text : List Char} (h : '\n' ∉ text) (p : Position) :
    p.skip text = p.shift text.length := by
  induction text generalizing p with
  | nil => rfl
  | cons c rest ih =>
    simp only [List.mem_cons, not_or] at h
    simp only [skip_cons, ih h.2, advance, if_neg (Ne.symm h.1), shift, List.length_cons]
    congr 1
    omega

/-- Walking moves down one line per newline. -/
theorem line_skip (p : Position) (text : List Char) :
    (p.skip text).line = p.line + text.count '\n' := by
  induction text generalizing p with
  | nil => rfl
  | cons c rest ih =>
    rw [skip_cons, ih]
    by_cases newline : c = '\n'
    · simp only [newline, advance, if_true, List.count_cons_self]
      omega
    · simp [advance, newline]

/-- The characters behind the last newline, of a text that has none, are all of them. -/
private theorem takeWhile_reverse_of_not_mem {text : List Char} (h : '\n' ∉ text) :
    text.reverse.takeWhile (· != '\n') = text.reverse := by
  have all : ∀ c ∈ text.reverse, (c != '\n') = true := by
    intro c member
    simpa using fun newline : c = '\n' => h (newline ▸ List.mem_reverse.mp member)
  have whole : (text.reverse ++ []).takeWhile (· != '\n') = text.reverse ++ [] :=
    List.takeWhile_append_of_pos all
  simpa using whole

/-- Walking over a text with a newline ends in the column that counts the characters behind the
    last newline. -/
private theorem column_skip {text : List Char} (h : '\n' ∈ text) (p : Position) :
    (p.skip text).column = (text.reverse.takeWhile (· != '\n')).length := by
  induction text generalizing p with
  | nil => simp at h
  | cons c rest ih =>
    rw [skip_cons]
    -- Only what stands behind the last newline counts: it lies in the rest, or it is the first
    -- character.
    by_cases later : '\n' ∈ rest
    · rw [ih later, List.reverse_cons, List.takeWhile_append, if_neg]
      intro whole
      have same := (List.takeWhile_prefix (l := rest.reverse) (· != '\n')).eq_of_length whole
      have := List.all_takeWhile (l := rest.reverse) (p := (· != '\n'))
      rw [same, List.all_reverse, List.all_eq_true] at this
      simpa using this '\n' later
    · have newline : c = '\n' := by
        rcases List.mem_cons.mp h with rfl | inRest
        · rfl
        · exact absurd inRest later
      rw [skip_eq_shift later, newline, List.reverse_cons, List.takeWhile_append,
        takeWhile_reverse_of_not_mem later]
      simp [advance, shift]

/-- Finding the end of a text gives what walking over it from the start gives. -/
theorem endOf_eq_skip (text : String) : endOf text = start.skip text.toList := by
  have line := line_skip start text.toList
  have column : (endOf text).column = (start.skip text.toList).column := by
    by_cases h : '\n' ∈ text.toList
    · rw [column_skip h]
      rfl
    · rw [skip_eq_shift h]
      simp [endOf, takeWhile_reverse_of_not_mem h, start, shift]
  calc endOf text = ⟨1 + text.toList.count '\n', (endOf text).column⟩ := rfl
    _ = start.skip text.toList := by rw [column, ← show start.line = 1 from rfl, ← line]

end Position

end LoxSyntax
