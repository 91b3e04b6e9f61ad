import Mathlib.Data.List.TakeWhile
import LoxSyntax.Position
import LoxSyntax.Text.Line

/-! # Lines and places

A place in a text splits it into what stands before and what stands behind it.  The end of the first
part names the place by a line and a column, and counting newlines finds the line again
(`exists_dropLines`): it begins with the last line of the first part, which is as long as the column
says, and goes on with what is behind the place.  `firstLine_dropLines` says what a line is when the
whole text is split at its newlines. -/

namespace LoxSyntax.Text

variable {text line before behind tail : List Char} {n : Nat}

/-! ## Blanks at the end -/

/-- Blanks behind a text that does not end with one are what trimming takes away. -/
theorem trimEnd_append (last : ∀ c ∈ text.getLast?, isBlank c = false)
    (blank : ∀ c ∈ tail, isBlank c = true) :
    trimEnd (String.ofList (text ++ tail)) = String.ofList text := by
  -- Seen from its end, the text begins with a character that is not blank.
  have stops : text.reverse.dropWhile isBlank = text.reverse := by
    cases reversed : text.reverse with
    | nil => rfl
    | cons c front =>
      have isLast : text.getLast? = some c := by rw [List.getLast?_eq_head?_reverse, reversed]; rfl
      rw [List.dropWhile_cons_of_neg (by simp [last c isLast])]
  rw [trimEnd, String.toList_ofList, List.reverse_append,
    List.dropWhile_append_of_pos (by simpa using blank), stops, List.reverse_reverse]

/-! ## Lines -/

/-- A line without a carriage return at its end. -/
def withoutReturn (line : List Char) : List Char :=
  if line.getLast? = some '\r' then line.dropLast else line

/-- No character of a line is a newline. -/
private theorem ne_newline_of_not_mem (h : '\n' ∉ text) : ∀ c ∈ text, (c != '\n') = true := by
  intro c member
  rw [bne_iff_ne]
  rintro rfl
  exact h member

/-- The first line of a text is all of it if the text has no newline. -/
private theorem firstLine_of_not_mem (h : '\n' ∉ text) : firstLine text = text := by
  have whole : text.takeWhile (· != '\n') = text :=
    List.takeWhile_eq_self_iff.mpr (ne_newline_of_not_mem h)
  simp [firstLine, whole]

/-- In front of a newline, a carriage return does not belong to the line. -/
private theorem firstLine_append_newline (h : '\n' ∉ line) :
    firstLine (line ++ '\n' :: behind) = withoutReturn line := by
  have whole : (line ++ '\n' :: behind).takeWhile (· != '\n') = line := by
    rw [List.takeWhile_append_of_pos (ne_newline_of_not_mem h),
      List.takeWhile_cons_of_neg (by simp), List.append_nil]
  simp [firstLine, whole, withoutReturn]

/-- Behind the first line of a text, one line less is to be dropped. -/
theorem dropLines_append_newline (h : '\n' ∉ line) :
    dropLines (n + 1) (line ++ '\n' :: behind) = dropLines n behind := by
  have rest : (line ++ '\n' :: behind).dropWhile (· != '\n') = '\n' :: behind := by
    rw [List.dropWhile_append_of_pos (ne_newline_of_not_mem h),
      List.dropWhile_cons_of_neg (by simp)]
  rw [dropLines, rest]
  rfl

/-- The first line of a text is part of the text. -/
theorem mem_of_mem_firstLine {c : Char} (h : c ∈ firstLine text) : c ∈ text := by
  simp only [firstLine] at h
  split at h
  · exact (List.takeWhile_sublist _).subset ((List.dropLast_sublist _).subset h)
  · exact (List.takeWhile_sublist _).subset h

/-- A line has no newline in it. -/
theorem newline_not_mem_firstLine (text : List Char) : '\n' ∉ firstLine text := by
  have notMember : '\n' ∉ text.takeWhile (· != '\n') := fun newline => by
    simpa using List.mem_takeWhile_imp newline
  simp only [firstLine]
  split
  · exact fun newline => notMember ((List.dropLast_sublist _).subset newline)
  · exact notMember

/-- A line of a text is found where the text is split at its newlines.  A carriage return at its end
    does not belong to it, unless it is the last line. -/
theorem firstLine_dropLines (h : (text.splitOn '\n')[n]? = some line) :
    firstLine (dropLines n text) =
      if n + 1 < (text.splitOn '\n').length then withoutReturn line else line := by
  induction n generalizing text with
  | zero =>
    by_cases newline : '\n' ∈ text
    · obtain ⟨first, more, rfl, notMember⟩ := List.eq_append_cons_of_mem newline
      rw [List.splitOn_append_cons_self_of_not_mem notMember] at h ⊢
      obtain rfl : first = line := Option.some.inj h
      -- A newline ends the line, so there is another line behind it, be it empty.
      have later : (more.splitOn '\n').length ≠ 0 := by simp [List.splitOn_ne_nil]
      rw [if_pos (by simp only [List.length_cons]; omega), dropLines,
        firstLine_append_newline notMember]
    · rw [List.splitOn_eq_singleton newline] at h ⊢
      obtain rfl : text = line := Option.some.inj h
      rw [if_neg (by simp), dropLines, firstLine_of_not_mem newline]
  | succ n ih =>
    by_cases newline : '\n' ∈ text
    · obtain ⟨first, more, rfl, notMember⟩ := List.eq_append_cons_of_mem newline
      rw [List.splitOn_append_cons_self_of_not_mem notMember] at h ⊢
      -- The first line is dropped, and the line in question counts from the next one.
      rw [dropLines_append_newline notMember, ih h, List.length_cons]
      simp only [Nat.add_lt_add_iff_right]
    · rw [List.splitOn_eq_singleton newline] at h
      cases h

/-- A text has one line more than it has newlines. -/
theorem length_splitOn (text : List Char) :
    (text.splitOn '\n').length = text.count '\n' + 1 := by
  induction text with
  | nil => rfl
  | cons c text ih =>
    rw [List.splitOn_cons_eq_if_modifyHead]
    by_cases newline : c = '\n' <;> simp [newline, ih]

/-! ## Places -/

/-- The last line of a text is what stands behind its last newline. -/
private theorem exists_last_line (text : List Char) :
    ∃ line, '\n' ∉ line ∧ (text = line ∨ ∃ front, text = front ++ '\n' :: line) := by
  induction text with
  | nil => exact ⟨[], by simp, .inl rfl⟩
  | cons c text ih =>
    obtain ⟨line, notMember, rfl | ⟨front, rfl⟩⟩ := ih
    · by_cases newline : c = '\n'
      · exact ⟨text, notMember, .inr ⟨[], by simp [newline]⟩⟩
      · exact ⟨c :: text, by simp [Ne.symm newline, notMember], .inl rfl⟩
    · exact ⟨line, notMember, .inr ⟨c :: front, rfl⟩⟩

/-- Behind one more newline than a first part of a text has, the part that follows is left. -/
private theorem dropLines_append (h : before.count '\n' = n) :
    dropLines (n + 1) (before ++ '\n' :: behind) = behind := by
  induction n generalizing before with
  | zero =>
    rw [dropLines_append_newline (List.count_eq_zero.mp h)]
    rfl
  | succ n ih =>
    -- There is another newline in front, which ends the first line.
    have newline : '\n' ∈ before := List.count_pos_iff.mp (by omega)
    obtain ⟨first, more, rfl, notMember⟩ := List.eq_append_cons_of_mem newline
    have count_eq : more.count '\n' = n := by
      simpa [List.count_eq_zero.mpr notMember] using h
    rw [List.append_assoc, List.cons_append, dropLines_append_newline notMember, ih count_eq]

/-- The line of a place, from its start on, is the last line of the text in front of the place and
    what stands behind the place. -/
theorem exists_dropLines (before behind : List Char) :
    ∃ line, '\n' ∉ line ∧ line <:+ before ∧
      (Position.endOf (String.ofList before)).column = line.length ∧
      dropLines ((Position.endOf (String.ofList before)).line - 1) (before ++ behind) =
        line ++ behind := by
  obtain ⟨line, notMember, rfl | ⟨front, rfl⟩⟩ := exists_last_line before
  · -- There is one line only, and no newline to be counted.
    have position : Position.endOf (String.ofList before) = ⟨1, before.length⟩ := by
      rw [Position.endOf_eq_skip, String.toList_ofList, Position.skip_eq_shift notMember]
      simp [Position.start, Position.shift]
    rw [position]
    exact ⟨before, notMember, List.suffix_refl _, rfl, rfl⟩
  · -- Each newline moves down by a line, and the last one starts the line of the place.
    have position : Position.endOf (String.ofList (front ++ '\n' :: line)) =
        ⟨front.count '\n' + 2, line.length⟩ := by
      rw [Position.endOf_eq_skip, String.toList_ofList, Position.skip_append, Position.skip_cons,
        Position.skip_eq_shift notMember, Position.advance, if_pos rfl, Position.line_skip]
      simp [Position.start, Position.shift]
      omega
    rw [position, List.append_assoc, List.cons_append]
    exact ⟨line, notMember, ⟨front ++ ['\n'], by simp⟩, rfl, dropLines_append rfl⟩

/-- A carriage return at the end of two parts is at the end of the second one. -/
private theorem withoutReturn_append (last : line.getLast? ≠ some '\r') :
    withoutReturn (line ++ text) = line ++ withoutReturn text := by
  cases text with
  | nil => simp [withoutReturn, last]
  | cons c text =>
    have isLast : (line ++ c :: text).getLast? = (c :: text).getLast? := by
      rw [List.getLast?_append]
      simp [List.getLast?_cons]
    -- Both ask about the same last character.
    rw [withoutReturn, withoutReturn, isLast, List.dropLast_append_of_ne_nil (by simp)]
    split
    · rfl
    · rfl

/-- What stands in front of a place on its line is quoted with the line, unless it ends with a
    carriage return, which could belong to the end of the line. -/
theorem firstLine_append (notMember : '\n' ∉ line) (last : line.getLast? ≠ some '\r') :
    firstLine (line ++ behind) = line ++ firstLine behind := by
  by_cases newline : '\n' ∈ behind
  · obtain ⟨first, more, rfl, notMember'⟩ := List.eq_append_cons_of_mem newline
    rw [firstLine_append_newline notMember', ← List.append_assoc,
      firstLine_append_newline (by simp [notMember, notMember']), withoutReturn_append last]
  · rw [firstLine_of_not_mem newline, firstLine_of_not_mem (by simp [notMember, newline])]

end LoxSyntax.Text
