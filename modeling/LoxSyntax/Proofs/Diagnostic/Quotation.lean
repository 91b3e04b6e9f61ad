import LoxSyntax.Proofs.Diagnostic.Rendering

/-! # The line that a diagnostic quotes

A diagnostic quotes the line on which its rejection is located, and what the rejection points at is
found in the quoted line at the column of the location (`diagnostic_quotes`).  Three counts have to
agree here: the scanner counts lines as it goes, the place behind the last token is found from the
trimmed text, and the line is found by counting newlines from the start. -/

namespace LoxSyntax

open Text

variable {source : Source} {rejection : Rejection} {before behind : List Char}

namespace PointsAt

/-- What a rejection points at is quoted behind as many characters as the column says. -/
theorem exists_lineOf (h : PointsAt source rejection before behind) :
    ∃ line, line <:+ before ∧ (source.locate rejection).column = line.length ∧
      source.lineOf (source.locate rejection) =
        String.ofList (line ++ (rejection.pointed ++ firstLine behind)) := by
  obtain ⟨line, oneLine, isSuffix, column_eq, dropLines_eq⟩ :=
    exists_dropLines before (rejection.pointed ++ behind)
  obtain ⟨c, isLast, notBlank⟩ := h.last
  -- A carriage return at the end of what is pointed at could be lost with the end of the line.
  have noReturn : (line ++ rejection.pointed).getLast? ≠ some '\r' := by
    intro isReturn
    obtain ⟨front, rfl⟩ := isSuffix
    rw [List.append_assoc, List.getLast?_append, isReturn] at isLast
    obtain rfl : '\r' = c := Option.some.inj isLast
    cases notBlank
  refine ⟨line, isSuffix, h.locate_eq ▸ column_eq, ?_⟩
  rw [Source.lineOf, lineAt, h.text_eq, h.locate_eq, dropLines_eq, ← List.append_assoc,
    firstLine_append (by simp [oneLine, h.one_line]) noReturn, List.append_assoc]

/-- The line that is quoted is the one with the number of the location. -/
private theorem exists_line (h : PointsAt source rejection before behind) :
    ∃ n raw, (source.locate rejection).line = n + 1 ∧
      (source.text.toList.splitOn '\n')[n]? = some raw ∧
      source.lineOf (source.locate rejection) = String.ofList
        (if n + 1 < (source.text.toList.splitOn '\n').length then withoutReturn raw else raw) := by
  have line_eq : (source.locate rejection).line = before.count '\n' + 1 := by
    rw [h.locate_eq, Position.endOf, String.toList_ofList]
    exact Nat.add_comm _ _
  -- There are as many newlines in the whole text as lines, less one.
  have within : before.count '\n' < (source.text.toList.splitOn '\n').length := by
    rw [length_splitOn, h.text_eq, List.count_append]
    omega
  have found := List.getElem?_eq_getElem within
  refine ⟨_, _, line_eq, found, ?_⟩
  rw [Source.lineOf, lineAt, line_eq, Nat.add_sub_cancel, firstLine_dropLines found]

end PointsAt

/-- The end of the input is found in the line, too. -/
private theorem IsEnd.line {place : Position} {line : List Char}
    (h : IsEnd source place before behind)
    (isSuffix : line <:+ before) (column_eq : place.column = line.length) :
    IsEnd source place line (firstLine behind) := by
  obtain ⟨token, c, isToken, isLast, isLast', position_eq⟩ := h.exists_last
  refine ⟨fun d member => h.behind_blank d (mem_of_mem_firstLine member), token, c, isToken, isLast,
    ?_, position_eq⟩
  -- The last token ends in this line, since no lexeme is empty.
  have nonempty : line ≠ [] := by
    rintro rfl
    rw [← position_eq] at column_eq
    have : token.lexeme.toList.length = 0 := Nat.eq_zero_of_add_eq_zero_left column_eq
    rw [List.eq_nil_of_length_eq_zero this] at isLast
    cases isLast
  obtain ⟨front, rfl⟩ := isSuffix
  rw [List.getLast?_append_of_ne_nil _ nonempty] at isLast'
  exact isLast'

/-- The diagnostic of a rejected text has five lines, and one more with the advice if there is any.
    It quotes the line of the text that has the number of the location.  At the column of the
    location stands what the rejection points at, or if it is the end of the input, nothing but
    blanks, and in front of these is the end of the last token. -/
theorem diagnostic_quotes (source : Source) (rejection : Rejection) (named : OneLine source.name)
    (rejected : check source.text = .error rejection) :
    ∃ (lines : List String) (n : Nat) (raw quoted : List Char),
      source.diagnostic rejection = String.join (lines.map (· ++ "\n")) ∧
      (∀ line ∈ lines, OneLine line) ∧
      lines.length = (if rejection.help?.isSome then 6 else 5) ∧
      lines[3]? = some (Source.padNumber (n + 1) ++ " | " ++ String.ofList quoted) ∧
      (source.locate rejection).line = n + 1 ∧
      (source.text.toList.splitOn '\n')[n]? = some raw ∧
      quoted = (if n + 1 < (source.text.toList.splitOn '\n').length then withoutReturn raw
        else raw) ∧
      (source.locate rejection).column ≤ quoted.length ∧
      (rejection.isAtEnd = false → rejection.pointed ≠ [] ∧
        rejection.pointed <+: quoted.drop (source.locate rejection).column) ∧
      (rejection.isAtEnd = true → IsEnd source (source.locate rejection)
        (quoted.take (source.locate rejection).column)
        (quoted.drop (source.locate rejection).column)) := by
  obtain ⟨before, behind, pointsAt, notEnd, atEnd⟩ := exists_pointsAt rejected
  obtain ⟨n, raw, line_eq, found, lineOf_eq⟩ := pointsAt.exists_line
  obtain ⟨line, isSuffix, column_eq, lineOf_eq'⟩ := pointsAt.exists_lineOf
  -- The line is known by its number, and by what stands around the place.
  have quoted_eq := String.ofList_injective (lineOf_eq.symm.trans lineOf_eq')
  refine ⟨source.diagnosticLines rejection, n, raw, _, Source.diagnostic_eq source rejection,
    Source.oneLine_of_mem_diagnosticLines named rejected, ?_, ?_, line_eq, found, rfl, ?_, ?_, ?_⟩
  · cases help : rejection.help? <;> simp [Source.diagnosticLines, help]
  · rw [← lineOf_eq, ← line_eq]
    rfl
  · rw [quoted_eq, column_eq, List.length_append]
    omega
  · intro isNot
    rw [quoted_eq, column_eq, List.drop_left]
    exact ⟨notEnd isNot, List.prefix_append _ _⟩
  · intro isEnd
    obtain ⟨pointed_eq, place⟩ := atEnd isEnd
    rw [quoted_eq, column_eq, List.take_left, List.drop_left, pointed_eq]
    exact place.line isSuffix column_eq

set_option maxRecDepth 4000 in
/-- Where the semicolon is missing in `var a = 1`, the line is quoted with the blank behind it, and
    without the carriage return. -/
theorem diagnostic_quotes_end :
    OneLine "prog.lox" ∧
    check "var a = 1 \r\n" =
      .error (.syntactic (.unexpectedToken [.semicolon] (.endOfInput ⟨1, 9⟩))) ∧
    ∃ (lines : List String) (quoted : List Char),
      Source.diagnostic ⟨"prog.lox", "var a = 1 \r\n"⟩
        (.syntactic (.unexpectedToken [.semicolon] (.endOfInput ⟨1, 9⟩))) =
          String.join (lines.map (· ++ "\n")) ∧
      lines.length = 6 ∧ lines[3]? = some (Source.padNumber 1 ++ " | " ++ String.ofList quoted) ∧
      quoted = "var a = 1 ".toList ∧
      IsEnd ⟨"prog.lox", "var a = 1 \r\n"⟩ ⟨1, 9⟩ (quoted.take 9) (quoted.drop 9) := by
  have rejected : check "var a = 1 \r\n" =
      .error (.syntactic (.unexpectedToken [.semicolon] (.endOfInput ⟨1, 9⟩))) := by
    cbv
  obtain ⟨lines, n, raw, quoted, text_eq, -, length_eq, quote_eq, line_eq, found, quoted_eq, -, -,
    atEnd⟩ := diagnostic_quotes ⟨"prog.lox", "var a = 1 \r\n"⟩ _ (by decide) rejected
  obtain rfl : 0 = n := Nat.succ.inj line_eq
  obtain rfl : "var a = 1 \r".toList = raw := by
    simpa [List.splitOn_cons_eq_if_modifyHead] using found
  refine ⟨by decide, rejected, lines, quoted, text_eq, length_eq, quote_eq, ?_, atEnd rfl⟩
  rw [quoted_eq]
  decide

end LoxSyntax
