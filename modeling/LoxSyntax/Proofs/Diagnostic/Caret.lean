import LoxSyntax.Proofs.Diagnostic.Quotation
import LoxSyntax.Proofs.Lexical.Spacing

/-! # The caret of a diagnostic

The caret has a line of its own, behind a gutter of a fixed width and as many spaces as the column
says.  The gutter of the quoted line holds the line number, with room for three digits, and gets
wider where these do not do.  So the caret stands under the place that a rejection points at in the
first 999 lines only (`diagnostic_caret`), and to the left of it from there on
(`caret_misplaced`). -/

namespace LoxSyntax

open Text

variable {source : Source} {rejection : Rejection}

/-- What a diagnostic shows of a place: its fourth line is a gutter and the quoted line, in which
    the column of the place lies, and its fifth line has the caret. -/
structure ShowsPlace (source : Source) (rejection : Rejection)
    (gutter quoted caretLine : List Char) : Prop where
  quote_eq : ((source.diagnostic rejection).toList.splitOn '\n')[3]? = some (gutter ++ quoted)
  quoted_eq : String.ofList quoted = source.lineOf (source.locate rejection)
  column_le : (source.locate rejection).column ≤ quoted.length
  caret_eq : ((source.diagnostic rejection).toList.splitOn '\n')[4]? = some caretLine
  caret_mem : '^' ∈ caretLine

namespace Source

/-- A number is padded to three digits, and takes more room only if it has more digits. -/
private theorem length_padNumber (n : Nat) :
    (padNumber n).toList.length = 3 + ((Nat.toDigits 10 n).length - 3) := by
  rw [padNumber, Nat.toString_eq_ofList_toDigits]
  simp only [String.toList_append, String.toList_ofList, String.length_ofList, List.length_append,
    List.length_replicate]
  omega

/-- The gutter is as wide as that of the other lines, unless the line number has more than three
    digits. -/
private theorem length_gutter : (source.gutter rejection).toList.length =
    6 + ((Nat.toDigits 10 (source.locate rejection).line).length - 3) := by
  rw [gutter, String.toList_append, List.length_append, length_padNumber]
  show _ + 3 = _
  omega

/-- The caret stands behind a gutter of six characters and the margin. -/
private theorem idxOf_caretLine :
    (source.caretLine rejection).toList.idxOf '^' = 6 + (source.locate rejection).column := by
  have text_eq : (source.caretLine rejection).toList =
      "    | ".toList ++ List.replicate (source.locate rejection).column ' ' ++ ['^'] := by
    simp [caretLine]
  have margin : '^' ∉ "    | ".toList ++ List.replicate (source.locate rejection).column ' ' := by
    simp
  rw [text_eq, List.idxOf_append_of_notMem margin, List.length_append, List.length_replicate]
  rfl

/-- The lines of a diagnostic are found where it is split. -/
private theorem showsPlace (named : OneLine source.name)
    (rejected : check source.text = .error rejection) :
    ShowsPlace source rejection (source.gutter rejection).toList
      (source.lineOf (source.locate rejection)).toList (source.caretLine rejection).toList := by
  have split : (source.diagnostic rejection).toList.splitOn '\n' =
      (source.diagnosticLines rejection).map String.toList ++ [[]] := by
    rw [diagnostic_eq, splitOn_join (oneLine_of_mem_diagnosticLines named rejected)]
  obtain ⟨before, behind, pointsAt, -, -⟩ := exists_pointsAt rejected
  obtain ⟨line, -, column_eq, lineOf_eq⟩ := pointsAt.exists_lineOf
  refine ⟨?_, String.ofList_toList, ?_, ?_, ?_⟩
  · rw [split]
    simp [diagnosticLines]
  · -- The line is at least as long as what stands in front of the place.
    rw [column_eq, lineOf_eq, String.toList_ofList, List.length_append]
    omega
  · rw [split]
    simp [diagnosticLines]
  · simp [caretLine]

end Source

/-- The caret of a diagnostic is as far to the left of the place that the rejection points at as the
    line number has digits more than three.  So it stands under that place exactly if the line
    number is less than a thousand. -/
theorem diagnostic_caret (source : Source) (rejection : Rejection) (named : OneLine source.name)
    (rejected : check source.text = .error rejection) :
    ∃ gutter quoted caretLine, ShowsPlace source rejection gutter quoted caretLine ∧
      caretLine.idxOf '^' + ((Nat.toDigits 10 (source.locate rejection).line).length - 3) =
        gutter.length + (source.locate rejection).column ∧
      (caretLine.idxOf '^' = gutter.length + (source.locate rejection).column ↔
        (source.locate rejection).line < 1000) := by
  refine ⟨_, _, _, Source.showsPlace named rejected, ?_, ?_⟩
  · rw [Source.idxOf_caretLine, Source.length_gutter]
    omega
  · -- A number has at most three digits exactly if it is less than a thousand.
    have digits := Nat.length_toDigits_le_iff (b := 10) (k := 3)
      (n := (source.locate rejection).line) (by omega) (by omega)
    rw [Source.idxOf_caretLine, Source.length_gutter]
    omega

set_option maxRecDepth 4000 in
/-- The caret stands under the end of the text, where the semicolon is missing. -/
theorem diagnostic_caret_end :
    check "var a = 1 \r\n" =
      .error (.syntactic (.unexpectedToken [.semicolon] (.endOfInput ⟨1, 9⟩))) ∧
    ∃ gutter quoted caretLine, ShowsPlace ⟨"prog.lox", "var a = 1 \r\n"⟩
        (.syntactic (.unexpectedToken [.semicolon] (.endOfInput ⟨1, 9⟩))) gutter quoted caretLine ∧
      caretLine.idxOf '^' = gutter.length + 9 := by
  have rejected : check "var a = 1 \r\n" =
      .error (.syntactic (.unexpectedToken [.semicolon] (.endOfInput ⟨1, 9⟩))) := by
    cbv
  obtain ⟨gutter, quoted, caretLine, shows, -, aligned⟩ :=
    diagnostic_caret ⟨"prog.lox", "var a = 1 \r\n"⟩ _ (by decide) rejected
  exact ⟨rejected, gutter, quoted, caretLine, shows, aligned.mpr (by decide)⟩

/-! ## A line behind the 999th -/

/-- A number sign behind some empty lines. -/
def signBehindLines (n : Nat) : String := String.ofList (List.replicate n '\n' ++ ['#'])

/-- Walking over newlines moves down a line for each. -/
private theorem skip_newlines (line n : Nat) :
    Position.skip ⟨line, 0⟩ (List.replicate n '\n') = ⟨line + n, 0⟩ := by
  induction n generalizing line with
  | zero => rfl
  | succ n ih =>
    rw [List.replicate_succ, Position.skip_cons, Position.advance, if_pos rfl, ih, Nat.add_assoc,
      Nat.add_comm 1 n]

/-- Behind as many newlines as lines are dropped, the text goes on. -/
private theorem dropLines_newlines (n : Nat) (text : List Char) :
    dropLines n (List.replicate n '\n' ++ text) = text := by
  induction n with
  | zero => rfl
  | succ n ih =>
    have next : dropLines (n + 1) ([] ++ '\n' :: (List.replicate n '\n' ++ text)) =
        dropLines n (List.replicate n '\n' ++ text) :=
      dropLines_append_newline List.not_mem_nil
    rw [List.replicate_succ, List.cons_append]
    exact next.trans ih

/-- A number sign begins no token, and is rejected in the line that it stands in. -/
private theorem check_signBehindLines (n : Nat) :
    check (signBehindLines n) = .error (.lexical (.strayCharacter '#' ⟨n + 1, 0⟩)) := by
  have blank : ∀ c ∈ List.replicate n '\n', isBlank c = true := by
    intro c member
    rw [List.eq_of_mem_replicate member]
    exact isBlank_newline
  -- The walk passes over the newlines and cannot go on from there.
  have stuck : Lexical.Stuck ['#'] := by
    intro c isHead
    obtain rfl : '#' = c := Option.some.inj isHead
    decide
  have here_eq : Position.start.skip (List.replicate n '\n') = ⟨n + 1, 0⟩ := by
    rw [Position.start, skip_newlines, Nat.add_comm]
  have reads : Lexical.Reads ⟨(signBehindLines n).toList, .start, .start⟩ []
      ⟨['#'], ⟨n + 1, 0⟩, .start⟩ := by
    rw [signBehindLines, String.toList_ofList]
    apply Lexical.Reads.blanks blank
    rw [here_eq]
    exact .done
  rw [check, tokenize, Lexical.scan_of_reads reads stuck]
  rfl

/-- The sign is all that there is on its line. -/
private theorem lineAt_signBehindLines (n : Nat) : lineAt (signBehindLines n) n = "#" := by
  rw [lineAt, signBehindLines, String.toList_ofList, dropLines_newlines]
  rfl

/-- In line 1000 the caret is one character to the left of the number sign. -/
theorem caret_misplaced :
    check (signBehindLines 999) = .error (.lexical (.strayCharacter '#' ⟨1000, 0⟩)) ∧
    ShowsPlace ⟨"prog.lox", signBehindLines 999⟩ (.lexical (.strayCharacter '#' ⟨1000, 0⟩))
      "1000 | ".toList ['#'] "    | ^".toList ∧
    "    | ^".toList.idxOf '^' ≠ "1000 | ".toList.length + (Source.locate
      ⟨"prog.lox", signBehindLines 999⟩ (.lexical (.strayCharacter '#' ⟨1000, 0⟩))).column := by
  have rejected := check_signBehindLines 999
  have named : OneLine (Source.name ⟨"prog.lox", signBehindLines 999⟩) := by decide
  have shows := Source.showsPlace named rejected
  have quoted_eq : (Source.lineOf ⟨"prog.lox", signBehindLines 999⟩ ⟨1000, 0⟩).toList = ['#'] :=
    congrArg String.toList (lineAt_signBehindLines 999)
  have gutter_eq : (Source.padNumber 1000 ++ " | ").toList = "1000 | ".toList := by decide
  refine ⟨rejected, ?_, by decide⟩
  -- The place is shown as any other, but behind a gutter that is too wide.
  rw [← gutter_eq, ← quoted_eq]
  exact shows

end LoxSyntax
