import LoxSyntax.Proofs.Diagnostic.Location

/-! # The lines of a diagnostic

A diagnostic has five lines, and a sixth one with the advice if there is any (`diagnostic_eq`).
What a rejection of a text says fits on one line each (`oneLine_of_mem_diagnosticLines`): neither
the lexeme of a token nor a stray character is a newline, and the quoted line has none. -/

namespace LoxSyntax

/-- A text without a newline. -/
def OneLine (text : String) : Prop := '\n' ∉ text.toList

instance (text : String) : Decidable (OneLine text) :=
  inferInstanceAs (Decidable ('\n' ∉ text.toList))

@[simp] theorem oneLine_append {text more : String} :
    OneLine (text ++ more) ↔ OneLine text ∧ OneLine more := by
  simp [OneLine]

@[simp] theorem oneLine_ofList {text : List Char} : OneLine (String.ofList text) ↔ '\n' ∉ text := by
  simp [OneLine]

/-- A number is written with digits. -/
@[simp] theorem oneLine_toString (n : Nat) : OneLine (toString n) := by
  rw [Nat.toString_eq_ofList_toDigits, oneLine_ofList]
  intro newline
  have := Nat.isDigit_of_mem_toDigits (by omega) (by omega) newline
  exact absurd this (by decide)

/-- Parts and separators of one line each make up one line. -/
private theorem oneLine_intercalate {separator : String} {parts : List String}
    (h : OneLine separator)
    (h' : ∀ part ∈ parts, OneLine part) : OneLine (separator.intercalate parts) := by
  induction parts with
  | nil => simp [OneLine]
  | cons part parts ih =>
    obtain ⟨first, others⟩ := List.forall_mem_cons.mp h'
    cases parts with
    | nil => simpa using first
    | cons next parts =>
      rw [String.intercalate_cons_cons]
      simp [first, h, ih others]

/-- Lines that each end with a newline are found again where the text is split. -/
theorem splitOn_join {lines : List String} (h : ∀ line ∈ lines, OneLine line) :
    (String.join (lines.map (· ++ "\n"))).toList.splitOn '\n' =
      lines.map String.toList ++ [[]] := by
  induction lines with
  | nil => rfl
  | cons line lines ih =>
    obtain ⟨first, others⟩ := List.forall_mem_cons.mp h
    -- The first line ends at the first newline.
    have text_eq : (String.join ((line :: lines).map (· ++ "\n"))).toList =
        line.toList ++ '\n' :: (String.join (lines.map (· ++ "\n"))).toList := by
      simp [String.join_cons]
    rw [text_eq, List.splitOn_append_cons_self_of_not_mem first, ih others]
    rfl

/-! ## Messages -/

/-- The names of kinds fit on one line. -/
private theorem oneLine_describe (kind : Kind) : OneLine kind.describe := by
  have checked : ∀ kind ∈ Kind.all, OneLine kind.describe := by decide +kernel
  exact checked kind kind.mem_all

/-- What is asked for is told on one line. -/
private theorem oneLine_describeExpected (kinds : List Kind) :
    OneLine (SyntaxError.describeExpected kinds) := by
  unfold SyntaxError.describeExpected
  split
  · decide
  · exact oneLine_describe _
  · have separator : OneLine " or " := by decide +kernel
    simp [oneLine_describe, separator]
  · have start : OneLine "one of " := by decide +kernel
    rw [oneLine_append]
    -- Three kinds or more are listed with commas between them.
    refine ⟨start, oneLine_intercalate (by decide) ?_⟩
    simp [oneLine_describe]

/-- A token is named on one line if its lexeme is on one. -/
private theorem oneLine_token {token : Token} (h : OneLine token.lexeme) :
    OneLine token.describe := by
  unfold Token.describe
  split
  · exact oneLine_describe _
  · have mark : OneLine "'" := by decide +kernel
    simp [h, mark]

namespace Rejection

variable {rejection : Rejection}

/-- Codes fit on one line. -/
private theorem oneLine_code : OneLine rejection.code := by
  unfold code
  split <;> decide

/-- Each piece of advice fits on one line. -/
private theorem oneLine_help : ∀ help ∈ rejection.help?, OneLine help := by
  have strings : OneLine "strings must be closed with '\"' on the line they start" := by
    decide +kernel
  have statement : OneLine "add ';' to terminate the statement" := by decide +kernel
  have block : OneLine "a block is still open; close it with '\x7d'" := by decide
  unfold help?
  split
  · simp [strings]
  · simp
  · split_ifs <;> simp [statement, block]
  · split_ifs <;> simp [block]
  · simp

/-- A message names what the rejection points at. -/
private theorem oneLine_message (h : '\n' ∉ rejection.pointed) : OneLine rejection.message := by
  cases rejection with
  | lexical error =>
    cases error with
    | strayCharacter c =>
      -- The character is what is pointed at, so it is no newline.
      have named : OneLine c.toString := by simpa [OneLine, pointed] using h
      show OneLine ("unexpected character '" ++ c.toString ++ "'")
      simp only [oneLine_append]
      exact ⟨⟨by decide, named⟩, by decide⟩
    | unclosedString =>
      show OneLine "unterminated string"
      decide
  | syntactic error =>
    cases error with
    | unexpectedToken expected found =>
      show OneLine ("unexpected " ++ found.describe ++ ", expected " ++
        SyntaxError.describeExpected expected)
      simp only [oneLine_append]
      exact ⟨⟨⟨by decide, oneLine_token h⟩, by decide⟩, oneLine_describeExpected expected⟩
    | noTokenLeft expected =>
      show OneLine ("no input left after the final statement, expected " ++
        SyntaxError.describeExpected expected)
      rw [oneLine_append]
      exact ⟨by decide, oneLine_describeExpected expected⟩
    | noExpression found =>
      show OneLine ("unexpected " ++ found.describe ++ ", expected primary expression")
      simp only [oneLine_append]
      exact ⟨⟨by decide, oneLine_token h⟩, by decide⟩

end Rejection

namespace Source

variable {source : Source} {rejection : Rejection}

/-- What stands in front of the quoted line. -/
def gutter (source : Source) (rejection : Rejection) : String :=
  padNumber (source.locate rejection).line ++ " | "

/-- The line of the caret. -/
def caretLine (source : Source) (rejection : Rejection) : String :=
  "    | " ++ String.ofList (List.replicate (source.locate rejection).column ' ') ++ "^"

/-- The lines of a diagnostic. -/
def diagnosticLines (source : Source) (rejection : Rejection) : List String :=
  let position := source.locate rejection
  ["error[" ++ rejection.code ++ "]: " ++ rejection.message,
   "  --> " ++ source.name ++ ":" ++ position.render,
   "    |",
   source.gutter rejection ++ source.lineOf position,
   source.caretLine rejection] ++ (rejection.help?.map ("help: " ++ ·)).toList

/-- A diagnostic is made up of its lines, each of which ends with a newline. -/
theorem diagnostic_eq (source : Source) (rejection : Rejection) :
    source.diagnostic rejection =
      String.join ((source.diagnosticLines rejection).map (· ++ "\n")) := by
  unfold diagnostic diagnosticLines gutter caretLine
  cases rejection.help? with
  | none => simp [← String.toList_inj, toString]
  | some help => simp [← String.toList_inj, toString]

/-- A position is shown on one line. -/
private theorem oneLine_render (position : Position) : OneLine position.render := by
  show OneLine (toString position.line ++ ":" ++ toString (position.column + 1))
  simp only [oneLine_append, oneLine_toString]
  decide

/-- A line number is written on one line. -/
private theorem oneLine_padNumber (n : Nat) : OneLine (padNumber n) := by
  rw [padNumber, oneLine_append, oneLine_ofList]
  exact ⟨by simp, oneLine_toString n⟩

/-- The gutter of the quoted line has no newline. -/
private theorem oneLine_gutter : OneLine (source.gutter rejection) := by
  rw [gutter, oneLine_append]
  exact ⟨oneLine_padNumber _, by decide⟩

/-- The line of the caret is one line. -/
private theorem oneLine_caretLine : OneLine (source.caretLine rejection) := by
  have margin (n : Nat) : OneLine (String.ofList (.replicate n ' ')) := by simp
  simp only [caretLine, oneLine_append, margin]
  decide

/-- The quoted line is one line. -/
private theorem oneLine_lineOf (source : Source) (position : Position) :
    OneLine (source.lineOf position) := by
  rw [lineOf, Text.lineAt, oneLine_ofList]
  exact Text.newline_not_mem_firstLine _

/-- The lines of a diagnostic of a rejected text have no newlines in them. -/
theorem oneLine_of_mem_diagnosticLines (named : OneLine source.name)
    (rejected : check source.text = .error rejection) :
    ∀ line ∈ source.diagnosticLines rejection, OneLine line := by
  obtain ⟨before, behind, pointsAt, -, -⟩ := exists_pointsAt rejected
  have message := Rejection.oneLine_message pointsAt.one_line
  rw [diagnosticLines, List.forall_mem_append]
  constructor
  · simp only [List.forall_mem_cons, oneLine_append, Rejection.oneLine_code, message, named,
      oneLine_render, oneLine_gutter, oneLine_lineOf, oneLine_caretLine]
    decide
  · -- The sixth line gives the advice, if there is any.
    intro line member
    obtain ⟨help, given, rfl⟩ := Option.map_eq_some_iff.mp (Option.mem_toList.mp member)
    rw [oneLine_append]
    exact ⟨by decide, Rejection.oneLine_help help given⟩

end Source

end LoxSyntax
