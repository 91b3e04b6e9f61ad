import LoxSyntax.Json.Encode
import LoxSyntax.Text.Line

/-! # Diagnostics

A diagnostic tells the user why a source text was rejected and shows the place: it quotes the line
and puts a caret under the offending character.  `report` is the same as JSON, and covers accepted
source texts too. -/

namespace LoxSyntax

/-- A source text and the name of the place it was read from. -/
structure Source where
  name : String
  text : String

namespace Source

/-- The place that a rejection points at, which is the end of the last token if all tokens were
    used up. -/
def locate (source : Source) (rejection : Rejection) : Position :=
  rejection.position?.getD (Position.endOf (Text.trimEnd source.text))

/-- The source line of a position. -/
def lineOf (source : Source) (position : Position) : String :=
  Text.lineAt source.text (position.line - 1)

/-- A number with spaces before it, if it has fewer than three digits. -/
def padNumber (n : Nat) : String :=
  let digits := toString n
  String.ofList (List.replicate (3 - digits.length) ' ') ++ digits

/-- The text of a diagnostic. -/
def diagnostic (source : Source) (rejection : Rejection) : String :=
  let position := source.locate rejection
  let margin := String.ofList (List.replicate position.column ' ')
  s!"error[{rejection.code}]: {rejection.message}\n" ++
  s!"  --> {source.name}:{position.render}\n" ++
  "    |\n" ++
  s!"{padNumber position.line} | {source.lineOf position}\n" ++
  s!"    | {margin}^\n" ++
  match rejection.help? with
  | some help => s!"help: {help}\n"
  | none => ""

/-- The outcome of a check as JSON, with lines and columns counted from one. -/
def report (source : Source) (outcome : Except Rejection Unit) : Json :=
  match outcome with
  | .ok () => .object [("file", .string source.name), ("accepted", .bool true)]
  | .error rejection =>
    let position := source.locate rejection
    .object [("file", .string source.name), ("accepted", .bool false),
      ("error", .object [
        ("code", .string rejection.code),
        ("message", .string rejection.message),
        ("line", .number position.line),
        ("column", .number (position.column + 1)),
        ("help", .ofText? rejection.help?),
        ("detail", rejection.toJson)])]

end Source

end LoxSyntax
