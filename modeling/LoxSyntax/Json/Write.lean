import LoxSyntax.Json.Basic

/-! # Writing JSON

A value is written on one line, or spread over several with two spaces of indentation for each
level.  In strings only quotation marks, backslashes and control characters are escaped; all other
characters stand for themselves. -/

namespace LoxSyntax.Json

/-- What stands between the parts of arrays and objects. -/
structure Layout where
  /-- Whether each item and each member begins a line of its own. -/
  spread : Bool

namespace Layout

/-- Everything on one line, without spaces. -/
def compact : Layout := ⟨false⟩

/-- Each item and each member on a line of its own. -/
def indented : Layout := ⟨true⟩

/-- What stands before an item or a closing bracket that is `depth` levels deep. -/
def lineBreak (layout : Layout) (depth : Nat) : String :=
  if layout.spread then String.ofList ('\n' :: List.replicate (2 * depth) ' ') else ""

/-- What stands between the name of a member and its value. -/
def colon (layout : Layout) : String := if layout.spread then ": " else ":"

end Layout

/-- A digit of a hexadecimal number, in lower case. -/
def hexDigit (n : Nat) : Char := if n < 10 then Char.ofNat (48 + n) else Char.ofNat (87 + n)

/-- A character as it is written within a string. -/
def escape (c : Char) : List Char :=
  if c = '"' then ['\\', '"']
  else if c = '\\' then ['\\', '\\']
  else if c = '\n' then ['\\', 'n']
  else if c = '\r' then ['\\', 'r']
  else if c = '\t' then ['\\', 't']
  else if c.toNat = 8 then ['\\', 'b']
  else if c.toNat = 12 then ['\\', 'f']
  else if c.toNat < 32 then ['\\', 'u', '0', '0', hexDigit (c.toNat / 16), hexDigit (c.toNat % 16)]
  else [c]

/-- A text in quotation marks. -/
def quote (text : String) : String :=
  "\"" ++ String.ofList (text.toList.flatMap escape) ++ "\""

mutual

/-- Appends a value to what has been written. -/
def write (layout : Layout) (depth : Nat) (out : String) : Json → String
  | null => out ++ "null"
  | bool value => out ++ (if value then "true" else "false")
  | number value => out ++ toString value
  | string value => out ++ quote value
  | array [] => out ++ "[]"
  | array (item :: rest) =>
    let first := write layout (depth + 1) (out ++ "[" ++ layout.lineBreak (depth + 1)) item
    writeItems layout (depth + 1) first rest ++ layout.lineBreak depth ++ "]"
  | object [] => out ++ "\x7b\x7d"
  | object ((name, value) :: rest) =>
    let first := write layout (depth + 1)
      (out ++ "\x7b" ++ layout.lineBreak (depth + 1) ++ quote name ++ layout.colon) value
    writeMembers layout (depth + 1) first rest ++ layout.lineBreak depth ++ "\x7d"

/-- Appends the items of an array that follow its first one. -/
def writeItems (layout : Layout) (depth : Nat) (out : String) : List Json → String
  | [] => out
  | item :: rest =>
    let next := write layout depth (out ++ "," ++ layout.lineBreak depth) item
    writeItems layout depth next rest

/-- Appends the members of an object that follow its first one. -/
def writeMembers (layout : Layout) (depth : Nat) (out : String) : List (String × Json) → String
  | [] => out
  | (name, value) :: rest =>
    let next := write layout depth
      (out ++ "," ++ layout.lineBreak depth ++ quote name ++ layout.colon) value
    writeMembers layout depth next rest

end

/-- A value as a text of one line. -/
def compact (value : Json) : String := value.write .compact 0 ""

/-- A value as a text of several lines. -/
def pretty (value : Json) : String := value.write .indented 0 ""

end LoxSyntax.Json
