/-! # Input of the command

The command reads one text, from a file or from the standard input. -/

namespace LoxSyntax.CommandLine

/-- Where a text is read from. -/
inductive Input where
  | standardInput
  | file (path : String)
  deriving DecidableEq

namespace Input

/-- The input that a path stands for: a single hyphen stands for the standard input. -/
def ofPath (path : String) : Input := if path = "-" then standardInput else file path

/-- The name of the input in messages about its text. -/
def name : Input → String
  | standardInput => "<stdin>"
  | file path => path

end Input

/-- Why a text cannot be read. -/
inductive ReadError where
  | noSuchFile
  | permissionDenied
  | notADirectory
  | isADirectory
  | notUtf8
  | other (reason : String)
  deriving DecidableEq

/-- The error as it is told to the user. -/
def ReadError.message : ReadError → String
  | noSuchFile => "No such file or directory (os error 2)"
  | permissionDenied => "Permission denied (os error 13)"
  | notADirectory => "Not a directory (os error 20)"
  | isADirectory => "Is a directory (os error 21)"
  | notUtf8 => "stream did not contain valid UTF-8"
  | other reason => reason

/-- The text that some bytes encode. -/
def decodeText (bytes : ByteArray) : Except ReadError String :=
  match String.fromUTF8? bytes with
  | some text => .ok text
  | none => .error .notUtf8

end LoxSyntax.CommandLine
