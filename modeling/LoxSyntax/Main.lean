import LoxSyntax.CommandLine.Response

/-! # The program

Reads the input of the command, and prints what the command answers. -/

namespace LoxSyntax.CommandLine

/-- The reason for which the operating system refused to give a file. -/
def ReadError.ofSystem : IO.Error → ReadError
  | .noFileOrDirectory .. => .noSuchFile
  | .permissionDenied .. => .permissionDenied
  | .inappropriateType _ code _ => if code = 21 then .isADirectory else .notADirectory
  | error => .other (toString error)

/-- Reads what is left of a stream. -/
partial def readToEnd (stream : IO.FS.Stream) (bytes : ByteArray) : IO ByteArray := do
  let more ← stream.read 65536
  if more.isEmpty then return bytes else readToEnd stream (bytes ++ more)

/-- Reads the text of an input. -/
def readInput (input : Input) : IO (Except ReadError String) := do
  try
    match input with
    | .standardInput => return decodeText (← readToEnd (← IO.getStdin) .empty)
    | .file path => return decodeText (← IO.FS.readBinFile path)
  catch error =>
    return .error (.ofSystem error)

end LoxSyntax.CommandLine

/-- Runs the command and exits with its status. -/
def main (arguments : List String) : IO UInt32 := do
  let response ← LoxSyntax.CommandLine.run LoxSyntax.CommandLine.readInput arguments
  let stderr ← IO.getStderr
  for line in response.log do
    stderr.putStrLn line
  stderr.putStr response.stderr
  (← IO.getStdout).putStr response.stdout
  return response.status.code.toUInt32
