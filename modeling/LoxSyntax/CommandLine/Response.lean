import LoxSyntax.Check
import LoxSyntax.CommandLine.Input
import LoxSyntax.CommandLine.Options
import LoxSyntax.Diagnostic
import LoxSyntax.Json.Write
import LoxSyntax.Trace

/-! # The command

`run` is the whole command but for the reading of its input, which it leaves to its caller.  It
answers with what is to be printed and with the exit status. -/

namespace LoxSyntax.CommandLine

/-- How a run of the command ended. -/
inductive Status where
  /-- The text was accepted, or what was asked for has been printed. -/
  | success
  /-- The text was rejected. -/
  | rejected
  /-- The arguments were wrong, or the text could not be read. -/
  | failure
  deriving DecidableEq

/-- The exit status as a number. -/
def Status.code : Status → UInt8
  | success => 0
  | rejected => 1
  | failure => 2

/-- What the command prints and how it ends.  The lines of the log belong on the standard error,
    before what else stands there. -/
structure Response where
  status : Status
  stdout : String
  stderr : String
  log : List String

/-- How to use the command. -/
def usage : String :=
  "Usage: loxcheck [OPTIONS] <FILE | ->\n" ++
  "\n" ++
  "Options:\n" ++
  "  --tokens     Print the token sequence as JSON and exit\n" ++
  "  --json       Print the outcome as JSON instead of a diagnostic\n" ++
  "  --trace      Log grammar procedure entry/exit to stderr\n" ++
  "  -h, --help   Show this message\n" ++
  "\n" ++
  "Exit status: 0 accepted, 1 rejected, 2 usage or I/O error.\n" ++
  "Set RUST_LOG (e.g. RUST_LOG=loxcheck=debug) to control logging.\n"

namespace Response

/-- The answer to wrong arguments. -/
def ofUsageError (error : UsageError) : Response :=
  ⟨.failure, "", s!"error: {error.message}\n\n{usage}", []⟩

/-- The answer where the text cannot be read. -/
def ofReadError (path : String) (error : ReadError) : Response :=
  ⟨.failure, "", s!"error: cannot read '{path}': {error.message}\n", []⟩

/-- The answer that gives a rejection. -/
def ofRejection (source : Source) (json : Bool) (rejection : Rejection) (log : List String) :
    Response :=
  if json then
    ⟨.rejected, (source.report (.error rejection)).sorted.compact ++ "\n", "", log⟩
  else
    ⟨.rejected, "", source.diagnostic rejection, log⟩

/-- The answer that lists the tokens of a text. -/
def ofTokens (options : Options) (source : Source) : Response :=
  let log := if options.trace then (Trace.ofTokenize source.text).map (·.render) else []
  match tokenize source.text with
  | .error error => ofRejection source options.json (.lexical error) log
  | .ok tokens => ⟨.success, (Token.listToJson tokens).pretty ++ "\n", "", log⟩

/-- The answer that gives the outcome of a check. -/
def ofCheck (options : Options) (source : Source) : Response :=
  let outcome := check source.text
  let log :=
    if options.trace then
      (Trace.ofCheck source.text).map (·.render) ++
        [Trace.renderFinished source.name outcome.toBool]
    else
      []
  match outcome with
  | .error rejection => ofRejection source options.json rejection log
  | .ok () =>
    if options.json then
      ⟨.success, (source.report (.ok ())).sorted.compact ++ "\n", "", log⟩
    else
      ⟨.success, s!"{source.name}: ok\n", "", log⟩

/-- The answer about a text that was read. -/
def ofSource (options : Options) (source : Source) : Response :=
  if options.tokens then ofTokens options source else ofCheck options source

end Response

/-- Runs the command on some arguments.  Of the input that they name, `read` gives the text. -/
def run {m : Type → Type} [Monad m] (read : Input → m (Except ReadError String))
    (arguments : List String) : m Response := do
  match Options.ofArguments arguments with
  | .error error => return .ofUsageError error
  | .ok options =>
    if options.help then
      return ⟨.success, usage, "", []⟩
    match options.path with
    | none => return .ofUsageError .noPath
    | some path =>
      let input := Input.ofPath path
      match ← read input with
      | .error error => return .ofReadError path error
      | .ok text => return .ofSource options ⟨input.name, text⟩

end LoxSyntax.CommandLine
