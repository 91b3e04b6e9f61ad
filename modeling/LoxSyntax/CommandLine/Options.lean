/-! # Arguments of the command

The arguments are read from left to right, and the first bad one decides.  Options may stand before
and behind the path; only what begins with two hyphens is taken for an option, `-h` apart. -/

namespace LoxSyntax.CommandLine

/-- Why the arguments cannot be followed. -/
inductive UsageError where
  /-- An argument begins with two hyphens and is no option. -/
  | unknownOption (argument : String)
  /-- An argument is a second path. -/
  | secondPath (argument : String)
  /-- There is no path. -/
  | noPath
  deriving DecidableEq

/-- The error as it is told to the user. -/
def UsageError.message : UsageError → String
  | unknownOption argument => s!"unknown option '{argument}'"
  | secondPath argument => s!"unexpected argument '{argument}'"
  | noPath => "missing file path"

/-- What the arguments ask for. -/
structure Options where
  path : Option String
  tokens : Bool
  json : Bool
  trace : Bool
  help : Bool
  deriving DecidableEq

namespace Options

/-- The options of an empty list of arguments. -/
def none : Options := ⟨Option.none, false, false, false, false⟩

/-- Whether an argument begins with two hyphens. -/
def looksLikeOption (argument : String) : Bool := ['-', '-'].isPrefixOf argument.toList

/-- Adds an argument to options. -/
def add (options : Options) (argument : String) : Except UsageError Options :=
  if argument = "--tokens" then .ok { options with tokens := true }
  else if argument = "--json" then .ok { options with json := true }
  else if argument = "--trace" then .ok { options with trace := true }
  else if argument = "-h" || argument = "--help" then .ok { options with help := true }
  else if looksLikeOption argument then .error (.unknownOption argument)
  else if options.path.isSome then .error (.secondPath argument)
  else .ok { options with path := some argument }

/-- Adds some arguments to options, from left to right. -/
def addAll (options : Options) : List String → Except UsageError Options
  | [] => .ok options
  | argument :: rest =>
    match options.add argument with
    | .ok options => options.addAll rest
    | .error error => .error error

/-- The options of a list of arguments. -/
def ofArguments (arguments : List String) : Except UsageError Options := none.addAll arguments

end Options

end LoxSyntax.CommandLine
