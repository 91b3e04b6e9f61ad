import LoxSyntax.Lexical.Tokenize
import LoxSyntax.Recognizer.Machine

/-! # Traces

A trace is the record of a check: the tokens in the order in which they were found, the result of
splitting the text, and the events of the recognition.  The nonterminals that are entered and left
form its outline.  The lines of a trace tell what happened; times, colours and other ornaments of a
log are left to whoever writes them. -/

namespace LoxSyntax.Trace

open Recognizer

/-- A step of a check. -/
inductive Entry where
  /-- A token was found in the source text. -/
  | scanned (token : Token)
  /-- The whole source text was split into this many tokens. -/
  | split (count : Nat)
  /-- The source text could not be split into tokens. -/
  | notSplit (error : LexicalError)
  /-- The recognizer did something. -/
  | recognition (event : Event)

/-- Some kinds as traces list them. -/
def renderKinds (kinds : List Kind) : String :=
  "[" ++ ", ".intercalate (kinds.map Kind.title) ++ "]"

/-- The kind of a token that may be missing. -/
def renderFound : Option Kind → String
  | some kind => "Some(" ++ kind.title ++ ")"
  | none => "None"

/-- A comparison of the next token with some kinds. -/
def renderTest (name : String) (kinds : List Kind) (found : Option Kind) (index : Nat) : String :=
  s!"TRACE {name} expected={renderKinds kinds} found={renderFound found} pos={index}"

/-- A nonterminal and the index at which it was entered, which goes without saying for a whole
    program. -/
def renderVisit (n : Nonterminal) (index : Nat) : String :=
  match n with
  | .program => n.name
  | _ => s!"{n.name} pos={index}"

/-- The line of a trace that reports an entry. -/
def Entry.render : Entry → String
  | .scanned token =>
    s!"TRACE token kind={token.kind.title} lexeme={token.lexeme} span={token.position.render}"
  | .split count => s!"DEBUG tokenized source count={count}"
  | .notSplit error => s!"DEBUG tokenization failed err={error.message}"
  | .recognition (.enter n index) => "> " ++ renderVisit n index
  | .recognition (.leave n index) => "< " ++ renderVisit n index
  | .recognition (.look kinds found index) => renderTest "check" kinds found index
  | .recognition (.take kinds found index) => renderTest "consume" kinds found index

/-- The line that closes the log of a check, behind the entries: where the source text was read
    from, and whether it was accepted. -/
def renderFinished (name : String) (accepted : Bool) : String :=
  s!"INFO check finished file={name} accepted={accepted}"

/-- Whether an entry reports that a nonterminal is entered or left. -/
def Entry.isVisit : Entry → Bool
  | .recognition (.enter ..) | .recognition (.leave ..) => true
  | _ => false

/-- The entries of splitting a source text into tokens. -/
def ofTokenize (source : String) : List Entry :=
  let scan := Lexical.scan source
  scan.tokens.map .scanned ++
    [match scan.outcome with
      | .ok _ => .split (scan.tokens.length + 1)
      | .error error => .notSplit error]

/-- The entries of checking a source text. -/
def ofCheck (source : String) : List Entry :=
  match tokenize source with
  | .error _ => ofTokenize source
  | .ok tokens =>
    ofTokenize source ++ (eventsFrom tokens.toArray .program 0).seen.map .recognition

/-- The entries that show the nesting of nonterminals. -/
def outline (entries : List Entry) : List Entry := entries.filter Entry.isVisit

end LoxSyntax.Trace
