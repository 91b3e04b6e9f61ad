import LoxSyntax.Recognizer.Error
import LoxSyntax.Recognizer.Plan

/-! # Lookahead

What the recognizer can see of a sequence of tokens from an index: the kind of the token that
stands there, and whether the marker for the end of the input has been reached or taken.  Only
kinds decide; whole tokens are looked at for the sake of error messages alone. -/

namespace LoxSyntax.Recognizer

/-- The kind of the token at an index. -/
def kindAt? (tokens : Array Token) (index : Nat) : Option Kind := tokens[index]?.map (·.kind)

/-- Whether there is a token at an index and it is of one of these kinds. -/
def nextIs (tokens : Array Token) (index : Nat) (kinds : List Kind) : Bool :=
  (kindAt? tokens index).any (kinds.contains ·)

/-- Whether the token at an index is the marker for the end of the input, or there is none. -/
def atEnd (tokens : Array Token) (index : Nat) : Bool :=
  (kindAt? tokens index).all (· == .endOfInput)

/-- Whether the last token before an index is the marker for the end of the input. -/
def endTaken (tokens : Array Token) (index : Nat) : Bool :=
  0 < index && kindAt? tokens (index - 1) == some .endOfInput

/-- The error at an index where a token of one of these kinds is asked for and none stands. -/
def mismatch (tokens : Array Token) (index : Nat) (kinds : List Kind) : SyntaxError :=
  match tokens[index]? with
  | some found => .unexpectedToken kinds found
  | none => .noTokenLeft kinds

/-- The error at an index where an expression is asked for and none begins. -/
def missingExpression (tokens : Array Token) (index : Nat) : SyntaxError :=
  match tokens[index]? with
  | some found => .noExpression found
  | none => .noTokenLeft Kind.primaryStarts

/-- A token that is of one of some kinds stands within the sequence. -/
theorem lt_size_of_nextIs {tokens : Array Token} {index : Nat} {kinds : List Kind}
    (h : nextIs tokens index kinds = true) : index < tokens.size := by
  by_cases within : index < tokens.size
  · exact within
  · rw [nextIs, kindAt?, Array.getElem?_eq_none (Nat.le_of_not_lt within)] at h
    nomatch h

end LoxSyntax.Recognizer
