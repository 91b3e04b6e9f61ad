import LoxSyntax.CommandLine.Response
import LoxSyntax.Proofs.Check.Accepted
import LoxSyntax.Proofs.Json.Recover
import LoxSyntax.Proofs.Json.RoundTrip

/-! # What the command prints as JSON can be read back

A list of tokens and the outcome of a check are written as JSON texts, on several lines and on one.
The text of each is read as a value (`decode`), and from the value everything that went into it is
recovered (`Token.ofJson?`, `Outcome.ofJson?`). -/

namespace LoxSyntax.CommandLine

open Json

variable {options : Options} {source : Source}

/-- The text of some tokens is that of an array with one object for each token. -/
private theorem exists_decode_tokens (tokens : List Token) : ∃ items,
    decode ((Token.listToJson tokens).pretty ++ "\n") = some (.array items) ∧
      items.map Token.ofJson? = tokens.map some := by
  refine ⟨tokens.map Token.toJson, decode_pretty _, ?_⟩
  rw [List.map_map]
  exact List.map_congr_left fun token _ => Token.ofJson?_toJson token

/-- The text of an outcome is that of an object. -/
private theorem exists_decode_report (source : Source) (outcome : Except Rejection Unit) :
    ∃ members,
    decode ((source.report outcome).sorted.compact ++ "\n") = some (.object members) ∧
      Outcome.ofJson? (.object members) = some (source.outcome outcome) := by
  obtain ⟨members, object⟩ : ∃ members, (source.report outcome).sorted = .object members := by
    cases outcome <;> exact ⟨_, rfl⟩
  refine ⟨members, ?_, ?_⟩
  · rw [decode_compact, object]
  · -- Members are found by their names, so it does not matter that they were sorted before writing.
    rw [← object, Outcome.orderFree_ofJson?, Outcome.ofJson?_report]

namespace Response

/-- The tokens that are asked for are printed on several lines. -/
private theorem stdout_ofTokens {tokens : List Token} (wanted : options.tokens = true)
    (scanned : tokenize source.text = .ok tokens) :
    (ofSource options source).stdout = (Token.listToJson tokens).pretty ++ "\n" := by
  simp [ofSource, wanted, ofTokens, scanned]

/-- Where the tokens are not listed, the outcome of the check is printed. -/
theorem stdout_ofJson (wanted : options.json = true)
    (unlisted : options.tokens = true → ∀ tokens, tokenize source.text ≠ .ok tokens) :
    (ofSource options source).stdout =
      (source.report (check source.text)).sorted.compact ++ "\n" := by
  rw [ofSource]
  split
  · next listed =>
    cases scanned : tokenize source.text with
    -- Where the list of tokens is printed, there is no JSON of an outcome.
    | ok tokens => exact absurd scanned (unlisted listed tokens)
    | error error => simp [ofTokens, scanned, ofRejection, wanted, check]
  · cases outcome : check source.text <;> simp [ofCheck, outcome, ofRejection, wanted]

/-- Tokens are recovered from the list of them.  Where no tokens are listed, the file name, the
    verdict and all that is told of a rejection, the rejection itself included, are recovered from
    the outcome as JSON. -/
theorem decode_stdout (options : Options) (source : Source) :
    (options.tokens = true → ∀ tokens, tokenize source.text = .ok tokens → ∃ items,
      decode (ofSource options source).stdout = some (.array items) ∧
        items.map Token.ofJson? = tokens.map some) ∧
    (options.json = true →
      (options.tokens = true → ∀ tokens, tokenize source.text ≠ .ok tokens) → ∃ members,
        decode (ofSource options source).stdout = some (.object members) ∧
          Outcome.ofJson? (.object members) = some (source.outcome (check source.text))) := by
  constructor
  · intro wanted tokens scanned
    rw [stdout_ofTokens wanted scanned]
    exact exists_decode_tokens tokens
  · intro wanted unlisted
    rw [stdout_ofJson wanted unlisted]
    exact exists_decode_report source (check source.text)

set_option maxRecDepth 4000 in
/-- Two strings with backslashes and control characters next to each other, in a file with a
    quotation mark in its name. -/
theorem decode_stdout_strings :
    (tokenize "\"\\\" \"\t\u0001\"" = .ok [⟨.string, "\"\\\"", ⟨1, 0⟩⟩,
        ⟨.string, "\"\t\u0001\"", ⟨1, 4⟩⟩, ⟨.endOfInput, "", ⟨1, 8⟩⟩] ∧
      ∃ items, decode (ofSource ⟨some "a", true, false, false, false⟩
          ⟨"a\".lox", "\"\\\" \"\t\u0001\""⟩).stdout = some (.array items) ∧
        items.map Token.ofJson? = [some ⟨.string, "\"\\\"", ⟨1, 0⟩⟩,
          some ⟨.string, "\"\t\u0001\"", ⟨1, 4⟩⟩, some ⟨.endOfInput, "", ⟨1, 8⟩⟩]) ∧
    (check "\"\\\" \"\t\u0001\"" =
        .error (.syntactic (.unexpectedToken [.semicolon] ⟨.string, "\"\t\u0001\"", ⟨1, 4⟩⟩)) ∧
      ∃ members, decode (ofSource ⟨some "a", false, true, false, false⟩
          ⟨"a\".lox", "\"\\\" \"\t\u0001\""⟩).stdout = some (.object members) ∧
        Outcome.ofJson? (.object members) = some ((Source.mk "a\".lox"
          "\"\\\" \"\t\u0001\"").outcome (check "\"\\\" \"\t\u0001\""))) := by
  have scanned : tokenize "\"\\\" \"\t\u0001\"" = .ok [⟨.string, "\"\\\"", ⟨1, 0⟩⟩,
      ⟨.string, "\"\t\u0001\"", ⟨1, 4⟩⟩, ⟨.endOfInput, "", ⟨1, 8⟩⟩] := by cbv
  refine ⟨⟨scanned, ?_⟩, ?_, ?_⟩
  · exact (decode_stdout ⟨some "a", true, false, false, false⟩
      ⟨"a\".lox", "\"\\\" \"\t\u0001\""⟩).1 rfl _ scanned
  · rw [check_of_tokenize scanned]
    cbv
  · exact (decode_stdout ⟨some "a", false, true, false, false⟩
      ⟨"a\".lox", "\"\\\" \"\t\u0001\""⟩).2 rfl
      (fun listed => absurd listed Bool.false_ne_true)

end Response

end LoxSyntax.CommandLine
