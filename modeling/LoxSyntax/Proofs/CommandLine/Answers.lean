import LoxSyntax.Proofs.CommandLine.Decoding
import LoxSyntax.Proofs.CommandLine.Flags

/-! # What the command answers

The command answers on one of its two streams, and the exit status says on which
(`Response.Orderly`).  What asks for a log or for JSON makes the same difference wherever it stands
among the arguments (`answer_insert`).  All in all, `answer_disciplined` says what the exit status
and the two streams tell about the arguments and the text. -/

namespace LoxSyntax.CommandLine

open Json

variable {options : Options} {source : Source}

/-! ## Answers

A run reads one input at most, and so it answers as if all inputs were known. -/

/-- The answer to some arguments, where `read` says what the inputs hold. -/
def answer (read : Input → Except ReadError String) (arguments : List String) : Response :=
  run (m := Id) read arguments

/-- The answer to arguments that ask for something. -/
def ofOptions (read : Input → Except ReadError String) (options : Options) : Response :=
  if options.help then ⟨.success, usage, "", []⟩
  else
    match options.path with
    | none => .ofUsageError .noPath
    | some path =>
      match read (.ofPath path) with
      | .error error => .ofReadError path error
      | .ok text => .ofSource options ⟨(Input.ofPath path).name, text⟩

/-- The answer to arguments is the one to the options that they come to, or a complaint about
    them. -/
private theorem answer_eq (read : Input → Except ReadError String) (arguments : List String) :
    answer read arguments =
      match Options.ofArguments arguments with
      | .error error => .ofUsageError error
      | .ok options => ofOptions read options := by
  rw [answer, run]
  cases Options.ofArguments arguments with
  | error error => rfl
  | ok options =>
    obtain ⟨_ | path, _, _, _, _ | _⟩ := options <;> rfl

/-- The input that some arguments ask to be read. -/
def input? (arguments : List String) : Option Input :=
  match Options.ofArguments arguments with
  | .ok options => if options.help then none else options.path.map .ofPath
  | .error _ => none

/-- However the input is read, the answer depends on what was read alone. -/
theorem run_eq_answer {m : Type → Type} [Monad m] [LawfulMonad m]
    (read : Input → m (Except ReadError String)) (arguments : List String) :
    run read arguments =
      match input? arguments with
      | some input => (fun result => answer (fun _ => result) arguments) <$> read input
      | none => pure (answer (fun _ => .error .noSuchFile) arguments) := by
  simp only [run, answer_eq, input?]
  cases Options.ofArguments arguments with
  | error error => rfl
  | ok options =>
    obtain ⟨_ | path, _, _, _, _ | _⟩ := options
    · rfl
    · rfl
    · -- Only here is something read, and the answer depends on nothing but the result.
      show _ = _ <$> read (.ofPath path)
      rw [map_eq_pure_bind]
      refine bind_congr fun result => ?_
      cases result <;> rfl
    · rfl

/-- Only success has the exit status zero. -/
private theorem Status.code_eq_zero_iff {status : Status} :
    status.code = 0 ↔ status = .success := by
  cases status <;> decide

namespace Response

/-- What the exit status says of the streams: one of them has something on it, which is the standard
    output if there is no fault, the standard error if nothing was checked, and the one that was
    asked for if the text was rejected. -/
structure Orderly (json : Prop) (response : Response) : Prop where
  one_stream : response.stdout = "" ↔ response.stderr ≠ ""
  success : response.status.code = 0 → response.stderr = ""
  failure : response.status.code = 2 → response.stdout = ""
  rejected : response.status.code = 1 → (response.stdout ≠ "" ↔ json)

/-- Whether two answers are the same but for their logs. -/
structure Agrees (first second : Response) : Prop where
  status_eq : first.status = second.status
  stdout_eq : first.stdout = second.stdout
  stderr_eq : first.stderr = second.stderr

variable {json : Prop} {text : String} {log log' : List String} {rejection : Rejection}

/-- A response agrees with itself. -/
private theorem Agrees.refl (response : Response) : response.Agrees response := ⟨rfl, rfl, rfl⟩

/-! ## The streams -/

/-- It is in order to print something and succeed. -/
private theorem orderly_success (ne : text ≠ "") : Orderly json ⟨.success, text, "", log⟩ where
  one_stream := by simp [ne]
  success _ := rfl
  failure := nofun
  rejected := nofun

/-- It is in order to complain and fail. -/
private theorem orderly_failure (ne : text ≠ "") : Orderly json ⟨.failure, "", text, log⟩ where
  one_stream := by simp [ne]
  success := nofun
  failure _ := rfl
  rejected := nofun

/-- It is in order to reject on one of the two streams, as was asked for. -/
private theorem orderly_rejected {stdout stderr : String} (one_stream : stdout = "" ↔ stderr ≠ "")
    (wanted : stdout ≠ "" ↔ json) : Orderly json ⟨.rejected, stdout, stderr, log⟩ where
  one_stream := one_stream
  success := nofun
  failure := nofun
  rejected _ := wanted

/-- There is something to say about the use of the command. -/
private theorem usage_ne_empty : usage ≠ "" := by decide

/-- Wrong arguments are answered in good order. -/
private theorem orderly_ofUsageError (error : UsageError) : Orderly json (ofUsageError error) := by
  rw [ofUsageError]
  exact orderly_failure (by simp [toString])

/-- A text that cannot be read is answered in good order. -/
private theorem orderly_ofReadError (path : String) (error : ReadError) :
    Orderly json (ofReadError path error) := by
  rw [ofReadError]
  exact orderly_failure (by simp [toString])

/-- A diagnostic always says something. -/
private theorem diagnostic_ne_empty : source.diagnostic rejection ≠ "" := by
  simp [Source.diagnostic, toString]

/-- A rejection is given in good order. -/
private theorem orderly_ofRejection (json : Bool) :
    Orderly (json = true) (ofRejection source json rejection log) := by
  cases json with
  | true => exact orderly_rejected (by simp) (by simp)
  | false => exact orderly_rejected (by simp [diagnostic_ne_empty]) (by simp)

/-- A text that was read is answered in good order. -/
private theorem orderly_ofSource : Orderly (options.json = true) (ofSource options source) := by
  rw [ofSource]
  split
  · cases scanned : tokenize source.text with
    | ok tokens =>
      simp only [ofTokens, scanned]
      exact orderly_success (by simp)
    | error error =>
      simp only [ofTokens, scanned]
      exact orderly_ofRejection options.json
  · cases outcome : check source.text with
    | ok _ =>
      simp only [ofCheck, outcome]
      split
      · exact orderly_success (by simp)
      · -- The name may be empty, but the line that says so is not.
        exact orderly_success (by simp [toString])
    | error rejection =>
      simp only [ofCheck, outcome]
      exact orderly_ofRejection options.json

/-! ## The flags -/

/-- A log makes no difference to a rejection. -/
private theorem agrees_ofRejection (json : Bool) :
    (ofRejection source json rejection log).Agrees (ofRejection source json rejection log') := by
  cases json <;> exact ⟨rfl, rfl, rfl⟩

/-- Asking for a log changes nothing but the log. -/
private theorem agrees_put_trace (options : Options) (source : Source) :
    (ofSource (Flag.trace.put true options) source).Agrees (ofSource options source) := by
  simp only [ofSource, ofTokens, ofCheck, Flag.put]
  -- However the answer comes about, its log is the only part that the flag goes into.
  split
  · split
    · exact agrees_ofRejection options.json
    · exact ⟨rfl, rfl, rfl⟩
  · split
    · exact agrees_ofRejection options.json
    · split <;> exact ⟨rfl, rfl, rfl⟩

/-- A rejection is one on either stream. -/
private theorem status_ofRejection (json : Bool) :
    (ofRejection source json rejection log).status = .rejected := by
  cases json <;> rfl

/-- How the command ends depends on the text and on whether the tokens were asked for. -/
private theorem status_ofSource (options : Options) (source : Source) :
    (ofSource options source).status =
      if options.tokens then
        match tokenize source.text with
        | .ok _ => .success
        | .error _ => .rejected
      else
        match check source.text with
        | .ok _ => .success
        | .error _ => .rejected := by
  rw [ofSource]
  split
  · -- Whether JSON is wanted makes no difference to how it ends, only to what is printed.
    cases scanned : tokenize source.text with
    | ok tokens => simp only [ofTokens, scanned]
    | error error => simp only [ofTokens, scanned, status_ofRejection]
  · cases outcome : check source.text with
    | ok _ => simp only [ofCheck, outcome]; split <;> rfl
    | error rejection => simp only [ofCheck, outcome, status_ofRejection]

/-- Where tokens are asked for, all is well if the text splits into some. -/
private theorem code_ofSource_of_tokens (listed : options.tokens = true) :
    (ofSource options source).status.code = 0 ↔ ∃ tokens, tokenize source.text = .ok tokens := by
  rw [Status.code_eq_zero_iff, status_ofSource, if_pos listed]
  cases tokenize source.text <;> simp

/-- Where no tokens are asked for, all is well if the text is accepted. -/
private theorem code_ofSource_of_check (unlisted : options.tokens = false) :
    (ofSource options source).status.code = 0 ↔ check source.text = .ok () := by
  rw [Status.code_eq_zero_iff, status_ofSource, unlisted, if_neg Bool.false_ne_true]
  cases check source.text <;> simp

/-- The verdict of the outcome as JSON. -/
private theorem decode_accepted (wanted : options.json = true) (unlisted : options.tokens = false) :
    (decode (ofSource options source).stdout).bind (member? "accepted") =
      some (.bool (accepts source.text)) := by
  have printed : options.tokens = true → ∀ tokens, tokenize source.text ≠ .ok tokens := by
    simp [unlisted]
  rw [stdout_ofJson wanted printed, decode_compact, Option.bind_some, member?_sorted, accepts]
  cases check source.text <;> rfl

/-- Asking for JSON does not change how the command ends. -/
private theorem status_put_json (options : Options) (source : Source) :
    (ofSource (Flag.json.put true options) source).status = (ofSource options source).status := by
  rw [status_ofSource, status_ofSource]
  rfl

/-- Where the text has no tokens to list, asking for them changes nothing but the log. -/
private theorem agrees_put_tokens (options : Options) (source : Source)
    (unscanned : ∀ tokens, tokenize source.text ≠ .ok tokens) :
    (ofSource (Flag.tokens.put true options) source).Agrees
      (ofSource (Flag.tokens.put false options) source) := by
  cases scanned : tokenize source.text with
  | ok tokens => exact absurd scanned (unscanned tokens)
  | error error =>
    -- The check fails for the same reason as the list of the tokens.
    have outcome : check source.text = .error (.lexical error) := by rw [check, scanned]
    simp only [ofSource, Flag.put, if_true, ofTokens, scanned, ofCheck, outcome]
    exact agrees_ofRejection options.json

end Response

/-! ## Whole runs -/

section

variable {read : Input → Except ReadError String} {arguments : List String}

/-- Whatever the options, the answer is in good order. -/
private theorem Response.orderly_ofOptions :
    (ofOptions read options).Orderly (options.json = true) := by
  -- Help and complaints come first; a text is looked at only if it could be read.
  rw [ofOptions]
  split
  · exact orderly_success usage_ne_empty
  · split
    · exact orderly_ofUsageError _
    · split
      · exact orderly_ofReadError _ _
      · exact orderly_ofSource

/-- A relation between the answers about every text relates the answers of whole runs. -/
private theorem ofOptions_rel {R : Response → Response → Prop}
    (refl : ∀ response, R response response) {flag : Flag} (related : ∀ options source,
      R (.ofSource (flag.put true options) source) (.ofSource options source)) :
    R (ofOptions read (flag.put true options)) (ofOptions read options) := by
  -- The flag decides neither about help nor about the path, so both sides come to the same input.
  simp only [ofOptions, Flag.path_put, Flag.help_put]
  split
  · exact refl _
  · split
    · exact refl _
    · split
      · exact refl _
      · exact related options _

/-- If a flag makes no difference to the answers about texts, it makes none wherever it stands among
    the arguments. -/
theorem answer_insert {R : Response → Response → Prop} (refl : ∀ response, R response response)
    {flag : Flag} (related : ∀ options source,
      R (.ofSource (flag.put true options) source) (.ofSource options source))
    (front back : List String) :
    R (answer read (front ++ flag.argument :: back)) (answer read (front ++ back)) := by
  rw [answer_eq, answer_eq, Options.ofArguments, Options.ofArguments, Options.addAll_insert]
  cases Options.none.addAll (front ++ back) with
  | error error => exact refl _
  | ok options => exact ofOptions_rel refl related

/-- The answer about a text that was read. -/
private theorem answer_eq_ofSource {path text : String}
    (parsed : Options.ofArguments arguments = .ok options) (help : options.help = false)
    (named : options.path = some path) (contents : read (.ofPath path) = .ok text) :
    answer read arguments = .ofSource options ⟨(Input.ofPath path).name, text⟩ := by
  rw [answer_eq, parsed]
  simp [ofOptions, help, named, contents]

/-- A flag of accepted arguments is set exactly if it is among them. -/
private theorem isSet_ofArguments (flag : Flag)
    (parsed : Options.ofArguments arguments = .ok options) :
    flag.isSet options = true ↔ flag.argument ∈ arguments := by
  rw [Options.isSet_addAll parsed]
  cases flag <;> simp [Options.none, Flag.isSet]

/-- Without a flag, accepted arguments are accepted and ask for the same otherwise. -/
private theorem ofArguments_filter (flag : Flag)
    (parsed : Options.ofArguments arguments = .ok options) :
    Options.ofArguments (arguments.filter (· ≠ flag.argument)) =
      .ok (flag.put false options) := by
  rw [Options.ofArguments, Options.addAll_filter, ← Options.ofArguments, parsed]
  cases flag <;> rfl

/-- Whatever the arguments, the answer is in good order. -/
private theorem answer_orderly (read : Input → Except ReadError String) (arguments : List String) :
    (answer read arguments).Orderly ("--json" ∈ arguments) := by
  rw [answer_eq]
  cases parsed : Options.ofArguments arguments with
  | error error => exact Response.orderly_ofUsageError error
  | ok options =>
    have mentioned : options.json = true ↔ "--json" ∈ arguments := isSet_ofArguments .json parsed
    rw [← mentioned]
    exact Response.orderly_ofOptions

/-- Every answer is on one stream, which the exit status tells.  Wherever `--trace` is put among the
    arguments, only the log changes, and wherever `--json` is put, the exit status stays.  About a
    text that was read, the exit status gives the verdict of the check, as the JSON outcome does,
    or says whether the tokens were listed; where they cannot be, the answer is the one to the
    arguments without `--tokens`. -/
theorem answer_disciplined (read : Input → Except ReadError String) (arguments : List String) :
    (answer read arguments).Orderly ("--json" ∈ arguments) ∧
    (∀ front back, front ++ back = arguments →
      (answer read (front ++ "--trace" :: back)).Agrees (answer read arguments) ∧
      (answer read (front ++ "--json" :: back)).status.code =
        (answer read arguments).status.code) ∧
    ∀ options path text, Options.ofArguments arguments = .ok options → options.help = false →
      options.path = some path → read (.ofPath path) = .ok text →
        ("--tokens" ∉ arguments →
          ((answer read arguments).status.code = 0 ↔ check text = .ok ()) ∧
          ("--json" ∈ arguments →
            (decode (answer read arguments).stdout).bind (member? "accepted") =
              some (.bool (accepts text)))) ∧
        ("--tokens" ∈ arguments →
          ((answer read arguments).status.code = 0 ↔ ∃ tokens, tokenize text = .ok tokens) ∧
          ((∀ tokens, tokenize text ≠ .ok tokens) →
            (answer read arguments).Agrees
              (answer read (arguments.filter (· ≠ "--tokens"))))) := by
  refine ⟨answer_orderly read arguments, ?_, ?_⟩
  · rintro front back rfl
    exact ⟨answer_insert Response.Agrees.refl Response.agrees_put_trace front back,
      answer_insert (R := fun first second => first.status.code = second.status.code)
        (fun _ => rfl) (fun _ _ => by rw [Response.status_put_json]) front back⟩
  · intro options path text parsed help named contents
    have mentioned (flag : Flag) := isSet_ofArguments flag parsed
    have same := answer_eq_ofSource parsed help named contents
    constructor
    · intro absent
      have unlisted : options.tokens = false :=
        Bool.eq_false_iff.2 fun listed => absent ((mentioned .tokens).1 listed)
      rw [same]
      exact ⟨Response.code_ofSource_of_check unlisted, fun wanted =>
        Response.decode_accepted ((mentioned .json).2 wanted) unlisted⟩
    · intro present
      have listed : Flag.tokens.isSet options = true := (mentioned .tokens).2 present
      rw [same]
      refine ⟨Response.code_ofSource_of_tokens listed, fun unscanned => ?_⟩
      -- The arguments without the flag name the same text.
      have without := answer_eq_ofSource (ofArguments_filter .tokens parsed) help named contents
      have agrees := Response.agrees_put_tokens options ⟨(Input.ofPath path).name, text⟩ unscanned
      rw [Flag.put_eq_self listed, ← without] at agrees
      exact agrees

set_option maxRecDepth 4000 in
/-- A string that is not closed, with the tokens and JSON asked for, and a statement that is not
    finished, with JSON and a log asked for. -/
theorem answer_disciplined_unclosed :
    (Options.ofArguments ["--tokens", "a.lox", "--json"] =
        .ok ⟨some "a.lox", true, true, false, false⟩ ∧
      (∀ tokens, tokenize "print \"" ≠ .ok tokens) ∧
      (answer (fun _ => .ok "print \"") ["--tokens", "a.lox", "--json"]).Agrees
        (answer (fun _ => .ok "print \"") ["a.lox", "--json"])) ∧
    Options.ofArguments ["a.lox", "--json"] = .ok ⟨some "a.lox", false, true, false, false⟩ ∧
      (decode (answer (fun _ => .ok "print") ["a.lox", "--json"]).stdout).bind
        (member? "accepted") = some (.bool (accepts "print")) ∧
      (answer (fun _ => .ok "print") ["a.lox", "--trace", "--json"]).Agrees
        (answer (fun _ => .ok "print") ["a.lox", "--json"]) := by
  have unscanned : ∀ tokens, tokenize "print \"" ≠ .ok tokens := by
    have scanned : tokenize "print \"" = .error (.unclosedString ⟨1, 6⟩) := by cbv
    simp [scanned]
  refine ⟨⟨rfl, unscanned, ?_⟩, rfl, ?_, ?_⟩
  · exact (((answer_disciplined _ _).2.2 _ "a.lox" "print \"" rfl rfl rfl rfl).2 (by decide)).2
      unscanned
  · exact (((answer_disciplined _ _).2.2 _ "a.lox" "print" rfl rfl rfl rfl).1 (by decide)).2
      (by decide)
  · exact ((answer_disciplined _ _).2.1 ["a.lox"] ["--json"] rfl).1

end

end LoxSyntax.CommandLine
