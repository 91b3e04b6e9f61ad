import LoxSyntax.Diagnostic

/-! # Tokens and rejections from JSON

Readers of the machine-readable forms.  They find members by their names, so that the order in
which an object lists its members does not matter to them (`OrderFree`), and they give back what
was encoded: tokens (`Token.ofJson?_toJson`), rejections (`Rejection.ofJson?_toJson`) and outcomes
of checks (`Outcome.ofJson?_report`). -/

namespace LoxSyntax

namespace Json

variable {α β : Type} {name : String} {members : List (String × Json)} {value : Json}

/-! ## Parts of values -/

/-- The number that a value is. -/
def toNat? : Json → Option Nat
  | number value => some value
  | _ => none

/-- The truth value that a value is. -/
def toBool? : Json → Option Bool
  | bool value => some value
  | _ => none

/-- The text that a value is. -/
def toText? : Json → Option String
  | string value => some value
  | _ => none

/-- The character that a value is, as a text of length one. -/
def toChar? (value : Json) : Option Char := do
  match (← value.toText?).toList with
  | [c] => some c
  | _ => none

/-- The text that a value is, or `none` within if the value is `null`. -/
def toOptionalText? : Json → Option (Option String)
  | null => some none
  | string value => some (some value)
  | _ => none

/-- The items of an array, each of them read. -/
def toList? (read : Json → Option α) : Json → Option (List α)
  | array items => items.mapM read
  | _ => none

/-- The member of an object that has a name. -/
def member? (name : String) : Json → Option Json
  | object members => members.lookup name
  | _ => none

/-- The member of an object that has a name, read. -/
def field? (name : String) (read : Json → Option α) (value : Json) : Option α :=
  (value.member? name).bind read

/-! ## The order of members -/

/-- Looking up a name gives the same wherever a member is inserted, as the members in front of it
    have other names. -/
private theorem lookup_insertMember (member : String × Json) :
    (insertMember member members).lookup name = (member :: members).lookup name := by
  induction members with
  | nil => rfl
  | cons next rest ih =>
    rw [insertMember]
    split
    · rfl
    · next greater =>
      obtain ⟨first, value⟩ := member
      obtain ⟨second, value'⟩ := next
      -- The two names differ, so that at most one of them is looked up.
      have ne : first ≠ second := by
        rintro rfl
        exact greater (String.le_refl _)
      rw [List.lookup_cons, ih]
      simp only [List.lookup_cons]
      by_cases h : name = first
      · subst h
        simp [beq_eq_false_iff_ne.2 ne]
      · simp [beq_eq_false_iff_ne.2 h]

/-- Looking up a name gives the same among sorted members. -/
private theorem lookup_sortMembers : (sortMembers members).lookup name = members.lookup name := by
  induction members with
  | nil => rfl
  | cons member rest ih =>
    have step : sortMembers (member :: rest) = insertMember member (sortMembers rest) := rfl
    rw [step, lookup_insertMember, List.lookup_cons, List.lookup_cons, ih]

/-- Looking up a name among members whose parts were sorted gives its value with sorted parts. -/
private theorem lookup_sortedMembers :
    (sortedMembers members).lookup name = (members.lookup name).map sorted := by
  induction members with
  | nil => rfl
  | cons member rest ih =>
    obtain ⟨other, value⟩ := member
    rw [sortedMembers, List.lookup_cons, List.lookup_cons, ih]
    split <;> rfl

/-- A member of a value with all members sorted is found under its name, itself sorted. -/
theorem member?_sorted (name : String) (value : Json) :
    value.sorted.member? name = (value.member? name).map sorted := by
  cases value with
  | object members => rw [sorted, member?, lookup_sortMembers, lookup_sortedMembers, member?]
  | null | bool _ | number _ | string _ | array _ => rfl

/-- Whether a reader gives the same for a value and for the value with all members sorted. -/
def OrderFree (read : Json → Option α) : Prop := ∀ value : Json, read value.sorted = read value

/-- Reading a number does not depend on the order of members. -/
private theorem orderFree_toNat? : OrderFree toNat? := by
  rintro (_ | _ | _ | _ | _ | _) <;> rfl

/-- Reading a truth value does not depend on the order of members. -/
private theorem orderFree_toBool? : OrderFree toBool? := by
  rintro (_ | _ | _ | _ | _ | _) <;> rfl

/-- Reading a text does not depend on the order of members. -/
private theorem orderFree_toText? : OrderFree toText? := by
  rintro (_ | _ | _ | _ | _ | _) <;> rfl

/-- Reading a character does not depend on the order of members, as it is read from a text. -/
private theorem orderFree_toChar? : OrderFree toChar? := by
  intro value
  rw [toChar?, orderFree_toText? value, toChar?]

/-- Reading a text that may be missing does not depend on the order of members. -/
private theorem orderFree_toOptionalText? : OrderFree toOptionalText? := by
  rintro (_ | _ | _ | _ | _ | _) <;> rfl

/-- Reading a list does not depend on the order of members if reading its items does not. -/
private theorem OrderFree.toList? {read : Json → Option α} (free : OrderFree read) :
    OrderFree (toList? read) := by
  intro value
  cases value with
  | array items =>
    show (sortedItems items).mapM read = items.mapM read
    induction items with
    | nil => rfl
    | cons item rest ih => rw [sortedItems, List.mapM_cons, List.mapM_cons, free item, ih]
  | null | bool _ | number _ | string _ | object _ => rfl

/-- Reading one member does not depend on the order of members if reading its value does not. -/
private theorem OrderFree.field? {read : Json → Option α} (free : OrderFree read) (name : String) :
    OrderFree (field? name read) := by
  intro value
  rw [Json.field?, member?_sorted, Json.field?]
  cases value.member? name with
  | none => rfl
  | some value => exact free value

end Json

open Json

/-! ## Tokens -/

/-- The position that a value encodes. -/
def Position.ofJson? (value : Json) : Option Position := do
  let line ← value.field? "line" toNat?
  let column ← value.field? "column" toNat?
  some ⟨line, column⟩

/-- The kind that a value encodes. -/
def Kind.ofJson? (value : Json) : Option Kind := value.toText?.bind Kind.ofLabel?

/-- The token that a value encodes. -/
def Token.ofJson? (value : Json) : Option Token := do
  let kind ← value.field? "kind" Kind.ofJson?
  let lexeme ← value.field? "lexeme" toText?
  let position ← value.field? "span" Position.ofJson?
  some ⟨kind, lexeme, position⟩

/-- A position is read back from its encoding. -/
theorem Position.ofJson?_toJson (position : Position) :
    Position.ofJson? position.toJson = some position := rfl

/-- A kind is read back from its label. -/
theorem Kind.ofJson?_toJson (kind : Kind) : Kind.ofJson? kind.toJson = some kind :=
  Kind.ofLabel?_label kind

/-- A token is read back from its encoding. -/
theorem Token.ofJson?_toJson (token : Token) : Token.ofJson? token.toJson = some token := by
  have kind : token.toJson.field? "kind" Kind.ofJson? = some token.kind :=
    Kind.ofJson?_toJson token.kind
  have position : token.toJson.field? "span" Position.ofJson? = some token.position :=
    Position.ofJson?_toJson token.position
  rw [Token.ofJson?, kind, position]
  rfl

/-- Reading a position does not depend on the order of members. -/
private theorem Position.orderFree_ofJson? : OrderFree Position.ofJson? := by
  intro value
  simp only [Position.ofJson?, orderFree_toNat?.field? _ value]

/-- Reading a kind does not depend on the order of members. -/
private theorem Kind.orderFree_ofJson? : OrderFree Kind.ofJson? := by
  intro value
  rw [Kind.ofJson?, orderFree_toText? value, Kind.ofJson?]

/-- Reading a token does not depend on the order of members. -/
private theorem Token.orderFree_ofJson? : OrderFree Token.ofJson? := by
  intro value
  simp only [Token.ofJson?, Kind.orderFree_ofJson?.field? _ value, orderFree_toText?.field? _ value,
    Position.orderFree_ofJson?.field? _ value]

/-! ## Rejections -/

/-- The rejection that a value encodes: the member `kind` names its cause. -/
def Rejection.ofJson? (value : Json) : Option Rejection := do
  let cause ← value.field? "kind" toText?
  if cause = "unexpected_character" then
    let char ← value.field? "ch" toChar?
    let position ← value.field? "span" Position.ofJson?
    some (.lexical (.strayCharacter char position))
  else if cause = "unterminated_string" then
    let position ← value.field? "span" Position.ofJson?
    some (.lexical (.unclosedString position))
  else if cause = "unexpected_token" then
    let expected ← value.field? "expected" (toList? Kind.ofJson?)
    let found ← value.field? "found" Token.ofJson?
    some (.syntactic (.unexpectedToken expected found))
  else if cause = "unexpected_end_of_input" then
    let expected ← value.field? "expected" (toList? Kind.ofJson?)
    some (.syntactic (.noTokenLeft expected))
  else if cause = "expected_primary" then
    let found ← value.field? "found" Token.ofJson?
    some (.syntactic (.noExpression found))
  else none

/-- The items of a written list are read one by one. -/
private theorem Json.toList?_map {α : Type} {read : Json → Option α} {encode : α → Json}
    (inverse : ∀ a, read (encode a) = some a) (items : List α) :
    toList? read (.array (items.map encode)) = some items := by
  show (items.map encode).mapM read = some items
  induction items with
  | nil => rfl
  | cons item rest ih =>
    rw [List.map_cons, List.mapM_cons, inverse, ih]
    rfl

/-- A rejection is read back from its encoding, whatever its cause. -/
theorem Rejection.ofJson?_toJson (rejection : Rejection) :
    Rejection.ofJson? rejection.toJson = some rejection := by
  -- One case for each cause.  The member `kind` decides between them by evaluation; of the others
  -- only those that hold characters, kinds or tokens need to be read by a lemma.
  match rejection with
  | .lexical (.strayCharacter char position) =>
    have readChar : toChar? (.string char.toString) = some char := by simp [toChar?, toText?]
    have char? : (LexicalError.strayCharacter char position).toJson.field? "ch" toChar? =
        some char := readChar
    simp only [Rejection.toJson]
    rw [Rejection.ofJson?, char?]
    rfl
  | .lexical (.unclosedString position) => rfl
  -- From here on the expected kinds are a list of any length and the token found is any.
  | .syntactic (.unexpectedToken expected found) =>
    have expected? : (SyntaxError.unexpectedToken expected found).toJson.field? "expected"
        (toList? Kind.ofJson?) = some expected := toList?_map Kind.ofJson?_toJson expected
    have found? : (SyntaxError.unexpectedToken expected found).toJson.field? "found"
        Token.ofJson? = some found := Token.ofJson?_toJson found
    simp only [Rejection.toJson]
    rw [Rejection.ofJson?, expected?, found?]
    rfl
  | .syntactic (.noTokenLeft expected) =>
    have expected? : (SyntaxError.noTokenLeft expected).toJson.field? "expected"
        (toList? Kind.ofJson?) = some expected := toList?_map Kind.ofJson?_toJson expected
    simp only [Rejection.toJson]
    rw [Rejection.ofJson?, expected?]
    rfl
  | .syntactic (.noExpression found) =>
    have found? : (SyntaxError.noExpression found).toJson.field? "found" Token.ofJson? =
        some found := Token.ofJson?_toJson found
    simp only [Rejection.toJson]
    rw [Rejection.ofJson?, found?]
    rfl

/-- Reading a rejection does not depend on the order of members. -/
private theorem Rejection.orderFree_ofJson? : OrderFree Rejection.ofJson? := by
  intro value
  simp only [Rejection.ofJson?, orderFree_toText?.field? _ value, orderFree_toChar?.field? _ value,
    Position.orderFree_ofJson?.field? _ value, Kind.orderFree_ofJson?.toList?.field? _ value,
    Token.orderFree_ofJson?.field? _ value]

/-! ## Outcomes of checks -/

/-- What is told of a rejection, with the line and the column counted from one. -/
structure Finding where
  code : String
  message : String
  line : Nat
  column : Nat
  help? : Option String
  rejection : Rejection

/-- What is told of a check. -/
structure Outcome where
  file : String
  accepted : Bool
  finding? : Option Finding

/-- What is to be told of a rejection of a source text. -/
def Source.finding (source : Source) (rejection : Rejection) : Finding where
  code := rejection.code
  message := rejection.message
  line := (source.locate rejection).line
  column := (source.locate rejection).column + 1
  help? := rejection.help?
  rejection := rejection

/-- What is to be told of a check of a source text. -/
def Source.outcome (source : Source) : Except Rejection Unit → Outcome
  | .ok () => ⟨source.name, true, none⟩
  | .error rejection => ⟨source.name, false, some (source.finding rejection)⟩

/-- The finding that a value encodes. -/
def Finding.ofJson? (value : Json) : Option Finding := do
  let code ← value.field? "code" toText?
  let message ← value.field? "message" toText?
  let line ← value.field? "line" toNat?
  let column ← value.field? "column" toNat?
  let help? ← value.field? "help" toOptionalText?
  let rejection ← value.field? "detail" Rejection.ofJson?
  some ⟨code, message, line, column, help?, rejection⟩

/-- The outcome that a value encodes.  Only where there is a finding is there a member for it. -/
def Outcome.ofJson? (value : Json) : Option Outcome := do
  let file ← value.field? "file" toText?
  let accepted ← value.field? "accepted" toBool?
  if value.member? "error" |>.isSome then
    let finding ← value.field? "error" Finding.ofJson?
    some ⟨file, accepted, some finding⟩
  else some ⟨file, accepted, none⟩

/-- Reading a finding does not depend on the order of members. -/
private theorem Finding.orderFree_ofJson? : OrderFree Finding.ofJson? := by
  intro value
  simp only [Finding.ofJson?, orderFree_toText?.field? _ value, orderFree_toNat?.field? _ value,
    orderFree_toOptionalText?.field? _ value, Rejection.orderFree_ofJson?.field? _ value]

/-- Reading an outcome does not depend on the order of members. -/
theorem Outcome.orderFree_ofJson? : OrderFree Outcome.ofJson? := by
  intro value
  simp only [Outcome.ofJson?, orderFree_toText?.field? _ value, orderFree_toBool?.field? _ value,
    Finding.orderFree_ofJson?.field? _ value, member?_sorted, Option.isSome_map]

/-- A text that may be missing is read back from its encoding. -/
private theorem Json.toOptionalText?_ofText? (text? : Option String) :
    toOptionalText? (ofText? text?) = some text? := by
  cases text? <;> rfl

/-- What is told of a check is read back from its machine-readable form. -/
theorem Outcome.ofJson?_report (source : Source) (outcome : Except Rejection Unit) :
    Outcome.ofJson? (source.report outcome) = some (source.outcome outcome) := by
  cases outcome with
  | ok _ => rfl
  | error rejection =>
    -- Only the finding has parts that do not evaluate: an optional text and the rejection.
    have finding : (source.report (.error rejection)).field? "error" Finding.ofJson? =
        some (source.finding rejection) := by
      simp [Source.report, field?, member?, List.lookup_cons, Finding.ofJson?, toText?, toNat?,
        toOptionalText?_ofText?, Rejection.ofJson?_toJson, Source.finding]
    rw [Outcome.ofJson?, finding]
    rfl

end LoxSyntax
