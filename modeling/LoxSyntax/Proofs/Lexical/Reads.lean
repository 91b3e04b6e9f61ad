import LoxSyntax.Lexical.Tokenize
import LoxSyntax.Proofs.Lexical.Lexeme

/-! # Reading tokens

`Reads` says that a walk over a text comes from one place to another and finds some tokens on the
way.  Every walk comes to a place where it ends (`exists_reads`), be it the end of the text or a
character that begins no token, and the scanner finds what was found on the way there, and ends
as the place says (`scan_of_reads`). -/

namespace LoxSyntax.Lexical

open Text

/-- A place in a walk over a text: what is left of the text, the position there, and the position
    behind the last token. -/
structure Place where
  rest : List Char
  here : Position
  lastEnd : Position

/-- A walk comes from one place to another, and finds tokens. -/
inductive Reads : Place → List Token → Place → Prop
  | done {place : Place} : Reads place [] place
  | blank {c : Char} {rest : List Char} {here lastEnd : Position} {tokens : List Token}
    {place : Place} (h : isBlank c = true)
    (later : Reads ⟨rest, here.advance c, lastEnd⟩ tokens place) :
    Reads ⟨c :: rest, here, lastEnd⟩ tokens place
  | token {kind : Kind} {lexeme rest : List Char} {here lastEnd : Position} {tokens : List Token}
    {place : Place} (h : firstMatch? (lexeme ++ rest) = some (kind, lexeme.length))
    (later : Reads ⟨rest, here.shift lexeme.length, here.shift lexeme.length⟩ tokens place) :
    Reads ⟨lexeme ++ rest, here, lastEnd⟩ (⟨kind, String.ofList lexeme, here⟩ :: tokens) place

/-- A walk can go no further: the text is at its end, or it goes on with a character that is not
    blank and begins no token. -/
def Stuck (rest : List Char) : Prop :=
  ∀ c ∈ rest.head?, isBlank c = false ∧ firstMatch? rest = none

variable {text lexeme rest : List Char} {kind : Kind} {tokens more : List Token} {p q r : Place}

/-- What a text begins with is a lexeme. -/
theorem isLexeme_of_match (h : firstMatch? (lexeme ++ rest) = some (kind, lexeme.length)) :
    IsLexeme lexeme ∧ kind ≠ .endOfInput := by
  have := isLexeme_of_firstMatch? h
  rw [List.take_left] at this
  exact this

/-- One walk goes on from where another one came to. -/
theorem Reads.append (h : Reads p tokens q) (h' : Reads q more r) :
    Reads p (tokens ++ more) r := by
  induction h with
  | done => exact h'
  | blank isBlank _ ih => exact .blank isBlank (ih h')
  | token starts _ ih => exact .token starts (ih h')

/-- One text can take the place of another behind any text: the tokens in front of the other text
    are in front of this one, too. -/
def StandsIn (other rest : List Char) : Prop :=
  ∀ (text : List Char) (kind : Kind) (n : Nat), n ≤ text.length →
    firstMatch? (text ++ rest) = some (kind, n) → firstMatch? (text ++ other) = some (kind, n)

/-- A walk comes to the same tokens when another text takes the place of what is left. -/
theorem Reads.replace_rest {other : List Char} (h : Reads p tokens q)
    (standsIn : StandsIn other q.rest) :
    ∃ front, p.rest = front ++ q.rest ∧
      Reads ⟨front ++ other, p.here, p.lastEnd⟩ tokens ⟨other, q.here, q.lastEnd⟩ := by
  induction h with
  | done => exact ⟨[], rfl, .done⟩
  | @blank c _ _ _ _ _ isBlank _ ih =>
    obtain ⟨front, split, walk⟩ := ih standsIn
    exact ⟨c :: front, congrArg (c :: ·) split, .blank isBlank walk⟩
  | @token _ lexeme rest _ _ _ place starts _ ih =>
    obtain ⟨front, split, walk⟩ := ih standsIn
    change rest = front ++ place.rest at split
    rw [split, ← List.append_assoc] at starts
    -- The lexeme lies in the part of the text that stays.
    have starts := standsIn _ _ _ (by simp) starts
    rw [List.append_assoc] at starts
    refine ⟨lexeme ++ front, by rw [List.append_assoc, ← split], ?_⟩
    rw [List.append_assoc]
    exact .token starts walk

/-- What can be put behind any text without a change to the token that the text begins with. -/
def KeepsTokens (more : List Char) : Prop :=
  ∀ (text : List Char) (found : Kind × Nat), firstMatch? text = some found →
    firstMatch? (text ++ more) = some found

/-- A walk over a text goes on in the same way when something stands behind the text that changes
    no token. -/
theorem Reads.append_text {behind : List Char} (keeps : KeepsTokens behind)
    (h : Reads p tokens q) :
    Reads ⟨p.rest ++ behind, p.here, p.lastEnd⟩ tokens ⟨q.rest ++ behind, q.here, q.lastEnd⟩ := by
  have standsIn : StandsIn (q.rest ++ behind) q.rest := by
    intro text kind n _ starts
    rw [← List.append_assoc]
    exact keeps _ _ starts
  obtain ⟨front, split, walk⟩ := h.replace_rest standsIn
  rw [split, List.append_assoc]
  exact walk

/-- Every walk comes to a place where it can go no further. -/
theorem exists_reads (text : List Char) (here lastEnd : Position) :
    ∃ tokens place, Reads ⟨text, here, lastEnd⟩ tokens place ∧ Stuck place.rest := by
  match text with
  | [] => exact ⟨[], _, .done, fun c isHead => absurd isHead (Option.not_mem_none c)⟩
  | c :: rest =>
    cases blank : isBlank c with
    | true =>
      obtain ⟨tokens, place, h, stuck⟩ := exists_reads rest (here.advance c) lastEnd
      exact ⟨tokens, place, .blank blank h, stuck⟩
    | false =>
      -- Either a token begins here, or the walk is stuck.
      cases fits : firstMatch? (c :: rest) with
      | none =>
        refine ⟨[], _, .done, fun other isHead => ?_⟩
        obtain rfl : c = other := Option.some.inj isHead
        exact ⟨blank, fits⟩
      | some found =>
        obtain ⟨kind, length⟩ := found
        obtain ⟨positive, within⟩ := bounds_of_firstMatch? fits
        -- The text is split where the lexeme ends, and the walk goes on with what is behind it.
        obtain ⟨lexeme, tail, split, rfl⟩ :
            ∃ lexeme tail, c :: rest = lexeme ++ tail ∧ lexeme.length = length :=
          ⟨_, _, (List.take_append_drop length _).symm, List.length_take_of_le within⟩
        have shorter : (c :: rest).length = lexeme.length + tail.length := by
          rw [split, List.length_append]
        obtain ⟨tokens, place, h, stuck⟩ := exists_reads tail (here.shift lexeme.length)
          (here.shift lexeme.length)
        rw [split] at fits ⊢
        exact ⟨_, place, .token fits h, stuck⟩
termination_by text.length
decreasing_by
  · omega
  · exact Nat.lt_succ_self _

/-! ## What the scanner finds -/

/-- The scanner passes over a blank. -/
private theorem scanFrom_blank {c : Char} (h : isBlank c = true) (here lastEnd : Position)
    (found : List Token) :
    scanFrom (c :: rest) here lastEnd found = scanFrom rest (here.advance c) lastEnd found := by
  rw [scanFrom, if_pos h]

/-- The scanner takes the token that the rest of the text begins with. -/
private theorem scanFrom_token (h : firstMatch? (lexeme ++ rest) = some (kind, lexeme.length))
    (here lastEnd : Position) (found : List Token) :
    scanFrom (lexeme ++ rest) here lastEnd found =
      scanFrom rest (here.shift lexeme.length) (here.shift lexeme.length)
        (⟨kind, String.ofList lexeme, here⟩ :: found) := by
  obtain ⟨c, isFirst, notBlank⟩ := (isLexeme_of_match h).1.first
  obtain ⟨word, rfl⟩ := List.head?_eq_some_iff.mp isFirst
  rw [List.cons_append] at h ⊢
  rw [scanFrom, if_neg (by rw [notBlank]; exact Bool.false_ne_true)]
  -- The match is looked up again, as the definition keeps it for its measure.
  split
  · next none => cases h.symm.trans none
  · next same =>
    rw [h, Option.some.injEq, Prod.mk.injEq] at same
    obtain ⟨rfl, rfl⟩ := same
    show scanFrom ((c :: word ++ rest).drop (c :: word).length) _ _
      (⟨kind, String.ofList ((c :: word ++ rest).take (c :: word).length), here⟩ :: found) = _
    rw [List.take_left, List.drop_left]

/-- A scan goes along a walk and collects the tokens of the walk. -/
private theorem scanFrom_of_reads (h : Reads p tokens q) (found : List Token) :
    scanFrom p.rest p.here p.lastEnd found =
      scanFrom q.rest q.here q.lastEnd (tokens.reverse ++ found) := by
  induction h generalizing found with
  | done => rfl
  | blank isBlank _ ih => rw [scanFrom_blank isBlank, ih]
  | token starts _ ih => rw [scanFrom_token starts, ih, List.reverse_cons, List.append_assoc,
      List.singleton_append]

/-- The scanner stops at a character that begins no token. -/
private theorem scanFrom_of_stuck {c : Char} (h : Stuck (c :: rest)) (here lastEnd : Position)
    (found : List Token) :
    scanFrom (c :: rest) here lastEnd found = ⟨found.reverse, .error (errorAt c here)⟩ := by
  obtain ⟨notBlank, starts⟩ := h c rfl
  rw [scanFrom, if_neg (by rw [notBlank]; exact Bool.false_ne_true)]
  split
  · rfl
  · next same => cases starts.symm.trans same

/-- How a walk ends at a place where it can go no further. -/
def Place.outcome (place : Place) : Except LexicalError Position :=
  match place.rest with
  | [] => .ok place.lastEnd
  | c :: _ => .error (errorAt c place.here)

/-- The scanner finds the tokens of a walk that can go no further. -/
theorem scan_of_reads {text : String} (h : Reads ⟨text.toList, .start, .start⟩ tokens q)
    (stuck : Stuck q.rest) : scan text = ⟨tokens, q.outcome⟩ := by
  rw [scan, scanFrom_of_reads h, List.append_nil, Place.outcome]
  cases rest : q.rest with
  | nil => rw [scanFrom, List.reverse_reverse]
  | cons =>
    rw [rest] at stuck
    rw [scanFrom_of_stuck stuck, List.reverse_reverse]

/-- What the scanner finds in a text is found on a walk over it. -/
theorem exists_reads_scan (text : String) :
    ∃ place, Reads ⟨text.toList, .start, .start⟩ (scan text).tokens place ∧ Stuck place.rest ∧
      (scan text).outcome = place.outcome := by
  obtain ⟨tokens, place, reads, stuck⟩ := exists_reads text.toList .start .start
  rw [scan_of_reads reads stuck]
  exact ⟨place, reads, stuck, rfl⟩

end LoxSyntax.Lexical

namespace LoxSyntax

open Lexical

/-- The marker for the end of the input is put behind the tokens that the scanner found. -/
theorem tokenize_eq (text : String) :
    tokenize text =
      (scan text).outcome.map fun last => (scan text).tokens ++ [.endOfInput last] := by
  rw [tokenize]
  split
  · next found => rw [found]; rfl
  · next found => rw [found]; rfl

/-- A text splits into tokens exactly if reading it comes to its end. -/
theorem tokenize_eq_ok_iff {text : String} {tokens : List Token} :
    tokenize text = .ok tokens ↔ ∃ found here lastEnd,
      Reads ⟨text.toList, .start, .start⟩ found ⟨[], here, lastEnd⟩ ∧
        tokens = found ++ [.endOfInput lastEnd] := by
  constructor
  · intro h
    obtain ⟨⟨rest, here, lastEnd⟩, reads, _, outcome⟩ := exists_reads_scan text
    rw [tokenize_eq, outcome] at h
    -- Tokens come out only if the walk reaches the end of the text.
    cases rest with
    | nil => exact ⟨_, here, lastEnd, reads, (Except.ok.inj h).symm⟩
    | cons => cases h
  · intro h
    obtain ⟨found, here, lastEnd, reads, rfl⟩ := h
    rw [tokenize_eq, scan_of_reads reads (fun c isHead => absurd isHead (Option.not_mem_none c))]
    rfl

end LoxSyntax
