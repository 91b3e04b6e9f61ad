import LoxSyntax.Proofs.Recognizer.Errors
import LoxSyntax.Recognizer.Cursor

/-! # Using a cursor

A cursor is used by one call after another, and it can be used further after a call that failed.
`Call.Keeps` says what every call keeps to: the cursor never moves back nor beyond the last token,
and an error tells of the token where the cursor has stopped.  Each call does, at any index within
the tokens (`keeps_perform`), and so does every call in a sequence of calls (`keeps_performAll`). -/

namespace LoxSyntax

open Recognizer

/-- One use of a cursor. -/
inductive Call where
  | recognize (n : Nonterminal)
  | takeIf (kinds : List Kind)
  | expect (kinds : List Kind)
  | isNext (kinds : List Kind)
  | peek
  | isAtEnd
  | endTaken

/-- The answer to a call that did not fail. -/
inductive Answer where
  /-- A nonterminal was recognized. -/
  | recognized
  /-- A token was taken. -/
  | took (token : Token)
  /-- A question is answered. -/
  | holds (yes : Bool)
  /-- The next token is shown. -/
  | next (token? : Option Token)

namespace Cursor

/-- Looks whether the next token is of one of these kinds, and if it is, asks for such a token. -/
def lookAndExpect (cursor : Cursor) (kinds : List Kind) : Except SyntaxError Bool × Cursor :=
  if cursor.isNext kinds then
    ((cursor.expect kinds).1.map fun _ => true, (cursor.expect kinds).2)
  else
    (.ok false, cursor)

/-- The answer to a call, and the cursor behind it. -/
def perform (cursor : Cursor) : Call → Except SyntaxError Answer × Cursor
  | .recognize n =>
    ((cursor.recognize n).1.map fun _ => .recognized, (cursor.recognize n).2)
  | .takeIf kinds =>
    ((cursor.lookAndExpect kinds).1.map .holds, (cursor.lookAndExpect kinds).2)
  | .expect kinds => ((cursor.expect kinds).1.map .took, (cursor.expect kinds).2)
  | .isNext kinds => (.ok (.holds (cursor.isNext kinds)), cursor)
  | .peek => (.ok (.next cursor.peek?), cursor)
  | .isAtEnd => (.ok (.holds cursor.isAtEnd), cursor)
  | .endTaken => (.ok (.holds (endTaken cursor.tokens cursor.index)), cursor)

/-- The cursor behind some calls, of which any may have failed. -/
def performAll (cursor : Cursor) (calls : List Call) : Cursor :=
  calls.foldl (fun cursor call => (cursor.perform call).2) cursor

end Cursor

/-- An error fits the index where a cursor has stopped: the tokens are used up, or it tells of the
    next token, which is not what it asks for. -/
structure SyntaxError.Fits (tokens : Array Token) (index : Nat) (error : SyntaxError) : Prop where
  noTokenLeft_iff : (∃ expected, error = .noTokenLeft expected) ↔ index = tokens.size
  found_eq : ∀ found, error.found? = some found → tokens[index]? = some found
  unexpectedToken : ∀ expected found, error = .unexpectedToken expected found →
    found.kind ∉ expected
  noExpression : ∀ found, error = .noExpression found → found.kind ∉ Kind.primaryStarts

/-- How far a call of each form moves a cursor. -/
def Call.Advances : Call → (start : Nat) → Except SyntaxError Answer → (stop : Nat) → Prop
  -- Only a program can be empty.
  | recognize n, start, result, stop => n ≠ .program → ∀ answer, result = .ok answer → start < stop
  | takeIf _, start, result, stop =>
    ∃ taken, result = .ok (.holds taken) ∧ stop = if taken then start + 1 else start
  | expect _, start, result, stop => ∀ answer, result = .ok answer → stop = start + 1
  | isNext _, start, _, stop | peek, start, _, stop | isAtEnd, start, _, stop
  | endTaken, start, _, stop => stop = start

/-- What every call keeps to that moves a cursor from one index to another. -/
structure Call.Keeps (tokens : Array Token) (call : Call) (start : Nat)
    (result : Except SyntaxError Answer) (stop : Nat) : Prop where
  start_le : start ≤ stop
  stop_le : stop ≤ tokens.size
  advances : call.Advances start result stop
  error_fits : ∀ error, result = .error error → error.Fits tokens stop

variable {tokens : Array Token} {cursor : Cursor} {kinds : List Kind} {error : SyntaxError}
  {index : Nat}

/-! ## Errors -/

/-- An error that tells of the next token, and did not ask for it, fits. -/
private theorem fits_of_found? (within : index ≤ tokens.size)
    (found : error.found? = tokens[index]?)
    (notAsked : nextIs tokens index error.asked = false) : error.Fits tokens index := by
  have kind_not_mem {token : Token} (isFound : error.found? = some token) :
      token.kind ∉ error.asked := by
    have kindAt : kindAt? tokens index = some token.kind := by
      rw [kindAt?, ← found, isFound, Option.map_some]
    rw [nextIs_of_kindAt? kindAt, ← Bool.not_eq_true, List.contains_iff_mem] at notAsked
    exact notAsked
  refine ⟨?_, fun token isFound => found ▸ isFound, ?_, ?_⟩
  · constructor
    · intro h
      obtain ⟨expected, rfl⟩ := h
      have := Array.getElem?_eq_none_iff.mp found.symm
      omega
    · intro atEnd
      -- An error of another form tells of a token, and there is none.
      rw [atEnd, Array.getElem?_eq_none (Nat.le_refl _)] at found
      cases error with
      | noTokenLeft expected => exact ⟨expected, rfl⟩
      | unexpectedToken => cases found
      | noExpression => cases found
  · intro expected token isError
    subst isError
    exact kind_not_mem rfl
  · intro token isError
    subst isError
    exact kind_not_mem rfl

/-! ## Single calls -/

/-- A token of the kinds that are asked for is taken. -/
private theorem Cursor.expect_of_isNext (h : cursor.isNext kinds = true) :
    ∃ token, cursor.expect kinds = (.ok token, { cursor with index := cursor.index + 1 }) := by
  obtain ⟨kind, member, next⟩ := nextIs_iff.mp h
  obtain ⟨token, isNext, rfl⟩ := Option.map_eq_some_iff.mp next
  refine ⟨token, ?_⟩
  rw [expect, peek?, isNext]
  exact if_pos (List.contains_iff_mem.mpr member)

/-- Any other token is left. -/
private theorem Cursor.expect_of_not_isNext (h : cursor.isNext kinds = false) :
    cursor.expect kinds = (.error (mismatch cursor.tokens cursor.index kinds), cursor) := by
  rw [isNext, nextIs, kindAt?] at h
  rw [expect, peek?, mismatch]
  cases next : cursor.tokens[cursor.index]? with
  | none => rfl
  | some token =>
    rw [next] at h
    exact if_neg (by simpa using h)

/-- Looking before a token is asked for keeps from errors. -/
private theorem Cursor.lookAndExpect_eq (cursor : Cursor) (kinds : List Kind) :
    cursor.lookAndExpect kinds = (.ok (cursor.takeIf kinds).1, (cursor.takeIf kinds).2) := by
  rw [lookAndExpect, takeIf]
  cases next : cursor.isNext kinds with
  | false => rfl
  | true =>
    obtain ⟨token, taken⟩ := expect_of_isNext next
    rw [taken]
    rfl

/-- To ask for a token keeps to the rules. -/
private theorem keeps_expect (within : cursor.index ≤ cursor.tokens.size) (kinds : List Kind) :
    (Call.expect kinds).Keeps cursor.tokens cursor.index (cursor.perform (.expect kinds)).1
      (cursor.perform (.expect kinds)).2.index := by
  rw [Cursor.perform]
  cases next : cursor.isNext kinds with
  | true =>
    obtain ⟨token, taken⟩ := Cursor.expect_of_isNext next
    rw [taken]
    exact {
      start_le := Nat.le_succ _
      stop_le := lt_size_of_nextIs next
      advances _ _ := rfl
      error_fits _ failed := nomatch failed }
  -- The cursor stays, and the error tells of the token that is not of the kinds.
  | false =>
    rw [Cursor.expect_of_not_isNext next]
    exact {
      start_le := Nat.le_refl _
      stop_le := within
      advances _ accepted := nomatch accepted
      error_fits error failed := by
        obtain rfl := Except.error.inj failed
        exact fits_of_found? within found?_mismatch (asked_mismatch ▸ next) }

/-- To take a token if it is of some kinds keeps to the rules, as no error can come of it. -/
private theorem keeps_takeIf (within : cursor.index ≤ cursor.tokens.size) (kinds : List Kind) :
    (Call.takeIf kinds).Keeps cursor.tokens cursor.index (cursor.perform (.takeIf kinds)).1
      (cursor.perform (.takeIf kinds)).2.index := by
  -- The question settles what the second look finds.
  rw [Cursor.perform, Cursor.lookAndExpect_eq, Cursor.takeIf]
  cases next : cursor.isNext kinds with
  | true => exact {
      start_le := Nat.le_succ _
      stop_le := lt_size_of_nextIs next
      advances := ⟨true, rfl, rfl⟩
      error_fits _ failed := nomatch failed }
  | false => exact {
      start_le := Nat.le_refl _
      stop_le := within
      advances := ⟨false, rfl, rfl⟩
      error_fits _ failed := nomatch failed }

/-- To recognize a nonterminal keeps to the rules. -/
private theorem keeps_recognize (within : cursor.index ≤ cursor.tokens.size) (n : Nonterminal) :
    (Call.recognize n).Keeps cursor.tokens cursor.index (cursor.perform (.recognize n)).1
      (cursor.perform (.recognize n)).2.index := by
  obtain ⟨events, outcome, stop, h⟩ := exists_follows cursor.tokens (.call n) cursor.index
  -- A run that has moved stops within the tokens, and any other where it started.
  have stop_le : stop ≤ cursor.tokens.size := by
    have := h.stop_le
    omega
  rw [Cursor.perform, Cursor.recognize, recognizeFrom_eq h]
  cases outcome with
  | ok => exact {
      start_le := h.start_le
      stop_le := stop_le
      advances notProgram _ _ := h.lt_of_guarded (Nonterminal.guarded_of_ne notProgram)
      error_fits _ failed := nomatch failed }
  | error error => exact {
      start_le := h.start_le
      stop_le := stop_le
      advances _ _ accepted := nomatch accepted
      error_fits other failed := by
        obtain rfl : error = other := Except.error.inj failed
        exact fits_of_found? stop_le h.found?_eq (h.nextIs_asked rfl (nextIs_nil _ _)) }

/-- Every call on a cursor within the tokens keeps to what calls keep to. -/
theorem keeps_perform (within : cursor.index ≤ cursor.tokens.size) (call : Call) :
    call.Keeps cursor.tokens cursor.index (cursor.perform call).1
      (cursor.perform call).2.index := by
  cases call with
  | recognize n => exact keeps_recognize within n
  | takeIf kinds => exact keeps_takeIf within kinds
  | expect kinds => exact keeps_expect within kinds
  -- Questions leave the cursor where it is.
  | isNext | peek | isAtEnd | endTaken => exact {
      start_le := Nat.le_refl _
      stop_le := within
      advances := rfl
      error_fits _ failed := nomatch failed }

/-- No call changes the tokens. -/
private theorem Cursor.tokens_perform (cursor : Cursor) (call : Call) :
    (cursor.perform call).2.tokens = cursor.tokens := by
  cases call with
  | recognize n => rfl
  | takeIf kinds =>
    rw [perform, lookAndExpect_eq, takeIf]
    cases cursor.isNext kinds with
    | true => rfl
    | false => rfl
  | expect kinds =>
    rw [perform]
    cases next : cursor.isNext kinds with
    | true =>
      obtain ⟨token, taken⟩ := expect_of_isNext next
      rw [taken]
    | false => rw [expect_of_not_isNext next]
  | isNext | peek | isAtEnd | endTaken => rfl

/-! ## Sequences of calls -/

/-- A cursor stays within its tokens, whatever calls are made and whether these fail or not. -/
private theorem Cursor.performAll_within (cursor : Cursor) (calls : List Call)
    (within : cursor.index ≤ cursor.tokens.size) :
    (cursor.performAll calls).tokens = cursor.tokens ∧
      (cursor.performAll calls).index ≤ cursor.tokens.size := by
  induction calls generalizing cursor with
  | nil => exact ⟨rfl, within⟩
  | cons call calls ih =>
    -- The bound is all that the next call needs of this one, which may have failed.
    have kept := (keeps_perform within call).stop_le
    rw [← cursor.tokens_perform call] at kept ⊢
    exact ih _ kept

/-- Each call in a sequence of calls keeps to what calls keep to, whatever the tokens are and
    whether the calls before it failed or not. -/
theorem keeps_performAll (tokens : List Token) (before : List Call) (call : Call) :
    let cursor := (Cursor.ofTokens tokens).performAll before
    cursor.tokens = tokens.toArray ∧
      call.Keeps tokens.toArray cursor.index (cursor.perform call).1
        (cursor.perform call).2.index := by
  intro cursor
  obtain ⟨same, within⟩ := (Cursor.ofTokens tokens).performAll_within before (Nat.zero_le _)
  have kept : call.Keeps cursor.tokens cursor.index _ _ := keeps_perform (same ▸ within) call
  rw [same] at kept
  exact ⟨same, kept⟩

/-- Behind a statement that goes wrong at its third token, the cursor can be used from there. -/
example : ((Cursor.ofTokens ([.kwPrint, .number, .rightParen, .semicolon].map .ofKind)).performAll
    [.recognize .statement, .expect [.semicolon], .takeIf [.rightParen], .peek]).index = 3 := by
  cbv

end LoxSyntax
