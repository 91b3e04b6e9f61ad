import LoxSyntax.Proofs.Lexical.Reads

/-! # Scanning by offsets

A text can be scanned without being taken apart: the scan keeps the offset in bytes up to which it
has read, and cuts the text there whenever it looks at what is left (`Reading.step`, `scanAt`).
Such a scan could break down where `scan` cannot: a cut could go through a character, and there
could be no character where one is asked for.  It never does, as the lexemes that the matcher finds
are made up of whole characters, and it finds what `scan` finds (`scanAt_start`). -/

namespace LoxSyntax.Lexical

open Text

/-- The two parts of a text in front of an offset in bytes and behind it.  There are none if the
    offset lies within a character or behind the end of the text. -/
def cut? (text : String) (offset : Nat) : Option (String × String) :=
  if h : String.Pos.Raw.IsValid text ⟨offset⟩ then
    let position : text.Pos := ⟨⟨offset⟩, h⟩
    some ((text.sliceTo position).copy, (text.sliceFrom position).copy)
  else
    none

/-- Why a scan by offsets cannot go on at all. -/
inductive Breakdown where
  /-- The text cannot be cut at an offset. -/
  | noCut (offset : Nat)
  /-- There is no character in front of the end of the text. -/
  | noCharacter
  /-- A token takes up nothing of the text, so that the scan would find it for ever. -/
  | noProgress
  deriving DecidableEq

/-- A scan by offsets on its way: how many bytes have been read, the position there, the position
    behind the last token, and the tokens that have been found, the last one first. -/
structure Reading where
  offset : Nat
  here : Position
  lastEnd : Position
  found : List Token

namespace Reading

/-- The beginning of a scan. -/
def start : Reading := ⟨0, .start, .start, []⟩

/-- Passes over a character. -/
def skip (reading : Reading) (c : Char) : Reading :=
  { reading with offset := reading.offset + c.utf8Size, here := reading.here.advance c }

/-- Takes a token. -/
def take (reading : Reading) (kind : Kind) (lexeme : String) (size : Nat) : Reading :=
  let after := reading.here.shift lexeme.toList.length
  ⟨reading.offset + size, after, after, ⟨kind, lexeme, reading.here⟩ :: reading.found⟩

/-- Takes the token that the rest of the text begins with, or ends with an error. -/
def takeToken (reading : Reading) (rest : String) : Except Breakdown (Reading ⊕ Scan) :=
  match matchStart? rest with
  | some (kind, size) =>
    match cut? rest size with
    | none => .error (.noCut size)
    | some (lexeme, _) =>
      if size = 0 then .error .noProgress else .ok (.inl (reading.take kind lexeme size))
  | none =>
    match rest.toList.head? with
    | some c => .ok (.inr ⟨reading.found.reverse, .error (errorAt c reading.here)⟩)
    | none => .error .noCharacter

/-- Goes on by a blank or a token, or ends. -/
def step (text : String) (reading : Reading) : Except Breakdown (Reading ⊕ Scan) :=
  match cut? text reading.offset with
  | none => .error (.noCut reading.offset)
  | some (_, rest) =>
    match rest.toList.head?.filter isBlank with
    | some c => .ok (.inl (reading.skip c))
    | none =>
      if text.utf8ByteSize ≤ reading.offset then
        .ok (.inr ⟨reading.found.reverse, .ok reading.lastEnd⟩)
      else
        reading.takeToken rest

end Reading

variable {text front back rest : String} {offset : Nat} {reading next : Reading} {kind : Kind}
  {c : Char} {tokens : List Token} {p q : Place}

/-- A text is cut where its first part ends. -/
private theorem cut?_eq_some_iff :
    cut? text offset = some (front, back) ↔ text = front ++ back ∧ front.utf8ByteSize = offset := by
  unfold cut?
  constructor
  · intro h
    split at h
    · next valid =>
      obtain ⟨rfl, rfl⟩ := Prod.mk.inj (Option.some.inj h)
      have splits := String.Pos.splits (⟨⟨offset⟩, valid⟩ : text.Pos)
      exact ⟨splits.eq_append, (congrArg String.Pos.Raw.byteIdx splits.offset_eq_rawEndPos).symm⟩
    · cases h
  · rintro ⟨rfl, rfl⟩
    -- The end of the first part is a position of the text, and the parts there are unique.
    have valid : String.Pos.Raw.IsValid (front ++ back) ⟨front.utf8ByteSize⟩ :=
      String.Pos.Raw.isValid_iff_exists_append.mpr ⟨front, back, rfl, rfl⟩
    let position : (front ++ back).Pos := ⟨⟨front.utf8ByteSize⟩, valid⟩
    have splits : position.Splits front back := ⟨rfl, rfl⟩
    obtain ⟨same, same'⟩ := position.splits.eq splits
    rw [dif_pos valid]
    exact congrArg some (Prod.ext same same')

/-- To take a token moves the offset forward. -/
private theorem offset_lt_of_takeToken (h : reading.takeToken rest = .ok (.inl next)) :
    reading.offset < next.offset := by
  unfold Reading.takeToken at h
  split at h
  · next size _ =>
    split at h
    · cases h
    · split at h
      · cases h
      · next nonzero =>
        cases h
        -- A token of size zero has been turned down.
        show reading.offset < reading.offset + size
        omega
  · split at h
    · cases h
    · cases h

/-- A scan by offsets goes on only within the text, and only forward. -/
private theorem offset_lt_of_step (h : reading.step text = .ok (.inl next)) :
    reading.offset < next.offset ∧ reading.offset < text.utf8ByteSize := by
  unfold Reading.step at h
  split at h
  · cases h
  · next front rest cut =>
    obtain ⟨rfl, size⟩ := cut?_eq_some_iff.mp cut
    split at h
    · next c blank =>
      cases h
      have positive := c.utf8Size_pos
      constructor
      · show reading.offset < reading.offset + c.utf8Size
        omega
      · -- There is a character behind the offset, so the text goes on there.
        have nonempty : rest.utf8ByteSize ≠ 0 := by
          rw [Ne, String.utf8ByteSize_eq_zero_iff]
          rintro rfl
          cases blank
        rw [String.utf8ByteSize_append]
        omega
    · split at h
      · cases h
      · exact ⟨offset_lt_of_takeToken h, by omega⟩

/-- Scans the rest of a text by offsets. -/
def scanAt (text : String) (reading : Reading) : Except Breakdown Scan :=
  match h : reading.step text with
  | .error breakdown => .error breakdown
  | .ok (.inr scan) => .ok scan
  | .ok (.inl next) =>
    have := offset_lt_of_step h
    scanAt text next
termination_by text.utf8ByteSize - reading.offset
decreasing_by omega

/-! ## Taking tokens -/

section

variable {lexeme rest : List Char} {here lastEnd : Position}

/-- The matcher gives the size of a lexeme of whole characters, so that the text can be cut behind
    it. -/
private theorem takeToken_of_match
    (starts : firstMatch? (lexeme ++ rest) = some (kind, lexeme.length)) :
    reading.takeToken (String.ofList (lexeme ++ rest)) = .ok (.inl
      (reading.take kind (String.ofList lexeme) (String.ofList lexeme).utf8ByteSize)) := by
  have found : matchStart? (String.ofList (lexeme ++ rest)) =
      some (kind, (String.ofList lexeme).utf8ByteSize) := by
    rw [String.ofList_append, matchStart?_append_iff]
    simpa using starts
  have cut : cut? (String.ofList (lexeme ++ rest)) (String.ofList lexeme).utf8ByteSize =
      some (String.ofList lexeme, String.ofList rest) :=
    cut?_eq_some_iff.mpr ⟨String.ofList_append, rfl⟩
  have nonzero : (String.ofList lexeme).utf8ByteSize ≠ 0 := by
    rw [Ne, String.utf8ByteSize_eq_zero_iff, String.ofList_eq_empty_iff]
    rintro rfl
    exact absurd (bounds_of_firstMatch? starts).1 (Nat.lt_irrefl 0)
  -- So neither the cut nor the size can break the scan down.
  rw [Reading.takeToken, found]
  simp only [cut, if_neg nonzero]

/-- Where no token begins, there is a character to blame. -/
private theorem takeToken_of_none (starts : firstMatch? (c :: rest) = none) :
    reading.takeToken (String.ofList (c :: rest)) =
      .ok (.inr ⟨reading.found.reverse, .error (errorAt c reading.here)⟩) := by
  have missed : matchStart? (String.ofList (c :: rest)) = none := by
    rw [matchStart?, String.toList_ofList, starts, Option.map_none]
  rw [Reading.takeToken, missed]
  simp only [String.toList_ofList, List.head?_cons]

/-! ## Offsets and places -/

/-- A scan by offsets has come to a place in a walk over the text. -/
structure Reading.IsAt (reading : Reading) (text : String) (place : Place) : Prop where
  cut_eq : ∃ front, cut? text reading.offset = some (front, String.ofList place.rest)
  here_eq : reading.here = place.here
  lastEnd_eq : reading.lastEnd = place.lastEnd

namespace Reading.IsAt

/-- At the beginning, nothing has been read. -/
private theorem start (text : String) : Reading.start.IsAt text ⟨text.toList, .start, .start⟩ where
  cut_eq := ⟨"", cut?_eq_some_iff.mpr ⟨by simp, rfl⟩⟩
  here_eq := rfl
  lastEnd_eq := rfl

/-- Where some of the text has been passed over, the text can be cut again. -/
private theorem exists_cut {part : List Char}
    (h : reading.IsAt text ⟨part ++ rest, here, lastEnd⟩) :
    ∃ front, cut? text (reading.offset + (String.ofList part).utf8ByteSize) =
      some (front, String.ofList rest) := by
  obtain ⟨front, cut⟩ := h.cut_eq
  obtain ⟨rfl, size⟩ := cut?_eq_some_iff.mp cut
  refine ⟨front ++ String.ofList part, cut?_eq_some_iff.mpr ⟨?_, ?_⟩⟩
  · rw [String.ofList_append, String.append_assoc]
  · rw [String.utf8ByteSize_append, size]

/-- Passing over a character comes to the place behind it. -/
private theorem skip (h : reading.IsAt text ⟨c :: rest, here, lastEnd⟩) :
    (reading.skip c).IsAt text ⟨rest, here.advance c, lastEnd⟩ where
  cut_eq := by
    have behind : reading.IsAt text ⟨[c] ++ rest, here, lastEnd⟩ := h
    have cut := behind.exists_cut
    rw [← String.singleton_eq_ofList, String.utf8ByteSize_singleton] at cut
    exact cut
  here_eq := congrArg (·.advance c) h.here_eq
  lastEnd_eq := h.lastEnd_eq

/-- Taking a lexeme comes to the place behind it. -/
private theorem take (kind : Kind) (h : reading.IsAt text ⟨lexeme ++ rest, here, lastEnd⟩) :
    (reading.take kind (String.ofList lexeme) (String.ofList lexeme).utf8ByteSize).IsAt text
      ⟨rest, here.shift lexeme.length, here.shift lexeme.length⟩ := by
  have after : reading.here.shift (String.ofList lexeme).toList.length =
      here.shift lexeme.length := by
    rw [String.toList_ofList, show reading.here = here from h.here_eq]
  exact ⟨h.exists_cut, after, after⟩

/-- At the end of the text a scan by offsets ends. -/
private theorem step_nil (h : reading.IsAt text ⟨[], here, lastEnd⟩) :
    reading.step text = .ok (.inr ⟨reading.found.reverse, .ok lastEnd⟩) := by
  obtain ⟨front, cut⟩ := h.cut_eq
  obtain ⟨split, size⟩ := cut?_eq_some_iff.mp cut
  have all : text.utf8ByteSize ≤ reading.offset := by
    rw [split, String.ofList_nil, String.append_empty, size]
  rw [Reading.step, cut]
  simp only [String.toList_ofList, List.head?_nil, Option.filter_none, if_pos all]
  rw [show reading.lastEnd = lastEnd from h.lastEnd_eq]

/-- In front of a character a scan by offsets passes over it or takes a token. -/
private theorem step_cons (h : reading.IsAt text ⟨c :: rest, here, lastEnd⟩) :
    reading.step text =
      if isBlank c then .ok (.inl (reading.skip c))
      else reading.takeToken (String.ofList (c :: rest)) := by
  obtain ⟨front, cut⟩ := h.cut_eq
  obtain ⟨split, size⟩ := cut?_eq_some_iff.mp cut
  -- Each character takes up some bytes, so the end has not been reached.
  have more : ¬text.utf8ByteSize ≤ reading.offset := by
    rw [split, String.utf8ByteSize_append, String.ofList_cons, String.utf8ByteSize_append,
      String.utf8ByteSize_singleton]
    have := c.utf8Size_pos
    omega
  rw [Reading.step, cut]
  simp only [String.toList_ofList, List.head?_cons, Option.filter_some, if_neg more]
  cases isBlank c with
  | true => rfl
  | false => rfl

/-- A step passes over a blank. -/
private theorem step_blank (h : reading.IsAt text ⟨c :: rest, here, lastEnd⟩)
    (blank : isBlank c = true) : reading.step text = .ok (.inl (reading.skip c)) := by
  rw [h.step_cons, if_pos blank]

/-- A step takes the token that begins at the place. -/
private theorem step_token (h : reading.IsAt text ⟨lexeme ++ rest, here, lastEnd⟩)
    (starts : firstMatch? (lexeme ++ rest) = some (kind, lexeme.length)) :
    reading.step text = .ok (.inl
      (reading.take kind (String.ofList lexeme) (String.ofList lexeme).utf8ByteSize)) := by
  obtain ⟨c, isFirst, notBlank⟩ := (isLexeme_of_match starts).1.first
  obtain ⟨word, rfl⟩ := List.head?_eq_some_iff.mp isFirst
  have first : reading.IsAt text ⟨c :: (word ++ rest), here, lastEnd⟩ := h
  rw [first.step_cons, if_neg (Bool.eq_false_iff.mp notBlank), ← List.cons_append,
    takeToken_of_match starts]

/-- Where a walk can go no further, a scan by offsets ends as the walk does. -/
private theorem step_of_stuck (h : reading.IsAt text p) (stuck : Stuck p.rest) :
    reading.step text = .ok (.inr ⟨reading.found.reverse, p.outcome⟩) := by
  obtain ⟨_ | ⟨c, rest⟩, here, lastEnd⟩ := p
  · exact h.step_nil
  · obtain ⟨notBlank, missed⟩ := stuck c rfl
    rw [h.step_cons, if_neg (Bool.eq_false_iff.mp notBlank), takeToken_of_none missed,
      show reading.here = here from h.here_eq]
    rfl

end Reading.IsAt

end

/-! ## Whole scans -/

/-- A scan that goes on is the scan from where it goes on. -/
private theorem scanAt_of_next (step : reading.step text = .ok (.inl next)) :
    scanAt text reading = scanAt text next := by
  rw [scanAt]
  split
  · next same => cases step.symm.trans same
  · next same => cases step.symm.trans same
  · next same =>
    cases step.symm.trans same
    rfl

/-- A scan that ends gives what it has found. -/
private theorem scanAt_of_done {result : Scan} (step : reading.step text = .ok (.inr result)) :
    scanAt text reading = .ok result := by
  rw [scanAt]
  split
  · next same => cases step.symm.trans same
  · next same =>
    cases step.symm.trans same
    rfl
  · next same => cases step.symm.trans same

/-- A scan by offsets follows a walk over the text. -/
private theorem scanAt_of_reads (h : Reads p tokens q) (isAt : reading.IsAt text p) :
    ∃ last, scanAt text reading = scanAt text last ∧ last.IsAt text q ∧
      last.found = tokens.reverse ++ reading.found := by
  induction h generalizing reading with
  | done => exact ⟨reading, rfl, isAt, rfl⟩
  | blank isBlank _ ih =>
    obtain ⟨last, same, isAt', found⟩ := ih isAt.skip
    exact ⟨last, (scanAt_of_next (isAt.step_blank isBlank)).trans same, isAt', found⟩
  | @token kind _ _ here _ _ _ starts _ ih =>
    -- One step takes the token, and the rest of the walk is followed from behind it.
    obtain ⟨last, same, isAt', found⟩ := ih (isAt.take kind)
    refine ⟨last, (scanAt_of_next (isAt.step_token starts)).trans same, isAt', ?_⟩
    rw [found, List.reverse_cons, List.append_assoc, List.singleton_append, Reading.take,
      show reading.here = here from isAt.here_eq]

/-- A scan by offsets never breaks down, and it finds what a scan does that takes the text apart. -/
theorem scanAt_start (text : String) : scanAt text .start = .ok (scan text) := by
  obtain ⟨tokens, place, reads, stuck⟩ := exists_reads text.toList .start .start
  obtain ⟨last, same, isAt, found⟩ := scanAt_of_reads reads (Reading.IsAt.start text)
  rw [same, scanAt_of_done (isAt.step_of_stuck stuck), found, Reading.start, List.append_nil,
    List.reverse_reverse, scan_of_reads reads stuck]

end LoxSyntax.Lexical
