import LoxSyntax.Proofs.Lexical.Longest
import LoxSyntax.Proofs.Lexical.Offsets

/-! # How far the matcher looks ahead

Whether a pattern reads a lexeme depends on two characters behind the lexeme at most: a number asks
for a point and a digit, and all others for one character.  So a lexeme is read in front of every
rest that does not show more of these than the rest that is there (`Shows`, `Pattern.Takes.congr`).
That the matcher finds the same token takes more, as an earlier row of the table could prevail in
front of one rest and not of another.  But a row prevails by reading the same word or a sign that is
longer by one character, and so the same two characters decide about it, too
(`Pattern.Takes.exists_takes_of_prevails`, `firstMatch?_append_congr`).  `matchStart?_lookahead`
says so of texts, together with what a scan by offsets relies on: that the matcher gives the size of
whole characters. -/

namespace LoxSyntax.Lexical

open Text

variable {lexeme rest other lexeme' rest' : List Char} {c : Char} {kind : Kind}
  {pattern earlier : Pattern}

/-! ## What stands behind a lexeme -/

/-- What a pattern can see of a text behind a lexeme, it sees of another text, too: the first
    character, and the second one if the first one is a point. -/
structure Shows (rest other : List Char) : Prop where
  first : ∀ c, [c] <+: other → [c] <+: rest
  second : ∀ c, ['.', c] <+: other → ['.', c] <+: rest

namespace Shows

/-- Nothing more can be seen of a shorter rest. -/
theorem of_isPrefix (h : other <+: rest) : Shows rest other where
  first _ begins := begins.trans h
  second _ begins := begins.trans h

/-- Two characters are all that can be seen. -/
private theorem of_take (same : other.take 2 = rest.take 2) : Shows rest other := by
  have begins {word : List Char} (short : word.length ≤ 2) (h : word <+: other) :
      word <+: rest := by
    have := List.prefix_take_iff.mpr ⟨h, short⟩
    rw [same] at this
    exact this.trans (List.take_prefix 2 rest)
  exact ⟨fun c => begins (Nat.le_succ 1), fun c => begins (Nat.le_refl 2)⟩

/-- Nothing can be seen behind a character that is no point, unless it is the second one. -/
theorem of_ne_point (notPoint : c ≠ '.') (front rest other : List Char) :
    Shows (front ++ c :: rest) (front ++ c :: other) := by
  -- The character can only be seen if fewer than two others stand in front of it.
  rcases front with _ | ⟨d, _ | ⟨e, front⟩⟩
  · exact ⟨by simp, by simp [Ne.symm notPoint]⟩
  · exact ⟨by simp, by simp⟩
  · exact ⟨by simp, by simp⟩

/-- What holds of the first character that is there holds of the one that is seen. -/
private theorem forall_head? {p : Char → Bool} (shows : Shows rest other)
    (h : ∀ c ∈ rest.head?, p c = false) : ∀ c ∈ other.head?, p c = false := by
  intro c isHead
  obtain ⟨more, rfl⟩ := List.head?_eq_some_iff.mp isHead
  obtain ⟨more', rfl⟩ := shows.first c ⟨more, rfl⟩
  exact h c rfl

end Shows

namespace Pattern

/-- A pattern reads a lexeme in front of another rest if it sees nothing there that it did not
    see. -/
theorem Takes.congr (h : pattern.Takes lexeme rest) (shows : Shows rest other) :
    pattern.Takes lexeme other := by
  cases h with
  | keyword ends => exact .keyword (shows.forall_head? ends)
  | symbol => exact .symbol
  | whole nonempty all ends noFraction =>
    refine .whole nonempty all (shows.forall_head? ends) fun c more point => ?_
    obtain ⟨more', point'⟩ := shows.second c ⟨more, point.symm⟩
    exact noFraction c more' point'.symm
  | fraction nonempty all nonempty' all' ends =>
    exact .fraction nonempty all nonempty' all' (shows.forall_head? ends)
  | string inside => exact .string inside
  | identifier start all ends => exact .identifier start all (shows.forall_head? ends)

/-- Whether a pattern is no sign of more than two characters. -/
def isShort : Pattern → Bool
  | symbol sign => sign.length ≤ 2
  | _ => true

/-- What a keyword prevails over reads a word to its end. -/
private theorem Takes.isWord_of_prevails {word : List Char} (h : pattern.Takes lexeme rest)
    (prevails : (Pattern.keyword word).prevails pattern = true) (tidy : pattern.isTidy = true) :
    (∀ c ∈ lexeme, isWord c = true) ∧ ∀ c ∈ rest.head?, isWord c = false := by
  cases h with
  | keyword ends => exact ⟨isWord_of_isTidy tidy, ends⟩
  | identifier start all ends =>
    exact ⟨List.forall_mem_cons.mpr ⟨isWord_of_isIdentifierStart start, all⟩, ends⟩
  | _ => cases prevails

/-- What prevails over a lexeme in front of another rest was there in front of the first rest. -/
theorem Takes.exists_takes_of_prevails (h : pattern.Takes lexeme rest)
    (h' : earlier.Takes lexeme' rest') (text_eq : lexeme ++ other = lexeme' ++ rest')
    (shows : Shows rest other) (prevails : earlier.prevails pattern = true)
    (solid : pattern.isSolid = true) (tidy : pattern.isTidy = true) (tidy' : earlier.isTidy = true)
    (short : earlier.isShort = true) :
    ∃ lexeme'' rest'', lexeme ++ rest = lexeme'' ++ rest'' ∧ earlier.Takes lexeme'' rest'' := by
  cases h' with
  | keyword ends' =>
    -- Both read the same word, which ends in front of either rest.
    obtain ⟨all, ends⟩ := (h.congr shows).isWord_of_prevails prevails tidy
    obtain rfl := eq_of_run all ends (isWord_of_isTidy tidy') ends' text_eq
    exact ⟨lexeme, rest, rfl, .keyword (h.isWord_of_prevails prevails tidy).2⟩
  | symbol =>
    cases h with
    | symbol =>
      -- The longer sign has one more character, which is the first one of the rest.
      have longer : lexeme.length < lexeme'.length := of_decide_eq_true prevails
      have within : lexeme'.length ≤ 2 := of_decide_eq_true short
      have nonempty : 0 < lexeme.length := by
        simpa [isSolid, List.length_pos_iff] using solid
      obtain ⟨more, rfl⟩ := List.prefix_of_prefix_length_le ⟨other, rfl⟩ ⟨rest', text_eq.symm⟩
        (Nat.le_of_lt longer)
      rw [List.length_append] at longer within
      obtain ⟨c, rfl⟩ := List.length_eq_one_iff.mp (show more.length = 1 by omega)
      rw [List.append_assoc] at text_eq
      obtain ⟨rest'', rfl⟩ := shows.first c ⟨rest', (List.append_cancel_left text_eq).symm⟩
      exact ⟨lexeme ++ [c], rest'', (List.append_assoc _ _ _).symm, .symbol⟩
    | _ => cases prevails
  | _ => cases prevails

end Pattern

/-! ## The table -/

/-- The table has no sign of more than two characters. -/
private theorem isShort_of_mem_table : ∀ row ∈ table, row.pattern.isShort = true := by decide

/-- The token that a text begins with is found in front of another rest, too, if nothing can be seen
    there that was not there before. -/
theorem firstMatch?_append_congr (h : firstMatch? (lexeme ++ rest) = some (kind, lexeme.length))
    (shows : Shows rest other) : firstMatch? (lexeme ++ other) = some (kind, lexeme.length) := by
  obtain ⟨before, row, after, isTable, fits, missed⟩ := List.findSome?_eq_some_iff.mp h
  obtain ⟨rfl, found⟩ := Row.fit?_eq_some_iff.mp fits
  have takes := Pattern.takes_iff.mpr found
  have takesOther := takes.congr shows
  refine List.findSome?_eq_some_iff.mpr ⟨before, row, after, isTable,
    Row.fit?_eq_some_iff.mpr ⟨rfl, takesOther.length?_eq⟩, fun earlier isEarlier => ?_⟩
  rw [Row.fit?_eq_none_iff]
  cases found' : earlier.pattern.length? (lexeme ++ other) with
  | none => rfl
  | some n =>
    -- An earlier row that fits here would have fitted in front of the first rest.
    obtain ⟨lexeme', rest', text_eq, -, takes'⟩ := Pattern.exists_takes_of_length? found'
    have member : row ∈ table := by simp [isTable]
    have member' : earlier ∈ table := by simp [isTable, isEarlier]
    have prevails : earlier.pattern.prevails row.pattern = true := by
      have pairwise := pairwise_prevails_of_takes
      rw [isTable, List.pairwise_append] at pairwise
      exact pairwise.2.2 earlier isEarlier row List.mem_cons_self _ _ _ _ takes' takesOther
        text_eq.symm
    obtain ⟨lexeme'', rest'', text_eq', takes''⟩ := takes.exists_takes_of_prevails takes' text_eq
      shows prevails (isSolid_of_mem_table row member) (isTidy_of_mem_table row member)
      (isTidy_of_mem_table earlier member') (isShort_of_mem_table earlier member')
    have missed := Row.fit?_eq_none_iff.mp (missed earlier isEarlier)
    rw [text_eq'] at missed
    cases missed.symm.trans takes''.length?_eq

/-- A text can take the place of another one if nothing can be seen of it that was not there
    before. -/
theorem standsIn_of_shows (h : ∀ front, Shows (front ++ rest) (front ++ other)) :
    StandsIn other rest := by
  intro text kind n within starts
  obtain ⟨lexeme, behind, rfl, rfl⟩ :
      ∃ lexeme behind, text = lexeme ++ behind ∧ lexeme.length = n :=
    ⟨_, _, (List.take_append_drop n text).symm, List.length_take_of_le within⟩
  rw [List.append_assoc] at starts ⊢
  exact firstMatch?_append_congr starts (h behind)

/-- All that stands behind a place can be left out without a change to the tokens in front of it. -/
theorem standsIn_nil : StandsIn [] rest :=
  standsIn_of_shows fun _ => .of_isPrefix (by simp)

/-- The size that the matcher gives is that of a lexeme of whole characters, which is not empty. -/
private theorem exists_lexeme_of_matchStart? {text : String} {size : Nat}
    (h : matchStart? text = some (kind, size)) :
    ∃ lexeme rest, text = lexeme ++ rest ∧ lexeme ≠ "" ∧ lexeme.utf8ByteSize = size := by
  obtain ⟨⟨_, n⟩, found, same⟩ := Option.map_eq_some_iff.mp h
  obtain ⟨rfl, rfl⟩ := Prod.mk.inj same
  obtain ⟨positive, within⟩ := bounds_of_firstMatch? found
  refine ⟨String.ofList (text.toList.take n), String.ofList (text.toList.drop n), ?_, ?_, rfl⟩
  · rw [← String.ofList_append, List.take_append_drop, String.ofList_toList]
  · rw [Ne, String.ofList_eq_empty_iff, List.take_eq_nil_iff, not_or]
    exact ⟨Nat.ne_of_gt positive, List.ne_nil_of_length_pos (Nat.lt_of_lt_of_le positive within)⟩

end LoxSyntax.Lexical

namespace LoxSyntax

open Lexical

/-- The token that a text begins with is found again where the text ends behind it, and in front of
    every other rest that begins with the same two characters, or is the same if it has fewer.  The
    size that is given is that of a lexeme of whole characters, which is not empty.  So a scan that
    cuts the text at offsets in bytes never breaks down: each cut is between two characters, and
    there is a character wherever one is asked for. -/
theorem matchStart?_lookahead :
    (∀ (lexeme rest : String) (kind : Kind),
      matchStart? (lexeme ++ rest) = some (kind, lexeme.utf8ByteSize) →
        matchStart? lexeme = some (kind, lexeme.utf8ByteSize) ∧
        ∀ other : String, other.toList.take 2 = rest.toList.take 2 →
          matchStart? (lexeme ++ other) = some (kind, lexeme.utf8ByteSize)) ∧
    (∀ (text : String) (kind : Kind) (size : Nat), matchStart? text = some (kind, size) →
      ∃ lexeme rest, text = lexeme ++ rest ∧ lexeme ≠ "" ∧ lexeme.utf8ByteSize = size) ∧
    ∀ text : String, scanAt text .start = .ok (scan text) := by
  refine ⟨fun lexeme rest kind h => ⟨?_, fun other same => ?_⟩,
    fun text kind size => exists_lexeme_of_matchStart?, scanAt_start⟩
  · -- The end of the text shows no more than what stood behind the lexeme.
    have same := @matchStart?_append_iff lexeme "" kind
    rw [String.append_empty] at same
    rw [matchStart?_append_iff] at h
    exact same.mpr (firstMatch?_append_congr h (.of_isPrefix List.nil_prefix))
  · rw [matchStart?_append_iff] at h ⊢
    exact firstMatch?_append_congr h (.of_take same)

/-- A number in front of a point without a digit behind it, and a string with characters of several
    bytes. -/
theorem matchStart?_lookahead_number :
    (matchStart? ("12" ++ ".é9") = some (.number, "12".utf8ByteSize) ∧
      matchStart? "12" = some (.number, "12".utf8ByteSize) ∧
      ".é".toList.take 2 = ".é9".toList.take 2 ∧
      matchStart? ("12" ++ ".é") = some (.number, "12".utf8ByteSize)) ∧
    matchStart? ("\"日é\"" ++ ";") = some (.string, "\"日é\"".utf8ByteSize) ∧
      ∃ lexeme rest, "\"日é\"" ++ ";" = lexeme ++ rest ∧ lexeme ≠ "" ∧
        lexeme.utf8ByteSize = "\"日é\"".utf8ByteSize := by
  have number : matchStart? ("12" ++ ".é9") = some (.number, "12".utf8ByteSize) :=
    matchStart?_append_iff.mpr (by decide)
  have same : ".é".toList.take 2 = ".é9".toList.take 2 := by decide
  have string : matchStart? ("\"日é\"" ++ ";") = some (.string, "\"日é\"".utf8ByteSize) :=
    matchStart?_append_iff.mpr (by decide)
  obtain ⟨whole, others⟩ := matchStart?_lookahead.1 _ _ _ number
  exact ⟨⟨number, whole, same, others _ same⟩, string, matchStart?_lookahead.2.1 _ _ _ string⟩

/-- One character is not enough to tell where a number ends. -/
example : matchStart? "1.x" = some (.number, 1) ∧ matchStart? "1.5" = some (.number, 3) := by
  cbv

end LoxSyntax
