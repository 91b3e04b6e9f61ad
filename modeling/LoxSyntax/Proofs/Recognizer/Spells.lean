import LoxSyntax.Recognizer.Lookahead

/-! # Words in a sequence of tokens

`Spells tokens i word j` says that the tokens from the index `i` up to the index `j` have the kinds
of a word.  It is what the grammar and the recognizer have in common: the one speaks of words, and
the other of indices.  Each stretch of tokens spells one word, the kinds of the tokens in it
(`spells_kindsIn`, `Spells.kindsIn_eq`). -/

namespace LoxSyntax

/-- A token of some kind that is read from nowhere. -/
def Token.ofKind (kind : Kind) : Token := ⟨kind, "", .start⟩

/-- Tokens made from kinds are of these kinds. -/
theorem map_kind_ofKind (kinds : List Kind) : (kinds.map Token.ofKind).map (·.kind) = kinds := by
  rw [List.map_map]
  exact List.map_id kinds

namespace Recognizer

/-- The kinds of the tokens from one index up to another. -/
def kindsIn (tokens : Array Token) (start stop : Nat) : List Kind :=
  (tokens.extract start stop).toList.map (·.kind)

/-- The tokens from one index up to another have the kinds of a word. -/
def Spells (tokens : Array Token) : (start : Nat) → List Kind → (stop : Nat) → Prop
  | i, [], j => i = j
  | i, kind :: word, j => kindAt? tokens i = some kind ∧ Spells tokens (i + 1) word j

variable {tokens : Array Token} {i j k : Nat} {kind : Kind} {kinds word more : List Kind}

/-! ## One token -/

/-- The next token is of one of some kinds if its kind is among them. -/
theorem nextIs_iff :
    nextIs tokens i kinds = true ↔ ∃ kind ∈ kinds, kindAt? tokens i = some kind := by
  unfold nextIs
  cases kindAt? tokens i with
  | none => simp
  | some kind => simp

/-- Whether the next token is of some kinds, where its kind is known. -/
theorem nextIs_of_kindAt? (h : kindAt? tokens i = some kind) (kinds : List Kind) :
    nextIs tokens i kinds = kinds.contains kind := by
  rw [nextIs, h]
  rfl

/-- Where a token stands, the end is reached only if it is the marker. -/
theorem atEnd_of_kindAt? (h : kindAt? tokens i = some kind) :
    atEnd tokens i = (kind == .endOfInput) := by
  rw [atEnd, h]
  rfl

/-- A kind is only seen of a token within the sequence. -/
private theorem lt_size_of_kindAt? (h : kindAt? tokens i = some kind) : i < tokens.size :=
  lt_size_of_nextIs (nextIs_iff.mpr ⟨kind, List.mem_singleton_self kind, h⟩)

/-- An index shows no kind exactly if it is behind all tokens. -/
theorem kindAt?_eq_none_iff : kindAt? tokens i = none ↔ tokens.size ≤ i := by
  rw [kindAt?, Option.map_eq_none_iff, Array.getElem?_eq_none_iff]

/-! ## Words -/

/-- No tokens spell the empty word. -/
theorem spells_nil (i : Nat) : Spells tokens i [] i := rfl

/-- One token spells its kind. -/
theorem spells_singleton (h : kindAt? tokens i = some kind) :
    Spells tokens i [kind] (i + 1) := ⟨h, rfl⟩

/-- A word in two parts is spelled by two stretches of tokens. -/
theorem spells_append : Spells tokens i (word ++ more) k ↔
    ∃ j, Spells tokens i word j ∧ Spells tokens j more k := by
  -- Induction on the first word: what moves on with it is the index at which the second one begins.
  induction word generalizing i with
  | nil =>
    constructor
    · intro h
      exact ⟨i, rfl, h⟩
    · intro h
      obtain ⟨_, rfl, h⟩ := h
      exact h
  | cons kind word ih =>
    rw [List.cons_append, Spells, ih]
    constructor
    · intro h
      obtain ⟨next, j, h, h'⟩ := h
      exact ⟨j, ⟨next, h⟩, h'⟩
    · intro h
      obtain ⟨j, ⟨next, h⟩, h'⟩ := h
      exact ⟨next, j, h, h'⟩

/-- Words spelled one behind the other are one word. -/
theorem Spells.append (h : Spells tokens i word j) (h' : Spells tokens j more k) :
    Spells tokens i (word ++ more) k := spells_append.mpr ⟨j, h, h'⟩

/-- The stretch of tokens is as long as the word. -/
theorem Spells.stop_eq (h : Spells tokens i word j) : j = i + word.length := by
  induction word generalizing i with
  | nil => exact h.symm
  | cons kind word ih =>
    rw [ih h.2, List.length_cons]
    omega

/-- A nonempty word moves the index. -/
theorem Spells.lt (h : Spells tokens i word j) (nonempty : word ≠ []) : i < j := by
  have := h.stop_eq
  have := List.length_pos_iff.mpr nonempty
  omega

/-- A word ends as the stretch of tokens does. -/
theorem Spells.getLast?_eq (h : Spells tokens i word j) (moved : i < j) :
    word.getLast? = kindAt? tokens (j - 1) := by
  induction word generalizing i with
  | nil =>
    have here : i = j := h
    omega
  | cons kind word ih =>
    -- The last letter of a word of two or more is that of the word without its first.
    cases word with
    | nil =>
      obtain ⟨next, rfl⟩ := h
      exact next.symm
    | cons other word =>
      rw [List.getLast?_cons_cons]
      exact ih h.2 (h.2.lt (List.cons_ne_nil _ _))

/-- The marker was taken exactly if the word so far ends with it. -/
theorem Spells.endTaken_eq (h : Spells tokens 0 word j) :
    endTaken tokens j = (word.getLast? == some .endOfInput) := by
  unfold endTaken
  cases word with
  | nil =>
    obtain rfl : 0 = j := h
    rfl
  | cons =>
    have moved := h.lt (List.cons_ne_nil _ _)
    rw [h.getLast?_eq moved, decide_eq_true moved, Bool.true_and]

/-- The word is read off the tokens. -/
theorem Spells.kindsIn_eq (h : Spells tokens i word j) : kindsIn tokens i j = word := by
  induction word generalizing i with
  | nil =>
    obtain rfl : i = j := h
    simp [kindsIn]
  | cons kind word ih =>
    obtain ⟨next, rest⟩ := h
    have within := lt_size_of_kindAt? next
    have := rest.stop_eq
    rw [kindAt?, Array.getElem?_eq_getElem within, Option.map_some, Option.some.injEq] at next
    -- Both stretches are written as what is taken of the tokens from an index on, where the first
    -- token of the longer one can be split off.
    rw [← ih rest, kindsIn, kindsIn, Array.toList_extract, Array.toList_extract,
      List.extract_eq_take_drop, List.extract_eq_take_drop,
      List.drop_eq_getElem_cons (by simpa using within),
      show j - i = j - (i + 1) + 1 from by omega, List.take_succ_cons, List.map_cons,
      Array.getElem_toList, next]

/-- Each stretch of tokens spells a word. -/
theorem spells_kindsIn (le : i ≤ j) (within : j ≤ tokens.size) :
    Spells tokens i (kindsIn tokens i j) j := by
  obtain ⟨n, rfl⟩ := Nat.exists_eq_add_of_le le
  -- It is enough that the tokens spell some word, as this is then the one that is read off them.
  have exists_spells : ∃ word, Spells tokens i word (i + n) := by
    clear le
    induction n generalizing i with
    | zero => exact ⟨[], rfl⟩
    | succ n ih =>
      obtain ⟨word, h⟩ := ih (i := i + 1) (by omega)
      refine ⟨tokens[i].kind :: word, ?_, ?_⟩
      · rw [kindAt?, Array.getElem?_eq_getElem (by omega), Option.map_some]
      · rw [show i + (n + 1) = i + 1 + n from by omega]
        exact h
  obtain ⟨word, h⟩ := exists_spells
  rw [h.kindsIn_eq]
  exact h

/-- The same tokens spell only one word. -/
theorem Spells.unique (h : Spells tokens i word j) (h' : Spells tokens i more j) : word = more := by
  rw [← h.kindsIn_eq, h'.kindsIn_eq]

/-- A word that the first tokens spell is the kinds of these. -/
theorem Spells.take_eq {tokens : List Token} (h : Spells tokens.toArray 0 word k) :
    (tokens.take k).map (·.kind) = word := by
  rw [← h.kindsIn_eq, kindsIn]
  simp

/-- All tokens together spell the kinds of all of them. -/
theorem spells_all (tokens : List Token) :
    Spells tokens.toArray 0 (tokens.map (·.kind)) tokens.length := by
  have h := spells_kindsIn (Nat.zero_le tokens.toArray.size) (Nat.le_refl _)
  rw [kindsIn, Array.extract_size] at h
  exact h

end Recognizer

end LoxSyntax
