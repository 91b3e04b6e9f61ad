import LoxSyntax.Proofs.Grammar.Ends

/-! # The marker within a word

The grammar asks for the marker for the end of the input in two places: behind the declarations of a
program, and behind a `print`, where a semicolon would do as well.  So a marker within declarations
stands behind a `print` and its expression (`Derives.exists_print`), and declarations stay
declarations when each marker in them is replaced by a semicolon (`Derives.unmarked`). -/

namespace LoxSyntax

variable {form : Form} {kind : Kind} {word more before after : List Kind}

/-! ## Words without a marker -/

/-- Whether the marker can stand in a word of a nonterminal. -/
def Nonterminal.hasMarker : Nonterminal → Bool
  | .program | .declaration | .funDecl | .statement | .forStmt | .ifStmt | .printStmt | .whileStmt
  | .block | .function => true
  | _ => false

/-- Whether the marker can stand in a word of a form. -/
def Form.hasMarker : Form → Bool
  | empty => false
  | token kinds => kinds.contains .endOfInput
  | category n => n.hasMarker
  | seq first second => first.hasMarker || second.hasMarker
  | choice left right => left.hasMarker || right.hasMarker
  | many item => item.hasMarker

/-- The table of nonterminals with markers agrees with the productions. -/
private theorem Nonterminal.hasMarker_of_production {n : Nonterminal}
    (h : n.production.hasMarker = true) : n.hasMarker = true := by
  cases n <;> first | rfl | exact absurd h (by decide)

/-- A form with a word that holds the marker shows that it may hold one. -/
private theorem hasMarker_of_derives (h : Derives form word) (member : .endOfInput ∈ word) :
    form.hasMarker = true := by
  induction h with
  | empty | manyNil => cases member
  | token isKind => simpa [Form.hasMarker, ← List.mem_singleton.mp member] using isKind
  | category _ ih => exact Nonterminal.hasMarker_of_production (ih member)
  | seq _ _ ih ih' =>
    -- The marker stands in one of the two parts.
    rw [Form.hasMarker, Bool.or_eq_true]
    exact (List.mem_append.mp member).imp ih ih'
  | left _ ih => rw [Form.hasMarker, ih member, Bool.true_or]
  | right _ ih => rw [Form.hasMarker, ih member, Bool.or_true]
  | manyCons _ _ ih ih' =>
    rcases List.mem_append.mp member with member | member
    · exact ih member
    · exact ih' member

/-! ## What stands in front of a marker -/

/-- An element of two lists together is in the first of them or in the second. -/
private theorem append_eq_append_cons {α : Type} {front back before after : List α} {a : α}
    (h : front ++ back = before ++ a :: after) :
    (∃ rest, front = before ++ a :: rest) ∨
      ∃ rest, before = front ++ rest ∧ back = rest ++ a :: after := by
  rcases List.append_eq_append_iff.mp h with ⟨rest, isBefore, isBack⟩ | ⟨rest, isFront, isRest⟩
  · exact .inr ⟨rest, isBefore, isBack⟩
  · -- The element may be the first one behind the front, or stand within it.
    cases rest with
    | nil => exact .inr ⟨[], by simpa using isFront.symm, isRest.symm⟩
    | cons _ rest =>
      obtain ⟨rfl, -⟩ := List.cons.inj isRest
      exact .inl ⟨rest, isFront⟩

/-- What the production of `printStmt` says. -/
private theorem derives_printStmt_iff : Derives (.category .printStmt) word ↔
    ∃ expression, Derives (.category .expression) expression ∧
      ∃ kind ∈ [Kind.semicolon, .endOfInput], word = .kwPrint :: (expression ++ [kind]) := by
  simp only [derives_category_iff (n := .printStmt), Nonterminal.production, Form.inOrder,
    derives_seq_iff, derives_token_iff]
  -- What the sequence of parts says has to be read off word by word.
  constructor
  · intro h
    obtain ⟨_, _, rfl, ⟨_, isPrint, rfl⟩, expression, _, rfl, h, kind, member, rfl⟩ := h
    obtain rfl := List.mem_singleton.mp isPrint
    exact ⟨expression, h, kind, member, rfl⟩
  · intro h
    obtain ⟨expression, h, kind, member, rfl⟩ := h
    exact ⟨[.kwPrint], _, rfl, ⟨_, List.mem_singleton_self _, rfl⟩, expression, _, rfl, h, kind,
      member, rfl⟩

/-- Whether a form asks for the marker by itself, or for a whole program. -/
def Form.asksForMarker : Form → Bool
  | empty => false
  | token kinds => kinds.contains .endOfInput
  | category n => n == .program
  | seq first second => first.asksForMarker || second.asksForMarker
  | choice left right => left.asksForMarker || right.asksForMarker
  | many item => item.asksForMarker

/-- Only a program and a `print` ask for the marker. -/
private theorem Nonterminal.asksForMarker_production {n : Nonterminal} (inner : n ≠ .program)
    (notPrint : n ≠ .printStmt) : n.production.asksForMarker = false := by
  cases n <;> first | rfl | contradiction

/-- A marker stands behind a `print` and its expression. -/
theorem Derives.exists_print (h : Derives form word) (inner : form.asksForMarker = false)
    (split : word = before ++ .endOfInput :: after) :
    ∃ front expression, before = front ++ .kwPrint :: expression ∧
      Derives (.category .expression) expression := by
  induction h generalizing before after with
  | empty | manyNil => simp at split
  | token member =>
    obtain ⟨-, rfl, -⟩ : before = [] ∧ Kind.endOfInput = _ ∧ after = [] := by
      simpa using List.singleton_eq_append_iff.mp split
    simp [Form.asksForMarker, member] at inner
  | @category n _ h ih =>
    have notProgram : n ≠ .program := by simpa [Form.asksForMarker] using inner
    by_cases isPrint : n = .printStmt
    · subst isPrint
      obtain ⟨expression, derived, kind, -, rfl⟩ := derives_printStmt_iff.mp (.category h)
      cases before with
      | nil => cases split
      | cons _ before =>
        rw [List.cons_append, List.cons.injEq] at split
        obtain ⟨rfl, split⟩ := split
        -- There is no marker in the expression, so it is the token behind it.
        rcases append_eq_append_cons split with ⟨_, rfl⟩ | ⟨rest, rfl, single⟩
        · cases hasMarker_of_derives derived (by simp)
        · obtain rfl : rest = [] := by cases rest <;> simp at single ⊢
          exact ⟨[], expression, by simp, derived⟩
    · exact ih (n.asksForMarker_production notProgram isPrint) split
  | seq _ _ ih ih' =>
    rw [Form.asksForMarker, Bool.or_eq_false_iff] at inner
    rcases append_eq_append_cons split with ⟨_, inFirst⟩ | ⟨_, rfl, inSecond⟩
    · exact ih inner.1 inFirst
    · obtain ⟨front, expression, rfl, derived⟩ := ih' inner.2 inSecond
      exact ⟨_ ++ front, expression, by rw [List.append_assoc], derived⟩
  | left _ ih =>
    rw [Form.asksForMarker, Bool.or_eq_false_iff] at inner
    exact ih inner.1 split
  | right _ ih =>
    rw [Form.asksForMarker, Bool.or_eq_false_iff] at inner
    exact ih inner.2 split
  | manyCons _ _ ih ih' =>
    rcases append_eq_append_cons split with ⟨_, inFirst⟩ | ⟨_, rfl, inSecond⟩
    · exact ih inner inFirst
    · obtain ⟨front, expression, rfl, derived⟩ := ih' inner inSecond
      exact ⟨_ ++ front, expression, by rw [List.append_assoc], derived⟩

/-- The token in front of a marker ends an expression. -/
theorem Derives.mem_expressionEnds (h : Derives form (before ++ .endOfInput :: after))
    (inner : form.asksForMarker = false) :
    ∃ kind ∈ Kind.expressionEnds, before.getLast? = some kind := by
  obtain ⟨front, expression, rfl, derived⟩ := h.exists_print inner rfl
  have nonempty := ne_nil_of_derives_category derived
  have last := List.getLast?_eq_some_getLast nonempty
  refine ⟨_, mem_ends_of_derives derived last, ?_⟩
  rw [List.getLast?_append, List.getLast?_cons_of_ne_nil nonempty, last, Option.some_or]

/-! ## Semicolons in place of markers -/

/-- The kind that stands where the marker has been replaced by a semicolon. -/
def Kind.unmarked : Kind → Kind
  | .endOfInput => .semicolon
  | kind => kind

/-- A kind other than the marker is left as it is. -/
private theorem Kind.unmarked_of_ne (h : kind ≠ .endOfInput) : kind.unmarked = kind := by
  cases kind <;> first | rfl | contradiction

/-- Words without the marker stay as they are. -/
private theorem map_unmarked (h : .endOfInput ∉ word) : word.map Kind.unmarked = word := by
  rw [List.map_congr_left (g := id), List.map_id]
  intro kind member
  exact Kind.unmarked_of_ne (fun isMarker => h (isMarker ▸ member))

/-- Whether a form allows a semicolon wherever it allows the marker, whole programs being left
    aside. -/
def Form.offersSemicolon : Form → Bool
  | empty => true
  | token kinds => !kinds.contains .endOfInput || kinds.contains .semicolon
  | category n => n != .program
  | seq first second => first.offersSemicolon && second.offersSemicolon
  | choice left right => left.offersSemicolon && right.offersSemicolon
  | many item => item.offersSemicolon

/-- In all productions but that of a program, a semicolon will do where the marker does. -/
private theorem Nonterminal.offersSemicolon_production {n : Nonterminal} (inner : n ≠ .program) :
    n.production.offersSemicolon = true := by
  cases n <;> first | rfl | contradiction

/-- Each marker in a word can be replaced by a semicolon. -/
theorem Derives.unmarked (h : Derives form word) (offers : form.offersSemicolon = true) :
    Derives form (word.map Kind.unmarked) := by
  induction h with
  | empty => exact .empty
  | @token kind kinds member =>
    refine .token ?_
    -- Where the marker was taken, the form offers a semicolon in its place.
    by_cases isMarker : kind = .endOfInput
    · subst isMarker
      show Kind.semicolon ∈ kinds
      simpa [Form.offersSemicolon, member] using offers
    · rw [Kind.unmarked_of_ne isMarker]
      exact member
  | @category n _ _ ih =>
    have notProgram : n ≠ .program := by simpa [Form.offersSemicolon] using offers
    exact .category (ih (n.offersSemicolon_production notProgram))
  | seq _ _ ih ih' =>
    rw [Form.offersSemicolon, Bool.and_eq_true] at offers
    rw [List.map_append]
    exact .seq (ih offers.1) (ih' offers.2)
  | left _ ih =>
    rw [Form.offersSemicolon, Bool.and_eq_true] at offers
    exact .left (ih offers.1)
  | right _ ih =>
    rw [Form.offersSemicolon, Bool.and_eq_true] at offers
    exact .right (ih offers.2)
  | manyNil => exact .manyNil
  | manyCons _ _ ih ih' =>
    rw [List.map_append]
    exact .manyCons (ih offers) (ih' offers)

/-- A marker within declarations can be replaced by a semicolon. -/
theorem Derives.replace_marker
    (h : Derives (.many (.category .declaration)) (word ++ [.endOfInput] ++ more))
    (unmarked : .endOfInput ∉ word) (unmarked' : .endOfInput ∉ more) :
    Derives (.many (.category .declaration)) (word ++ [.semicolon] ++ more) := by
  have replaced := h.unmarked rfl
  rw [List.map_append, List.map_append, map_unmarked unmarked, map_unmarked unmarked'] at replaced
  exact replaced

/-- Declarations that end with the marker can end with a semicolon instead. -/
theorem Derives.replace_last_marker
    (h : Derives (.many (.category .declaration)) (word ++ [.endOfInput]))
    (unmarked : .endOfInput ∉ word) :
    Derives (.many (.category .declaration)) (word ++ [.semicolon]) := by
  rw [← List.append_nil (word ++ _)] at h ⊢
  exact h.replace_marker unmarked List.not_mem_nil

end LoxSyntax
