import LoxSyntax.Proofs.Grammar.Derives

/-! # Which `if` an `else` belongs to

The grammar leaves open which `if` an `else` belongs to.  `Nests` restricts derivations to those in
which it belongs to the nearest one that can take it: the statement between an `if` and its `else`
is not open, where a statement is open if an `else` could be put behind it.

Main statement: the restriction loses no words, `derives_iff_exists_nests`.  An `else` that a
derivation gives to an `if` too far out can always be moved to the nearest one. -/

namespace LoxSyntax

/-- A form stands for a word in a derivation that gives each `else` to the nearest `if`.  The word
    is open if it ends in a statement that could take an `else`: an `if` without one, or a statement
    whose last part is open.  A repetition is never open: what stands behind one in the grammar is
    an operator, a bracket or the end of the input. -/
inductive Nests : Form → (isOpen : Bool) → List Kind → Prop
  | empty : Nests .empty false []
  | token {kind : Kind} {kinds : List Kind} : kind ∈ kinds → Nests (.token kinds) false [kind]
  | category {n : Nonterminal} {isOpen : Bool} {word : List Kind} : n ≠ .ifStmt →
    Nests n.production isOpen word → Nests (.category n) isOpen word
  | ifAlone {condition body : List Kind} {conditionOpen bodyOpen : Bool} :
    Nests (.category .expression) conditionOpen condition →
    Nests (.category .statement) bodyOpen body →
    Nests (.category .ifStmt) true
      ([.kwIf, .leftParen] ++ (condition ++ ([.rightParen] ++ body)))
  | ifElse {condition body other : List Kind} {conditionOpen isOpen : Bool} :
    Nests (.category .expression) conditionOpen condition →
    Nests (.category .statement) false body →
    Nests (.category .statement) isOpen other →
    Nests (.category .ifStmt) isOpen
      ([.kwIf, .leftParen] ++ (condition ++ ([.rightParen] ++ (body ++ ([.kwElse] ++ other)))))
  | seq {first second : Form} {firstOpen isOpen : Bool} {word more : List Kind} :
    Nests first firstOpen word → Nests second isOpen more →
    Nests (.seq first second) isOpen (word ++ more)
  | left {left right : Form} {isOpen : Bool} {word : List Kind} :
    Nests left isOpen word → Nests (.choice left right) isOpen word
  | right {left right : Form} {isOpen : Bool} {word : List Kind} :
    Nests right isOpen word → Nests (.choice left right) isOpen word
  | manyNil {item : Form} : Nests (.many item) false []
  | manyCons {item : Form} {itemOpen moreOpen : Bool} {word more : List Kind} :
    Nests item itemOpen word → Nests (.many item) moreOpen more →
    Nests (.many item) false (word ++ more)

variable {form first second left right item : Form} {n : Nonterminal} {kinds word : List Kind}
  {isOpen : Bool}

/-! ## The words of a form -/

/-- The empty word is closed. -/
theorem nests_empty_iff : Nests .empty isOpen word ↔ isOpen = false ∧ word = [] := by
  constructor
  · intro h
    cases h
    exact ⟨rfl, rfl⟩
  · intro h
    obtain ⟨rfl, rfl⟩ := h
    exact .empty

/-- A single token is closed. -/
theorem nests_token_iff :
    Nests (.token kinds) isOpen word ↔ isOpen = false ∧ ∃ kind ∈ kinds, word = [kind] := by
  constructor
  · intro h
    cases h with
    | token member => exact ⟨rfl, _, member, rfl⟩
  · intro h
    obtain ⟨rfl, kind, member, rfl⟩ := h
    exact .token member

/-- Apart from `if`, a nonterminal nests as its production does. -/
theorem nests_category_iff (notIf : n ≠ .ifStmt) :
    Nests (.category n) isOpen word ↔ Nests n.production isOpen word := by
  constructor
  · intro h
    cases h with
    | category _ h => exact h
    | ifAlone | ifElse => exact absurd rfl notIf
  · exact .category notIf

/-- A sequence is open if its second part is. -/
theorem nests_seq_iff : Nests (.seq first second) isOpen word ↔
    ∃ start rest, word = start ++ rest ∧ (∃ firstOpen, Nests first firstOpen start) ∧
      Nests second isOpen rest := by
  constructor
  · intro h
    cases h with
    | seq h h' => exact ⟨_, _, rfl, ⟨_, h⟩, h'⟩
  · intro h
    obtain ⟨start, rest, rfl, ⟨_, h⟩, h'⟩ := h
    exact .seq h h'

/-- A choice nests as one of the two forms does. -/
theorem nests_choice_iff :
    Nests (.choice left right) isOpen word ↔ Nests left isOpen word ∨ Nests right isOpen word := by
  constructor
  · intro h
    cases h with
    | left h => exact .inl h
    | right h => exact .inr h
  · rintro (h | h)
    · exact .left h
    · exact .right h

/-! ## Nested derivations are derivations -/

/-- What the production of `ifStmt` says. -/
private theorem derives_ifStmt_iff : Derives (.category .ifStmt) word ↔
    ∃ condition body rest, word = [.kwIf, .leftParen] ++ (condition ++ ([.rightParen] ++
        (body ++ rest))) ∧
      Derives (.category .expression) condition ∧ Derives (.category .statement) body ∧
      (rest = [] ∨ ∃ other, rest = [.kwElse] ++ other ∧ Derives (.category .statement) other) := by
  simp only [derives_category_iff (n := .ifStmt), Nonterminal.production, Form.inOrder,
    Form.optional, derives_seq_iff, derives_choice_iff, derives_token_iff, derives_empty_iff,
    List.mem_singleton]
  -- Each part of the production is a word of its own, and the last one may be missing.
  constructor
  · rintro ⟨_, _, rfl, ⟨_, rfl, rfl⟩, _, _, rfl, ⟨_, rfl, rfl⟩, condition, _, rfl, h, _, _, rfl,
      ⟨_, rfl, rfl⟩, body, rest, rfl, h', tail⟩
    refine ⟨condition, body, rest, rfl, h, h', ?_⟩
    rcases tail with ⟨_, other, rfl, ⟨_, rfl, rfl⟩, h''⟩ | rfl
    · exact .inr ⟨other, rfl, h''⟩
    · exact .inl rfl
  · intro h
    obtain ⟨condition, body, rest, rfl, h, h', tail⟩ := h
    refine ⟨[.kwIf], _, rfl, ⟨_, rfl, rfl⟩, [.leftParen], _, rfl, ⟨_, rfl, rfl⟩, condition, _, rfl,
      h, [.rightParen], _, rfl, ⟨_, rfl, rfl⟩, body, rest, rfl, h', ?_⟩
    rcases tail with rfl | ⟨other, rfl, h''⟩
    · exact .inr rfl
    · exact .inl ⟨_, other, rfl, ⟨_, rfl, rfl⟩, h''⟩

/-- A nested derivation is a derivation. -/
theorem Nests.derives (h : Nests form isOpen word) : Derives form word := by
  induction h with
  | empty => exact .empty
  | token member => exact .token member
  | category _ _ ih => exact .category ih
  | @ifAlone condition body _ _ _ _ ih ih' =>
    refine derives_ifStmt_iff.mpr ⟨condition, body, [], ?_, ih, ih', .inl rfl⟩
    -- Without an `else`, nothing stands behind the body.
    rw [List.append_nil]
  | @ifElse condition body other _ _ _ _ _ ih ih' ih'' =>
    exact derives_ifStmt_iff.mpr ⟨condition, body, _, rfl, ih, ih', .inr ⟨other, rfl, ih''⟩⟩
  | seq _ _ ih ih' => exact .seq ih ih'
  | left _ ih => exact .left ih
  | right _ ih => exact .right ih
  | manyNil => exact .manyNil
  | manyCons _ _ ih ih' => exact .manyCons ih ih'

/-! ## Every word has a nested derivation -/

/-- An `else` behind an open word can be given to the nearest `if` in the word. -/
theorem Nests.append_else {other : List Kind} {otherOpen : Bool} (h : Nests form true word)
    (h' : Nests (.category .statement) otherOpen other) :
    ∃ isOpen, Nests form isOpen (word ++ ([.kwElse] ++ other)) := by
  generalize opened : true = isOpen at h
  induction h with
  | empty | token | manyNil | manyCons => cases opened
  | category notIf _ ih =>
    obtain ⟨isOpen, nested⟩ := ih opened
    exact ⟨isOpen, .category notIf nested⟩
  | @ifAlone condition body _ bodyOpen hc hb _ ih =>
    simp only [List.append_assoc]
    -- An `if` in the body is nearer, if there is one that can take the `else`.
    cases bodyOpen with
    | true =>
      obtain ⟨_, nested⟩ := ih rfl
      exact ⟨true, .ifAlone hc nested⟩
    | false => exact ⟨otherOpen, .ifElse hc hb h'⟩
  | ifElse hc hb _ _ _ ih =>
    obtain ⟨isOpen, nested⟩ := ih opened
    simp only [List.append_assoc]
    exact ⟨isOpen, .ifElse hc hb nested⟩
  | seq first _ _ ih =>
    obtain ⟨isOpen, nested⟩ := ih opened
    rw [List.append_assoc]
    exact ⟨isOpen, .seq first nested⟩
  | left _ ih =>
    obtain ⟨isOpen, nested⟩ := ih opened
    exact ⟨isOpen, .left nested⟩
  | right _ ih =>
    obtain ⟨isOpen, nested⟩ := ih opened
    exact ⟨isOpen, .right nested⟩

/-- What a nested derivation from the production of `ifStmt` has for parts.  The production does not
    restrict its own `else`. -/
private theorem nests_production_ifStmt (h : Nests Nonterminal.ifStmt.production isOpen word) :
    ∃ condition body rest, word = [.kwIf, .leftParen] ++ (condition ++ ([.rightParen] ++
        (body ++ rest))) ∧
      (∃ conditionOpen, Nests (.category .expression) conditionOpen condition) ∧
      (∃ bodyOpen, Nests (.category .statement) bodyOpen body) ∧
      (rest = [] ∨ ∃ other, rest = [.kwElse] ++ other ∧
        ∃ otherOpen, Nests (.category .statement) otherOpen other) := by
  simp only [Nonterminal.production, Form.inOrder, Form.optional, nests_seq_iff, nests_choice_iff,
    nests_token_iff, nests_empty_iff, List.mem_singleton] at h
  obtain ⟨_, _, rfl, ⟨_, -, _, rfl, rfl⟩, _, _, rfl, ⟨_, -, _, rfl, rfl⟩, condition, _, rfl, hc,
    _, _, rfl, ⟨_, -, _, rfl, rfl⟩, body, rest, rfl, hb, tail⟩ := h
  refine ⟨condition, body, rest, rfl, hc, hb, ?_⟩
  -- The tail is an `else` and a statement, or it is missing.
  rcases tail with ⟨_, other, rfl, ⟨_, -, _, rfl, rfl⟩, ho⟩ | ⟨-, rfl⟩
  · exact .inr ⟨other, rfl, _, ho⟩
  · exact .inl rfl

/-- Each word of a form has a nested derivation. -/
theorem Derives.exists_nests (h : Derives form word) : ∃ isOpen, Nests form isOpen word := by
  induction h with
  | empty => exact ⟨_, .empty⟩
  | token member => exact ⟨_, .token member⟩
  | @category n _ _ ih =>
    obtain ⟨isOpen, nested⟩ := ih
    -- Only an `if` can have been given the wrong `else`.
    by_cases isIf : n = .ifStmt
    · subst isIf
      obtain ⟨condition, body, rest, rfl, ⟨_, hc⟩, ⟨bodyOpen, hb⟩, tail⟩ :=
        nests_production_ifStmt nested
      rcases tail with rfl | ⟨other, rfl, _, ho⟩
      · rw [List.append_nil]
        exact ⟨true, .ifAlone hc hb⟩
      · cases bodyOpen with
        | false => exact ⟨_, .ifElse hc hb ho⟩
        | true =>
          -- The derivation gave the `else` to this `if`, and an `if` in the body is nearer.
          obtain ⟨_, moved⟩ := hb.append_else ho
          exact ⟨true, .ifAlone hc moved⟩
    · exact ⟨isOpen, .category isIf nested⟩
  | seq _ _ ih ih' =>
    obtain ⟨_, nested⟩ := ih
    obtain ⟨_, nested'⟩ := ih'
    exact ⟨_, .seq nested nested'⟩
  | left _ ih =>
    obtain ⟨_, nested⟩ := ih
    exact ⟨_, .left nested⟩
  | right _ ih =>
    obtain ⟨_, nested⟩ := ih
    exact ⟨_, .right nested⟩
  | manyNil => exact ⟨_, .manyNil⟩
  | manyCons _ _ ih ih' =>
    obtain ⟨_, nested⟩ := ih
    obtain ⟨_, nested'⟩ := ih'
    exact ⟨_, .manyCons nested nested'⟩

/-- Giving each `else` to the nearest `if` loses no words. -/
theorem derives_iff_exists_nests : Derives form word ↔ ∃ isOpen, Nests form isOpen word := by
  constructor
  · exact Derives.exists_nests
  · intro h
    obtain ⟨_, nested⟩ := h
    exact nested.derives

/-! ## Which words can be open -/

/-- The nonterminals that have open words. -/
def Nonterminal.opens : Nonterminal → Bool
  | .declaration | .statement | .forStmt | .ifStmt | .whileStmt => true
  | _ => false

/-- Whether a form can have open words, judged by its last part. -/
def Form.opens : Form → Bool
  | category n => n.opens
  | seq _ second => second.opens
  | choice left right => left.opens || right.opens
  | _ => false

/-- The table of nonterminals with open words agrees with the productions. -/
theorem Nonterminal.opens_of_production {n : Nonterminal} (h : n.production.opens = true) :
    n.opens = true := by
  cases n <;> first | rfl | exact absurd h (by decide)

/-- A form with an open word shows that it may have one. -/
theorem opens_of_nests (h : Nests form isOpen word) (opened : isOpen = true) :
    form.opens = true := by
  induction h with
  | empty | token | manyNil | manyCons => cases opened
  | category _ _ ih => exact Nonterminal.opens_of_production (ih opened)
  | ifAlone | ifElse => rfl
  | seq _ _ _ ih => exact ih opened
  | left _ ih => rw [Form.opens, ih opened, Bool.true_or]
  | right _ ih => rw [Form.opens, ih opened, Bool.or_true]

/-- A word of a form without open words is not open. -/
theorem Nests.eq_false (h : Nests form isOpen word) (closed : form.opens = false) :
    isOpen = false := by
  cases isOpen with
  | false => rfl
  | true => cases closed.symm.trans (opens_of_nests h rfl)

end LoxSyntax
