import LoxSyntax.Proofs.Grammar.Derives

/-! # Forms that can be written out

Every nonterminal but `program` has a word in which the marker for the end of the input does not
occur, so whatever a recognizer asks for can be supplied (`writable_of_form`).  That these
words exist is found out nonterminal by nonterminal: each has a production that only uses
nonterminals found before. -/

namespace LoxSyntax

/-- A form has a word without a marker for the end of the input. -/
def Writable (form : Form) : Prop := ∃ word, Kind.endOfInput ∉ word ∧ Derives form word

/-- Whether a form can be written with the nonterminals of a list. -/
def Form.writableFrom (known : List Nonterminal) : Form → Bool
  | empty => true
  | token kinds => kinds.any (· != .endOfInput)
  | category n => known.contains n
  | seq first second => first.writableFrom known && second.writableFrom known
  | choice left right => left.writableFrom known || right.writableFrom known
  | many _ => true

/-- A form that uses no other nonterminals than those that can be written out can be written out,
    too. -/
private theorem writable_of_writableFrom {known : List Nonterminal}
    (writable : ∀ n ∈ known, Writable (.category n)) {form : Form}
    (h : form.writableFrom known = true) : Writable form := by
  induction form with
  | empty => exact ⟨[], List.not_mem_nil, .empty⟩
  | token kinds =>
    rw [Form.writableFrom, List.any_eq_true] at h
    obtain ⟨kind, member, notEnd⟩ := h
    rw [bne_iff_ne] at notEnd
    exact ⟨[kind], fun isEnd => notEnd (List.mem_singleton.mp isEnd).symm, .token member⟩
  | category n => exact writable n (List.contains_iff_mem.mp h)
  | seq first second ih ih' =>
    rw [Form.writableFrom, Bool.and_eq_true] at h
    obtain ⟨word, notEnd, derived⟩ := ih h.1
    obtain ⟨more, notEnd', derived'⟩ := ih' h.2
    -- Neither of the two words holds the marker, so their sequence does not, either.
    exact ⟨word ++ more, by simp [notEnd, notEnd'], .seq derived derived'⟩
  | choice left right ih ih' =>
    rw [Form.writableFrom, Bool.or_eq_true] at h
    rcases h with h | h
    · obtain ⟨word, notEnd, derived⟩ := ih h
      exact ⟨word, notEnd, .left derived⟩
    · obtain ⟨word, notEnd, derived⟩ := ih' h
      exact ⟨word, notEnd, .right derived⟩
  | many => exact ⟨[], List.not_mem_nil, .manyNil⟩

namespace Nonterminal

/-- The nonterminals in an order in which each can be written with those behind it.  A program has
    to end in a marker, so it is not among them. -/
def writingOrder : List Nonterminal :=
  [.declaration, .funDecl, .varDecl, .function, .parameters, .block, .forStmt, .ifStmt, .whileStmt,
   .statement, .printStmt, .returnStmt, .exprStmt, .arguments, .expression, .assignment, .logicOr,
   .logicAnd, .equality, .comparison, .term, .factor, .unary, .call, .primary]

/-- Every nonterminal but `program` is found at some time. -/
theorem mem_writingOrder {n : Nonterminal} (inner : n ≠ .program) : n ∈ writingOrder := by
  cases n <;> first | decide | contradiction

/-- Whether each nonterminal of a list can be written with those behind it. -/
def ordered : List Nonterminal → Bool
  | [] => true
  | n :: rest => n.production.writableFrom rest && ordered rest

/-- Nonterminals of which each uses only those behind it can all be written out. -/
theorem writable_of_ordered {known : List Nonterminal} (h : ordered known = true) :
    ∀ n ∈ known, Writable (.category n) := by
  induction known with
  | nil => simp
  | cons n rest ih =>
    rw [ordered, Bool.and_eq_true] at h
    -- What stands behind the first nonterminal is enough to write its production.
    have writable := ih h.2
    intro m member
    cases member with
    | head =>
      obtain ⟨word, notEnd, derived⟩ := writable_of_writableFrom writable h.1
      exact ⟨word, notEnd, .category derived⟩
    | tail _ member => exact writable m member

end Nonterminal

/-- Whether a form can be written out, whole programs being left aside. -/
def Form.writable (form : Form) : Bool := form.writableFrom Nonterminal.writingOrder

/-- Every form without `program` that asks for something else than the marker can be written out. -/
theorem writable_of_form {form : Form} (h : form.writable = true) : Writable form :=
  writable_of_writableFrom (Nonterminal.writable_of_ordered rfl) h

end LoxSyntax
