import LoxSyntax.Proofs.Recognizer.Errors
import LoxSyntax.Proofs.Recognizer.Extent
import LoxSyntax.Proofs.Recognizer.Program

/-! # Statements without their semicolon

Where the semicolon is missing behind a declaration of a variable, behind an expression statement or
behind a `return` with a value, the recognizer comes to a stop right there, and the semicolon is all
that it asks for (`follows_unterminated`).  At the end of a text this is the error that is reported,
whatever declarations stand before, while a `print` may do without its semicolon
(`recognize_unterminated`). -/

namespace LoxSyntax

/-- What is left of a plan when the choices have been made that depend on the next token alone. -/
def Plan.chosen (next : Option Kind) : Plan → Plan
  | ifNext kinds yes no =>
    bif next.any (kinds.contains ·) then yes.chosen next else no.chosen next
  | plan => plan

/-- A word that lacks only its semicolon to be a declaration of a variable, an expression statement,
    or a `return` with a value. -/
def Unterminated (word : List Kind) : Prop :=
  Derives (.category .varDecl) (word ++ [.semicolon]) ∨
    Derives (.category .exprStmt) (word ++ [.semicolon]) ∨
    Derives (.inOrder [.token [.kwReturn], .category .expression, .token [.semicolon]])
      (word ++ [.semicolon])

variable {form : Form} {kind : Kind} {word : List Kind}

/-! ## The parts of a statement -/

/-- A token of one kind derives the word of this kind. -/
private theorem derives_single_iff : Derives (.token [kind]) word ↔ word = [kind] := by
  simp

/-- A word in front of a token that ends it. -/
private theorem derives_concat_iff :
    Derives (.seq form (.token [kind])) (word ++ [kind]) ↔ Derives form word := by
  constructor
  · intro h
    obtain ⟨start, _, split, h, token⟩ := derives_seq_iff.mp h
    obtain rfl := derives_single_iff.mp token
    rw [List.append_cancel_right split]
    exact h
  · intro h
    exact .seq h (derives_single kind)

/-- A declaration of a variable without its semicolon is a name, and may give it a value. -/
private theorem of_derives_varDecl (h : Derives (.category .varDecl) (word ++ [.semicolon])) :
    word = [.kwVar, .identifier] ∨
      ∃ value, word = [.kwVar, .identifier, .equal] ++ value ∧
        Derives (.category .expression) value := by
  obtain ⟨_, _, split, isVar, h⟩ := derives_seq_iff.mp (derives_category_iff.mp h)
  obtain ⟨_, rest, rfl, isName, h⟩ := derives_seq_iff.mp h
  obtain ⟨init, _, rfl, hinit, isSemicolon⟩ := derives_seq_iff.mp h
  obtain rfl := derives_single_iff.mp isVar
  obtain rfl := derives_single_iff.mp isName
  obtain rfl := derives_single_iff.mp isSemicolon
  -- The semicolon at the end of the word is the one at the end of the production.
  rw [← List.append_assoc, ← List.append_assoc] at split
  obtain rfl := List.append_cancel_right split
  rcases derives_choice_iff.mp hinit with hinit | hinit
  · obtain ⟨_, value, rfl, isEqual, hvalue⟩ := derives_seq_iff.mp hinit
    obtain rfl := derives_single_iff.mp isEqual
    exact .inr ⟨value, rfl, hvalue⟩
  · obtain rfl := derives_empty_iff.mp hinit
    exact .inl rfl

/-- A `return` without its semicolon has its value behind it. -/
private theorem of_derives_return
    (h : Derives (.inOrder [.token [.kwReturn], .category .expression, .token [.semicolon]])
      (word ++ [.semicolon])) :
    ∃ value, word = .kwReturn :: value ∧ Derives (.category .expression) value := by
  obtain ⟨_, _, split, isReturn, h⟩ := derives_seq_iff.mp h
  obtain ⟨value, _, rfl, hvalue, isSemicolon⟩ := derives_seq_iff.mp h
  obtain rfl := derives_single_iff.mp isReturn
  obtain rfl := derives_single_iff.mp isSemicolon
  rw [← List.append_assoc] at split
  exact ⟨value, List.append_cancel_right split, hvalue⟩

/-- With its semicolon, the statement is a declaration. -/
private theorem Unterminated.derives (h : Unterminated word) :
    Derives (.category .declaration) (word ++ [.semicolon]) := by
  rcases h with h | h | h
  · exact .category (.right (.left h))
  · have statement : Derives (.category .statement) (word ++ [.semicolon]) :=
      .category (.right (.right (.right (.right (.right (.right h))))))
    exact .category (.right (.right statement))
  · -- A value is one of the things that may stand behind a `return`.
    obtain ⟨value, rfl, hvalue⟩ := of_derives_return h
    have returned : Derives (.category .returnStmt) ([.kwReturn] ++ (value ++ [.semicolon])) :=
      .category (.seq (derives_single _) (.seq (.left hvalue) (derives_single _)))
    exact .category (.right (.right (.category (.right (.right (.right (.left returned)))))))

/-- The first token of the statement is one that a declaration begins with. -/
private theorem Unterminated.exists_start (h : Unterminated word) :
    ∃ kind rest, word = kind :: rest ∧ kind ∈ Nonterminal.declaration.starts := by
  cases word with
  | nil => exact absurd (mem_starts_of_derives h.derives) (by decide)
  | cons kind rest => exact ⟨kind, rest, rfl, mem_starts_of_derives h.derives⟩

namespace Recognizer

variable {tokens : Array Token} {plan : Plan} {i j k : Nat} {events : List Event}
  {outcome : Except SyntaxError Unit} {error : SyntaxError}

/-! ## Where the recognizer stops -/

/-- Following a plan comes to what the choices come to that the next token makes. -/
private theorem Follows.of_chosen
    (h : Follows tokens (plan.chosen (kindAt? tokens i)) i events outcome j) :
    ∃ events, Follows tokens plan i events outcome j := by
  induction plan generalizing events with
  | ifNext kinds yes no ihYes ihNo =>
    -- The branch that is chosen is the one that a look at the next token leads to.
    rw [Plan.chosen, ← nextIs] at h
    cases next : nextIs tokens i kinds with
    | true =>
      rw [next, cond_true] at h
      obtain ⟨_, h⟩ := ihYes h
      exact ⟨_, .lookYes next h⟩
    | false =>
      rw [next, cond_false] at h
      obtain ⟨_, h⟩ := ihNo h
      exact ⟨_, .lookNo next h⟩
  | done | reject | expect | call | seq | ifTake | loop | unlessAtEnd | unlessEndTaken =>
    exact ⟨_, h⟩

/-- The recognizer makes for a nonterminal if the next token makes the choices that lead to it. -/
private theorem Follows.call_of_chosen {n m : Nonterminal} {kind : Kind}
    (next : kindAt? tokens i = some kind) (chosen : n.plan.chosen (some kind) = .call m)
    (h : Follows tokens (.call m) i events outcome j) :
    ∃ events, Follows tokens (.call n) i events outcome j := by
  rw [← chosen, ← next] at h
  obtain ⟨_, h⟩ := h.of_chosen
  exact ⟨_, .call h⟩

/-- An expression is taken where nothing goes on with it. -/
private theorem follows_expression (derived : Derives (.category .expression) word)
    (spelled : Spells tokens i word j)
    (stops : ∀ kind ∈ Nonterminal.expression.continuations, kindAt? tokens j ≠ some kind) :
    ∃ events, Follows tokens (.call .expression) i events (.ok ()) j := by
  obtain ⟨_, nested⟩ := derived.exists_nests
  obtain rfl := nested.eq_false rfl
  exact follows_call_of_nests (by decide) nested spelled stops
    (fun opened => absurd opened Bool.false_ne_true)

/-- Behind declarations, the recognizer comes to the violation that it would come to without them.
    An `else` behind them could belong to the last of them. -/
private theorem follows_declarations_halt (derived : Derives (.many (.category .declaration)) word)
    (spelled : Spells tokens i word j) (notElse : kindAt? tokens j ≠ some .kwElse)
    (h : Follows tokens (.loop (.unlessAtEnd (.call .declaration))) j events (.error error) k) :
    ∃ events,
      Follows tokens (.loop (.unlessAtEnd (.call .declaration))) i events (.error error) k := by
  generalize same : Form.many (.category .declaration) = form at derived
  induction derived generalizing i with
  | manyNil =>
    obtain rfl : i = j := spelled
    exact ⟨_, h⟩
  | @manyCons _ once rest first more _ ih =>
    cases same
    obtain ⟨mid, spelledOnce, spelledRest⟩ := spells_append.mp spelled
    obtain ⟨_, followed⟩ := ih spelledRest rfl
    -- The next declaration does not begin with an `else` either.
    have notElse : kindAt? tokens mid ≠ some .kwElse := by
      cases rest with
      | nil =>
        obtain rfl : mid = j := spelledRest
        exact notElse
      | cons kind rest =>
        intro isElse
        rw [spelledRest.1, Option.some.injEq] at isElse
        have := mem_starts_of_derives more
        rw [isElse] at this
        exact absurd this (by decide)
    obtain ⟨_, nested⟩ := first.exists_nests
    obtain ⟨_, taken⟩ := follows_call_of_nests (by decide) nested spelledOnce
      (fun kind member => by cases member) (fun _ => notElse)
    have nonempty := ne_nil_of_derives_category first
    obtain ⟨kind, isStart, next⟩ := exists_start spelledOnce nonempty nested
    have notEnd : atEnd tokens i = false := by
      rw [atEnd_of_kindAt? next, beq_eq_false_iff_ne]
      rintro rfl
      exact absurd isStart (by decide)
    exact ⟨_, .loopAgain (.notEnded notEnd taken) (spelledOnce.lt nonempty) followed⟩
  | empty | token | category | seq | left | right => cases same

/-- A declaration of a variable stops for its semicolon behind its name and its value. -/
private theorem follows_varDecl_halt
    (unterminated : Derives (.category .varDecl) (word ++ [.semicolon]))
    (spelled : Spells tokens i word j)
    (stops : ∀ kind ∈ Nonterminal.expression.continuations, kindAt? tokens j ≠ some kind)
    (missing : nextIs tokens j [.semicolon] = false) :
    ∃ events,
      Follows tokens (.call .varDecl) i events (.error (mismatch tokens j [.semicolon])) j := by
  -- With a value or without one, the recognizer gets past the optional part and then asks for the
  -- semicolon.
  have hinit : kindAt? tokens i = some .kwVar ∧ kindAt? tokens (i + 1) = some .identifier ∧
      ∃ events, Follows tokens (.ifTake [.equal] (.call .expression) .done) (i + 2) events
        (.ok ()) j := by
    rcases of_derives_varDecl unterminated with rfl | ⟨value, rfl, hvalue⟩
    · obtain ⟨isVar, isName, rfl⟩ := spelled
      have noValue : nextIs tokens (i + 2) [.equal] = false := by
        rw [← Bool.not_eq_true, nextIs_iff]
        simpa using stops .equal (by decide)
      exact ⟨isVar, isName, _, .takeNo noValue .done⟩
    · obtain ⟨isVar, isName, isEqual, spelled⟩ := spelled
      obtain ⟨_, hvalue⟩ := follows_expression hvalue spelled stops
      have hasValue : nextIs tokens (i + 2) [.equal] = true := by
        rw [nextIs_of_kindAt? isEqual]
        rfl
      exact ⟨isVar, isName, _, .takeYes hasValue hvalue⟩
  obtain ⟨isVar, isName, _, hinit⟩ := hinit
  obtain ⟨_, hvar⟩ := follows_expect (spells_singleton isVar) (List.mem_singleton_self Kind.kwVar)
  obtain ⟨_, hname⟩ := follows_expect (spells_singleton isName)
    (List.mem_singleton_self Kind.identifier)
  exact ⟨_, .call (.seq hvar (.seq hname (.seq hinit (.mismatch missing))))⟩

/-- Behind a statement without its semicolon, the recognizer asks for the semicolon and nothing
    else, unless a value can be given to the variable or the expression goes on. -/
theorem follows_unterminated (unterminated : Unterminated word) (spelled : Spells tokens i word j)
    (stops : ∀ kind ∈ Nonterminal.expression.continuations, kindAt? tokens j ≠ some kind)
    (missing : nextIs tokens j [.semicolon] = false) :
    ∃ events, Follows tokens (.call .declaration) i events (.error (mismatch tokens j [.semicolon]))
      j := by
  rcases unterminated with h | h | h
  · obtain ⟨_, halted⟩ := follows_varDecl_halt h spelled stops missing
    have isVar : kindAt? tokens i = some .kwVar := by
      rcases of_derives_varDecl h with rfl | ⟨_, rfl, -⟩ <;> exact spelled.1
    exact halted.call_of_chosen isVar rfl
  · have hvalue := derives_concat_iff.mp (derives_category_iff.mp h)
    obtain ⟨_, value⟩ := follows_expression hvalue spelled stops
    obtain ⟨_, nested⟩ := hvalue.exists_nests
    obtain ⟨kind, isStart, next⟩ := exists_start spelled (ne_nil_of_derives_category hvalue) nested
    -- No keyword begins an expression, so none of the other statements is chosen.
    have chosen : ∀ kind ∈ Kind.expressionStarts,
        Nonterminal.statement.plan.chosen (some kind) = .call .exprStmt ∧
          Nonterminal.declaration.plan.chosen (some kind) = .call .statement := by
      decide
    obtain ⟨_, halted⟩ := Follows.call_of_chosen next (chosen kind isStart).1
      (.call (.seq value (.mismatch missing)))
    exact halted.call_of_chosen next (chosen kind isStart).2
  · obtain ⟨value, rfl, hvalue⟩ := of_derives_return h
    obtain ⟨isReturn, spelled⟩ := spelled
    obtain ⟨_, taken⟩ := follows_expect (spells_singleton isReturn)
      (List.mem_singleton_self Kind.kwReturn)
    obtain ⟨_, value⟩ := follows_expression hvalue spelled stops
    have hasValue : nextIs tokens (i + 1) [.semicolon] = false := by
      obtain ⟨_, nested⟩ := hvalue.exists_nests
      obtain ⟨kind, isStart, next⟩ :=
        exists_start spelled (ne_nil_of_derives_category hvalue) nested
      rw [nextIs_of_kindAt? next]
      revert isStart
      cases kind <;> decide
    obtain ⟨_, halted⟩ := Follows.call_of_chosen (n := .statement) isReturn rfl
      (.call (.seq taken (.seq (.lookNo hasValue value) (.mismatch missing))))
    exact halted.call_of_chosen isReturn rfl

/-! ## The end of a text -/

variable {front statement : List Token} {last : Token}

/-- At the marker behind declarations and a statement without its semicolon, a program asks for the
    semicolon. -/
private theorem follows_program_unterminated (isMarker : last.kind = .endOfInput)
    (declared : Derives (.many (.category .declaration)) (front.map (·.kind)))
    (unterminated : Unterminated (statement.map (·.kind))) :
    ∃ events, Follows (front ++ statement ++ [last]).toArray (.call .program) 0 events
      (.error (.unexpectedToken [.semicolon] last)) (front ++ statement).length := by
  have spelled := spells_all (front ++ statement ++ [last])
  rw [List.map_append, List.map_append] at spelled
  obtain ⟨k, spelled, marker⟩ := spells_append.mp spelled
  obtain ⟨j, spelledFront, spelledStatement⟩ := spells_append.mp spelled
  obtain rfl : k = (front ++ statement).length := by simpa using spelled.stop_eq
  have isEnd : kindAt? (front ++ statement ++ [last]).toArray (front ++ statement).length =
      some .endOfInput := isMarker ▸ marker.1
  -- The marker neither goes on with an expression nor is the semicolon.
  obtain ⟨_, halted⟩ := follows_unterminated unterminated spelledStatement
    (fun kind member isKind => by
      rw [isEnd, Option.some.injEq] at isKind
      rw [← isKind] at member
      exact absurd member (by decide))
    (nextIs_of_kindAt? isEnd _)
  have reported : mismatch (front ++ statement ++ [last]).toArray (front ++ statement).length
      [.semicolon] = .unexpectedToken [.semicolon] last := by
    rw [mismatch, List.getElem?_toArray, List.getElem?_concat_length]
  rw [reported] at halted
  obtain ⟨kind, _, split, isStart⟩ := unterminated.exists_start
  rw [split] at spelledStatement
  have next := spelledStatement.1
  have notEnd : atEnd (front ++ statement ++ [last]).toArray j = false := by
    rw [atEnd_of_kindAt? next, beq_eq_false_iff_ne]
    rintro rfl
    exact absurd isStart (by decide)
  have notElse : kindAt? (front ++ statement ++ [last]).toArray j ≠ some .kwElse := by
    rw [next, ne_eq, Option.some.injEq]
    rintro rfl
    exact absurd isStart (by decide)
  obtain ⟨_, halted⟩ := follows_declarations_halt declared spelledFront notElse
    (.loopHalt (.notEnded notEnd halted))
  exact ⟨_, .call (.seqHalt halted)⟩

/-- Tokens with declarations and then a statement without its semicolon are rejected at the marker
    behind them, where a semicolon is asked for.  A `print` needs none there. -/
theorem recognize_unterminated (front statement : List Token) (last : Token)
    (isMarker : last.kind = .endOfInput)
    (declared : Derives (.many (.category .declaration)) (front.map (·.kind)))
    (notMarker : ∀ token ∈ front ++ statement, token.kind ≠ .endOfInput) :
    (Unterminated (statement.map (·.kind)) →
      recognize (front ++ statement ++ [last]) = .error (.unexpectedToken [.semicolon] last)) ∧
    (∀ value, statement.map (·.kind) = .kwPrint :: value → Derives (.category .expression) value →
      recognize (front ++ statement ++ [last]) = .ok ()) := by
  constructor
  · intro unterminated
    exact (recognizeFrom_iff.mpr
      (follows_program_unterminated isMarker declared unterminated)).1
  · intro value isPrint hvalue
    apply (recognize_concat_iff isMarker notMarker).mpr
    right
    -- The `print` takes the marker for its semicolon.
    have printed : Derives (.category .printStmt) ([.kwPrint] ++ (value ++ [.endOfInput])) :=
      .category (.seq (derives_single _) (.seq hvalue (.token (by decide))))
    have printed : Derives (.category .declaration) (.kwPrint :: value ++ [.endOfInput]) :=
      .category (.right (.right (.category (.right (.right (.left printed))))))
    rw [List.map_append, isPrint, List.append_assoc]
    exact declared.many_append printed.many_once

/-- What the recognizer takes whole is a word of the nonterminal. -/
private theorem derives_of_recognized {n : Nonterminal} (inner : n ≠ .program)
    (taken : (recognizeFrom (word.map Token.ofKind).toArray n 0).outcome = .ok () ∧
      (recognizeFrom (word.map Token.ofKind).toArray n 0).index = word.length) :
    Derives (.category n) word := by
  obtain ⟨_, h⟩ := recognizeFrom_iff.mp taken
  obtain ⟨other, spelled, derived⟩ := h.derives (Plan.inner_call.mpr inner)
  have all := spells_all (word.map Token.ofKind)
  rw [map_kind_ofKind, List.length_map] at all
  rw [← spelled.unique all]
  exact derived

set_option maxRecDepth 4000 in
/-- Behind `if (a) b;`, which an `else` could still go on with, a semicolon is missing at the end of
    `return -c.d` and none is at the end of `print -c.d`. -/
theorem recognize_unterminated_return :
    ∃ front value : List Token, ∃ keyword print last : Token,
      front.map (·.kind) = [.kwIf, .leftParen, .identifier, .rightParen, .identifier, .semicolon] ∧
      value.map (·.kind) = [.minus, .identifier, .dot, .identifier] ∧
      keyword.kind = .kwReturn ∧ print.kind = .kwPrint ∧ last.kind = .endOfInput ∧
      Derives (.many (.category .declaration)) (front.map (·.kind)) ∧
      (∀ token ∈ front ++ keyword :: value, token.kind ≠ .endOfInput) ∧
      (∀ token ∈ front ++ print :: value, token.kind ≠ .endOfInput) ∧
      Unterminated ((keyword :: value).map (·.kind)) ∧
      recognize (front ++ keyword :: value ++ [last]) =
        .error (.unexpectedToken [.semicolon] last) ∧
      recognize (front ++ print :: value ++ [last]) = .ok () := by
  obtain ⟨front, hfront⟩ : ∃ front : List Token, front.map (·.kind) =
      [.kwIf, .leftParen, .identifier, .rightParen, .identifier, .semicolon] :=
    ⟨_, map_kind_ofKind _⟩
  obtain ⟨value, hvalue⟩ : ∃ value : List Token, value.map (·.kind) =
      [.minus, .identifier, .dot, .identifier] := ⟨_, map_kind_ofKind _⟩
  have declared : Derives (.many (.category .declaration)) (front.map (·.kind)) :=
    hfront ▸ (derives_of_recognized (by decide) ⟨by cbv, by cbv⟩).many_once
  have derived : Derives (.category .expression) (value.map (·.kind)) :=
    hvalue ▸ derives_of_recognized (by decide) ⟨by cbv, by cbv⟩
  have returned : Derives _ ([.kwReturn] ++ (value.map (·.kind) ++ [.semicolon])) :=
    .seq (derives_single _) (.seq derived (derives_single _))
  have notMarker (first : Kind) (notEnd : first ≠ .endOfInput) :
      ∀ token ∈ front ++ .ofKind first :: value, token.kind ≠ .endOfInput := by
    intro token member isEnd
    have isKind := List.mem_map_of_mem (f := (·.kind)) member
    rw [List.map_append, List.map_cons, hfront, hvalue, isEnd] at isKind
    simp [Token.ofKind, Ne.symm notEnd] at isKind
  have forReturn := recognize_unterminated front (.ofKind .kwReturn :: value) (.ofKind .endOfInput)
    rfl declared (notMarker .kwReturn (by decide))
  have forPrint := recognize_unterminated front (.ofKind .kwPrint :: value) (.ofKind .endOfInput)
    rfl declared (notMarker .kwPrint (by decide))
  exact ⟨front, value, _, _, _, hfront, hvalue, rfl, rfl, rfl, declared,
    notMarker _ (by decide), notMarker _ (by decide), .inr (.inr returned),
    forReturn.1 (.inr (.inr returned)), forPrint.2 _ rfl derived⟩

end Recognizer

end LoxSyntax
