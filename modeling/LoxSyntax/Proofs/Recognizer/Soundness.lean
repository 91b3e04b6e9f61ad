import LoxSyntax.Proofs.Recognizer.Follows
import LoxSyntax.Proofs.Recognizer.PlanForm
import LoxSyntax.Proofs.Recognizer.Spells

/-! # What the recognizer takes is in the grammar

A plan that is followed to its end takes a word of its form.  Since an `else` is taken wherever one
follows, the word has a nested derivation, and if the word is open then no `else` comes next
(`Follows.covers`).

Whole programs are left out, as the plan for them may do without the marker for the end of the
input. -/

namespace LoxSyntax

/-- Whether a plan deals with parts of programs only: no part of it is a whole program, or asks
    whether the end of the input was taken. -/
def Plan.inner : Plan → Bool
  | done | reject | expect _ => true
  | call n => n != .program
  | seq first second => first.inner && second.inner
  | ifNext _ yes no => yes.inner && no.inner
  | ifTake _ yes no => yes.inner && no.inner
  | loop round => round.inner
  | unlessAtEnd plan => plan.inner
  | unlessEndTaken _ => false

/-- To call a nonterminal other than `program` is to deal with parts of programs only. -/
theorem Plan.inner_call {n : Nonterminal} : (Plan.call n).inner = true ↔ n ≠ .program :=
  bne_iff_ne

/-- Only a program has a plan that deals with whole programs. -/
theorem Nonterminal.inner_plan {n : Nonterminal} (h : n ≠ .program) : n.plan.inner = true := by
  cases n <;> first | rfl | exact absurd rfl h

namespace Recognizer

variable {tokens : Array Token} {plan first second : Plan} {n : Nonterminal} {i j k : Nat}
  {kinds : List Kind} {events : List Event} {outcome : Except SyntaxError Unit}

/-! ## Plans followed to their end -/

/-- A plan that asks for a token and ended well has taken that one token. -/
private theorem Follows.of_expect (h : Follows tokens (.expect kinds) i events (.ok ()) j) :
    nextIs tokens i kinds = true ∧ j = i + 1 := by
  cases h with
  | expect next => exact ⟨next, rfl⟩

/-- A token of a given kind was there to be taken. -/
theorem Follows.of_expect_singleton {kind : Kind}
    (h : Follows tokens (.expect [kind]) i events (.ok ()) j) :
    Spells tokens i [kind] j := by
  obtain ⟨next, rfl⟩ := h.of_expect
  obtain ⟨_, member, found⟩ := nextIs_iff.mp next
  rw [List.mem_singleton.mp member] at found
  exact spells_singleton found

/-- To follow a call is to follow the plan of the nonterminal. -/
theorem Follows.of_call (h : Follows tokens (.call n) i events outcome j) :
    ∃ events, Follows tokens n.plan i events outcome j := by
  cases h with
  | call h => exact ⟨_, h⟩

/-- A sequence followed to its end is both of its parts followed to their ends. -/
theorem Follows.of_seq (h : Follows tokens (.seq first second) i events (.ok ()) k) :
    ∃ j events events', Follows tokens first i events (.ok ()) j ∧
      Follows tokens second j events' (.ok ()) k := by
  cases h with
  | seq h h' => exact ⟨_, _, _, h, h'⟩

/-- An `if` statement that was recognized has a condition, a body, and an `else` if one comes next
    after the body. -/
private theorem Follows.of_ifStmt (h : Follows tokens (.call .ifStmt) i events (.ok ()) j) :
    ∃ conditionEnd bodyEnd events events',
      Spells tokens i [.kwIf, .leftParen] (i + 2) ∧
      Follows tokens (.call .expression) (i + 2) events (.ok ()) conditionEnd ∧
      Spells tokens conditionEnd [.rightParen] (conditionEnd + 1) ∧
      Follows tokens (.call .statement) (conditionEnd + 1) events' (.ok ()) bodyEnd ∧
      ((kindAt? tokens bodyEnd ≠ some .kwElse ∧ j = bodyEnd) ∨
        ∃ events, Spells tokens bodyEnd [.kwElse] (bodyEnd + 1) ∧
          Follows tokens (.call .statement) (bodyEnd + 1) events (.ok ()) j) := by
  obtain ⟨_, hplan⟩ := h.of_call
  -- The plan is taken apart along its sequence; only the optional last part leaves two cases.
  obtain ⟨_, _, _, hif, h₁⟩ := hplan.of_seq
  obtain ⟨i₂, _, _, hopen, h₂⟩ := h₁.of_seq
  obtain ⟨i₃, _, _, hcondition, h₃⟩ := h₂.of_seq
  obtain ⟨i₄, _, _, hclose, h₄⟩ := h₃.of_seq
  obtain ⟨i₅, _, _, hbody, helse⟩ := h₄.of_seq
  have opened := hif.of_expect_singleton.append hopen.of_expect_singleton
  have closed := hclose.of_expect_singleton
  obtain rfl : i₂ = i + 2 := opened.stop_eq
  obtain rfl : i₄ = i₃ + 1 := closed.stop_eq
  refine ⟨i₃, i₅, _, _, opened, hcondition, closed, hbody, ?_⟩
  cases helse with
  | takeYes next hother =>
    obtain ⟨_, member, found⟩ := nextIs_iff.mp next
    rw [List.mem_singleton.mp member] at found
    exact .inr ⟨_, spells_singleton found, hother⟩
  | takeNo next hnone =>
    cases hnone
    refine .inl ⟨fun found => ?_, rfl⟩
    rw [nextIs_of_kindAt? found] at next
    cases next

/-! ## The word that is taken -/

/-- The tokens from one index up to another spell a word in a nested derivation from a form, and no
    `else` comes next that the word could take. -/
def Covers (tokens : Array Token) (form : Form) (i j : Nat) : Prop :=
  ∃ isOpen word, Spells tokens i word j ∧ Nests form isOpen word ∧
    (isOpen = true → kindAt? tokens j ≠ some .kwElse)

/-- A word that is not open leaves any `else` to others. -/
private theorem covers_of_closed {form : Form} {word : List Kind} (spelled : Spells tokens i word j)
    (nested : Nests form false word) : Covers tokens form i j :=
  ⟨false, word, spelled, nested, fun opened => absurd opened Bool.false_ne_true⟩

/-- A form with more nested derivations covers the tokens as well. -/
private theorem Covers.mono {form larger : Form} (h : Covers tokens form i j)
    (nests : ∀ isOpen word, Nests form isOpen word → Nests larger isOpen word) :
    Covers tokens larger i j := by
  obtain ⟨isOpen, word, spelled, nested, notElse⟩ := h
  exact ⟨isOpen, word, spelled, nests _ _ nested, notElse⟩

/-- Tokens covered one behind the other are covered by the sequence, which is open if its second
    part is. -/
private theorem Covers.seq {first second : Form} (h : Covers tokens first i j)
    (h' : Covers tokens second j k) : Covers tokens (.seq first second) i k := by
  obtain ⟨_, word, spelled, nested, -⟩ := h
  obtain ⟨isOpen, more, spelled', nested', notElse⟩ := h'
  exact ⟨isOpen, word ++ more, spelled.append spelled', .seq nested nested', notElse⟩

/-- An `if` statement gives an `else` behind its body to itself only if the body cannot take it. -/
private theorem covers_ifStmt (h : Follows tokens (.call .ifStmt) i events (.ok ()) j)
    (covers : ∀ {n : Nonterminal} {start stop : Nat} {events : List Event}, n ≠ .program →
      i < start → start ≤ stop → stop ≤ j → Follows tokens (.call n) start events (.ok ()) stop →
      Covers tokens (.category n) start stop) :
    Covers tokens (.category .ifStmt) i j := by
  obtain ⟨conditionEnd, bodyEnd, _, _, opened, hcondition, closed, hbody, rest⟩ := h.of_ifStmt
  have := hcondition.start_le
  have := hbody.start_le
  have : bodyEnd ≤ j := by
    rcases rest with ⟨-, rfl⟩ | ⟨_, _, hother⟩
    · exact Nat.le_refl j
    · have := hother.start_le
      omega
  -- Every part is shorter than the whole, as `if` stands in front of all of them.
  obtain ⟨_, condition, spelledCondition, nestedCondition, -⟩ :=
    covers (by decide) (by omega) (by omega) (by omega) hcondition
  obtain ⟨bodyOpen, body, spelledBody, nestedBody, bodyNotElse⟩ :=
    covers (by decide) (by omega) (by omega) (by omega) hbody
  have spelled := opened.append (spelledCondition.append (closed.append spelledBody))
  rcases rest with ⟨notElse, rfl⟩ | ⟨_, isElse, hother⟩
  · exact ⟨true, _, spelled, .ifAlone nestedCondition nestedBody, fun _ => notElse⟩
  · have := hother.start_le
    obtain ⟨isOpen, other, spelledOther, nestedOther, otherNotElse⟩ :=
      covers (by decide) (by omega) (by omega) (by omega) hother
    -- An `else` comes next after the body, so the body is not open.
    obtain rfl : bodyOpen = false := by
      cases bodyOpen with
      | false => rfl
      | true => exact absurd isElse.1 (bodyNotElse rfl)
    have whole := spelled.append (isElse.append spelledOther)
    simp only [List.append_assoc] at whole
    exact ⟨isOpen, _, whole, .ifElse nestedCondition nestedBody nestedOther, otherNotElse⟩

/-- A plan followed to its end takes a word of its form.  If the word is open, then no `else` comes
    next. -/
theorem Follows.covers {plan : Plan} {i j : Nat} {events : List Event}
    (h : Follows tokens plan i events (.ok ()) j) (inner : plan.inner = true) :
    Covers tokens plan.form i j := by
  have := h.start_le
  match plan with
  | .done =>
    cases h
    exact covers_of_closed (spells_nil i) .empty
  | .reject => cases h
  | .expect kinds =>
    obtain ⟨next, rfl⟩ := h.of_expect
    obtain ⟨kind, member, found⟩ := nextIs_iff.mp next
    exact covers_of_closed (spells_singleton found) (.token member)
  | .call n =>
    have lighter := n.weight_plan
    have notProgram := Plan.inner_call.mp inner
    by_cases isIf : n = .ifStmt
    · subst isIf
      refine covers_ifStmt h fun {n start stop _} notProgram before le within hpart => ?_
      exact hpart.covers (Plan.inner_call.mpr notProgram)
    · obtain ⟨_, hplan⟩ := h.of_call
      exact (hplan.covers (n.inner_plan notProgram)).mono fun _ _ =>
        (nests_category_iff_plan notProgram isIf).mpr
  | .seq first second =>
    obtain ⟨k, _, _, h₁, h₂⟩ := h.of_seq
    have := h₁.start_le
    have := h₂.start_le
    -- If the first plan took nothing, then it is not guarded, and the second one counts.
    have : k = i → first.guarded = false := by
      intro stayed
      cases guard : first.guarded with
      | true => exact absurd (h₁.lt_of_guarded guard) (by omega)
      | false => rfl
    simp only [Plan.inner, Bool.and_eq_true] at inner
    exact (h₁.covers inner.1).seq (h₂.covers inner.2)
  | .ifNext kinds yes no =>
    simp only [Plan.inner, Bool.and_eq_true] at inner
    cases h with
    | lookYes _ h => exact (h.covers inner.1).mono fun _ _ => .left
    | lookNo _ h => exact (h.covers inner.2).mono fun _ _ => .right
  | .ifTake kinds yes no =>
    simp only [Plan.inner, Bool.and_eq_true] at inner
    cases h with
    | takeYes next h =>
      have := h.start_le
      obtain ⟨kind, member, found⟩ := nextIs_iff.mp next
      have token : Covers tokens (.token kinds) i (i + 1) :=
        covers_of_closed (spells_singleton found) (.token member)
      exact (token.seq (h.covers inner.1)).mono fun _ _ => .left
    | takeNo _ h => exact (h.covers inner.2).mono fun _ _ => .right
  | .loop round =>
    cases h with
    | loopLast h => exact covers_of_closed (spells_nil i) .manyNil
    | loopAgain h moved h' =>
      have := h'.start_le
      -- What the rounds leave open does not matter, as a repetition is not open.
      obtain ⟨_, word, spelled, nested, -⟩ := h.covers inner
      obtain ⟨_, more, spelled', nested', -⟩ := h'.covers inner
      exact covers_of_closed (spelled.append spelled') (.manyCons nested nested')
  | .unlessAtEnd plan =>
    cases h with
    | ended _ => exact covers_of_closed (spells_nil i) (.right .empty)
    | notEnded _ h => exact (h.covers inner).mono fun _ _ => .left
-- Each part takes fewer tokens, or has a lighter plan.
termination_by (j - i, plan.weight)
decreasing_by
  all_goals simp only [Plan.weight, Prod.lex_def]
  all_goals grind

/-- The word that was taken has a derivation. -/
theorem Follows.derives (h : Follows tokens plan i events (.ok ()) j) (inner : plan.inner = true) :
    ∃ word, Spells tokens i word j ∧ Derives plan.form word := by
  obtain ⟨_, word, spelled, nested, -⟩ := h.covers inner
  exact ⟨word, spelled, nested.derives⟩

end Recognizer

end LoxSyntax
