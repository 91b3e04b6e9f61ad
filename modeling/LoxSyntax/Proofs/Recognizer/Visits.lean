import Mathlib.Data.List.ProdSigma
import LoxSyntax.Proofs.Grammar.Ends
import LoxSyntax.Proofs.Recognizer.Program

/-! # Where nonterminals are entered

A run enters its nonterminals in an order that leads forward: each is entered further on in the
tokens than the one before, or at the same token and with a lower rank (`Follows.visits_pairwise`).
So none is entered twice at the same token.

None is entered behind all tokens either (`Follows.visit_lt_size`).  This takes a look at the plans:
only a `print` can take the marker for the end of the input, and whatever can come behind a `print`
looks for a token before it enters anything. -/

namespace LoxSyntax

namespace Plan

/-- Whether a plan enters no nonterminal where no token is left. -/
def quiet : Plan → Bool
  | done | reject | expect _ | unlessAtEnd _ => true
  | call _ => false
  | seq first second => first.quiet && second.quiet
  | ifNext _ _ no => no.quiet
  | ifTake _ _ no => no.quiet
  | loop round => round.quiet
  | unlessEndTaken plan => plan.quiet

/-- Whether a plan enters no nonterminal right behind the marker for the end of the input: what
    comes behind a part that can end with it is quiet. -/
def settled : Plan → Bool
  | done | reject | expect _ | call _ => true
  | seq first second =>
    first.settled && second.settled && (!first.form.ends.contains .endOfInput || second.quiet)
  | ifNext _ yes no => yes.settled && no.settled
  | ifTake kinds yes no =>
    yes.settled && no.settled && (!kinds.contains .endOfInput || yes.quiet)
  | loop round => round.settled && (!round.form.ends.contains .endOfInput || round.quiet)
  | unlessAtEnd plan => plan.settled
  | unlessEndTaken plan => plan.settled

end Plan

/-- Behind every part that can take the marker, the plans look for a token before they enter
    anything. -/
private theorem Nonterminal.settled_plan (n : Nonterminal) : n.plan.settled = true := by
  cases n <;> decide

namespace Recognizer

/-- The nonterminal that an event reports as entered, and where. -/
def Event.visit? : Event → Option (Nonterminal × Nat)
  | enter n index => some (n, index)
  | leave .. | look .. | take .. => none

/-- The nonterminals that are entered, and where, in order. -/
def visits (events : List Event) : List (Nonterminal × Nat) := events.filterMap Event.visit?

/-- One visit leads on to another: this one is further on in the tokens, or at the same token by a
    nonterminal of lower rank. -/
def LeadsTo (visit other : Nonterminal × Nat) : Prop :=
  visit.2 < other.2 ∨ (visit.2 = other.2 ∧ other.1.rank < visit.1.rank)

/-- A visit does not lead to itself. -/
theorem LeadsTo.ne {visit other : Nonterminal × Nat} (h : LeadsTo visit other) : visit ≠ other := by
  rintro rfl
  rcases h with further | ⟨-, lower⟩
  · exact Nat.lt_irrefl _ further
  · exact Nat.lt_irrefl _ lower

variable {tokens : Array Token} {plan : Plan} {n : Nonterminal} {i j : Nat} {kinds : List Kind}
  {found : Option Kind} {events more : List Event} {outcome : Except SyntaxError Unit}

@[simp] theorem visits_nil : visits [] = [] := rfl

@[simp] theorem visits_append : visits (events ++ more) = visits events ++ visits more :=
  List.filterMap_append

@[simp] theorem visits_enter : visits (.enter n i :: events) = (n, i) :: visits events := rfl

@[simp] theorem visits_leave : visits (.leave n i :: events) = visits events := rfl

@[simp] theorem visits_look : visits (.look kinds found i :: events) = visits events := rfl

@[simp] theorem visits_take : visits (.take kinds found i :: events) = visits events := rfl

/-- A nonterminal is entered before what is entered in it. -/
@[simp] theorem visits_call :
    visits (.enter n i :: events ++ [.leave n i]) = (n, i) :: visits events := by
  simp

/-! ## The order of visits -/

/-- Only parts of programs are entered. -/
private theorem Follows.visit_ne_program (h : Follows tokens plan i events outcome j)
    (inner : plan.inner = true) : ∀ visit ∈ visits events, visit.1 ≠ .program := by
  -- Only calls report visits, and no plan but that of a program has a program within it.
  induction h with
  | done | reject | expect | mismatch | ended => simp
  | @call n _ _ _ _ _ ih =>
    have notProgram := Plan.inner_call.mp inner
    rw [visits_call, List.forall_mem_cons]
    exact ⟨notProgram, ih (n.inner_plan notProgram)⟩
  | seq _ _ ih ih' =>
    rw [Plan.inner, Bool.and_eq_true] at inner
    rw [visits_append, List.forall_mem_append]
    exact ⟨ih inner.1, ih' inner.2⟩
  | loopAgain _ _ _ ih ih' =>
    rw [visits_append, List.forall_mem_append]
    exact ⟨ih inner, ih' inner⟩
  | seqHalt _ ih | lookYes _ _ ih | takeYes _ _ ih =>
    rw [Plan.inner, Bool.and_eq_true] at inner
    exact ih inner.1
  | lookNo _ _ ih | takeNo _ _ ih =>
    rw [Plan.inner, Bool.and_eq_true] at inner
    exact ih inner.2
  | loopLast _ ih | loopHalt _ ih | notEnded _ _ ih => exact ih inner
  | taken | notTaken => cases inner

/-- Nonterminals are entered from the start on, and at the start only with a rank that is within the
    weight of the plan. -/
private theorem Follows.start_le_visit (h : Follows tokens plan i events outcome j) :
    ∀ visit ∈ visits events, i ≤ visit.2 ∧ (visit.2 = i → visit.1.rank ≤ plan.weight) := by
  -- What is entered behind a token that was taken is not at the start, so only the parts that are
  -- followed before it have to be within the weight, and these are the ones that the weight counts.
  induction h with
  | done | reject | expect | mismatch | ended | taken => simp
  | @call n i _ events _ _ ih =>
    have lighter := n.weight_plan
    rw [visits_call, List.forall_mem_cons]
    refine ⟨⟨Nat.le_refl i, fun _ => Nat.le_refl _⟩, fun visit member => ?_⟩
    obtain ⟨le, light⟩ := ih visit member
    exact ⟨le, fun here => by have := light here; rw [Plan.weight]; omega⟩
  | @seq first second i j k _ _ _ h h' ih ih' =>
    rw [visits_append, List.forall_mem_append]
    constructor
    · intro visit member
      obtain ⟨le, light⟩ := ih visit member
      refine ⟨le, fun here => ?_⟩
      have := light here
      rw [Plan.weight]
      omega
    · intro visit member
      have := h.start_le
      obtain ⟨le, light⟩ := ih' visit member
      refine ⟨by omega, fun here => ?_⟩
      -- The first part took nothing, so it is not guarded, and the second one counts.
      have notGuarded : first.guarded = false := by
        rw [← Bool.not_eq_true]
        intro guarded
        have := h.lt_of_guarded guarded
        omega
      have := light (by omega)
      rw [Plan.weight, notGuarded, cond_false]
      omega
  | seqHalt _ ih =>
    intro visit member
    obtain ⟨le, light⟩ := ih visit member
    exact ⟨le, fun here => by have := light here; rw [Plan.weight]; omega⟩
  | lookYes _ _ ih | lookNo _ _ ih | takeNo _ _ ih | loopLast _ ih | loopHalt _ ih
  | notEnded _ _ ih | notTaken _ _ ih =>
    intro visit member
    obtain ⟨le, light⟩ := ih visit member
    exact ⟨le, fun here => by have := light here; rw [Plan.weight]; omega⟩
  | takeYes _ _ ih =>
    intro visit member
    have := (ih visit member).1
    exact ⟨by omega, fun here => by omega⟩
  | loopAgain h moved _ ih ih' =>
    rw [visits_append, List.forall_mem_append]
    constructor
    · intro visit member
      obtain ⟨le, light⟩ := ih visit member
      exact ⟨le, fun here => by have := light here; rw [Plan.weight]; omega⟩
    · intro visit member
      have := (ih' visit member).1
      exact ⟨by omega, fun here => by omega⟩

/-- Each nonterminal that is entered takes a token, if no violation is met. -/
private theorem Follows.visit_lt (h : Follows tokens plan i events (.ok ()) j)
    (inner : plan.inner = true) : ∀ visit ∈ visits events, visit.2 < j := by
  generalize accepted : Except.ok () = outcome at h
  induction h with
  | reject | mismatch | seqHalt | loopHalt => cases accepted
  | done | expect | ended => simp
  | @call n i j _ _ h ih =>
    subst accepted
    have notProgram := Plan.inner_call.mp inner
    have moved := h.lt_of_guarded (n.guarded_plan (n.guarded_of_ne notProgram))
    rw [visits_call, List.forall_mem_cons]
    exact ⟨moved, ih (n.inner_plan notProgram) rfl⟩
  | @seq _ _ _ _ _ _ _ _ _ h' ih ih' =>
    rw [Plan.inner, Bool.and_eq_true] at inner
    rw [visits_append, List.forall_mem_append]
    have := h'.start_le
    -- What was entered before the second part was entered before the index where it starts.
    exact ⟨fun visit member => by have := ih inner.1 rfl visit member; omega,
      ih' inner.2 accepted⟩
  | loopAgain _ _ h' ih ih' =>
    rw [visits_append, List.forall_mem_append]
    have := h'.start_le
    exact ⟨fun visit member => by have := ih inner rfl visit member; omega, ih' inner accepted⟩
  | lookYes _ _ ih | takeYes _ _ ih =>
    rw [Plan.inner, Bool.and_eq_true] at inner
    exact ih inner.1 accepted
  | lookNo _ _ ih | takeNo _ _ ih =>
    rw [Plan.inner, Bool.and_eq_true] at inner
    exact ih inner.2 accepted
  | loopLast _ ih => exact ih inner rfl
  | notEnded _ _ ih => exact ih inner accepted
  | taken | notTaken => cases inner

/-- Each visit leads on to all that come after it. -/
theorem Follows.visits_pairwise (h : Follows tokens plan i events outcome j)
    (inner : plan.inner = true) : (visits events).Pairwise LeadsTo := by
  induction h with
  | done | reject | expect | mismatch | ended => simp
  | @call n i _ events _ h ih =>
    have notProgram := Plan.inner_call.mp inner
    have lighter := n.weight_plan
    have first : ∀ visit ∈ visits events, LeadsTo (n, i) visit := by
      intro visit member
      obtain ⟨le, light⟩ := h.start_le_visit visit member
      rcases Nat.lt_or_eq_of_le le with further | here
      · exact .inl further
      · have lower := Nat.lt_of_le_of_lt (light here.symm) (Nat.lt_of_succ_lt lighter)
        exact .inr ⟨here, lower⟩
    rw [visits_call, List.pairwise_cons]
    exact ⟨first, ih (n.inner_plan notProgram)⟩
  | seq h h' ih ih' =>
    -- What the first part enters lies before the index where it ends, and the second part starts
    -- there.
    rw [Plan.inner, Bool.and_eq_true] at inner
    rw [visits_append, List.pairwise_append]
    refine ⟨ih inner.1, ih' inner.2, fun visit member other member' => .inl ?_⟩
    have := h.visit_lt inner.1 visit member
    have := (h'.start_le_visit other member').1
    omega
  | loopAgain h _ h' ih ih' =>
    rw [visits_append, List.pairwise_append]
    refine ⟨ih inner, ih' inner, fun visit member other member' => .inl ?_⟩
    have := h.visit_lt inner visit member
    have := (h'.start_le_visit other member').1
    omega
  | seqHalt _ ih | lookYes _ _ ih | takeYes _ _ ih =>
    rw [Plan.inner, Bool.and_eq_true] at inner
    exact ih inner.1
  | lookNo _ _ ih | takeNo _ _ ih =>
    rw [Plan.inner, Bool.and_eq_true] at inner
    exact ih inner.2
  | loopLast _ ih | loopHalt _ ih | notEnded _ _ ih => exact ih inner
  | taken | notTaken => cases inner

/-! ## Behind all tokens -/

/-- A plan that took the last token, which is the marker, has a form that can end with it. -/
theorem Follows.marker_mem_ends (h : Follows tokens plan i events (.ok ()) j)
    (inner : plan.inner = true) (moved : i < j) (all : tokens.size ≤ j)
    (marked : ∀ k, k + 1 = tokens.size → kindAt? tokens k = some .endOfInput) :
    .endOfInput ∈ plan.form.ends := by
  obtain ⟨word, spelled, derived⟩ := h.derives inner
  have := h.stop_le moved
  have last := spelled.getLast?_eq moved
  rw [marked (j - 1) (by omega)] at last
  exact mem_ends_of_derives derived last

/-- If the marker is the last of the tokens, then no nonterminal is entered behind it. -/
theorem Follows.visit_lt_size (h : Follows tokens plan i events outcome j)
    (marked : ∀ k, k + 1 = tokens.size → kindAt? tokens k = some .endOfInput)
    (inner : plan.inner = true) (settled : plan.settled = true)
    (start : i < tokens.size ∨ plan.quiet = true) :
    ∀ visit ∈ visits events, visit.2 < tokens.size := by
  induction h with
  | done | reject | expect | mismatch | ended => simp
  | @call n i _ _ _ _ ih =>
    have notProgram := Plan.inner_call.mp inner
    have within : i < tokens.size := start.resolve_right (by simp [Plan.quiet])
    rw [visits_call, List.forall_mem_cons]
    exact ⟨within, ih (n.inner_plan notProgram) n.settled_plan (.inl within)⟩
  | @seq first second i j _ _ _ _ h _ ih ih' =>
    simp only [Plan.inner, Plan.settled, Plan.quiet, Bool.and_eq_true, Bool.or_eq_true,
      Bool.not_eq_true'] at inner settled start
    rw [visits_append, List.forall_mem_append]
    refine ⟨ih inner.1 settled.1.1 (start.imp_right And.left), ih' inner.2 settled.1.2 ?_⟩
    have := h.start_le
    -- If the first part used up all tokens, then it took the marker, unless there were none left
    -- for it in the first place.
    by_cases within : j < tokens.size
    · exact .inl within
    · right
      by_cases moved : i < j
      · have ends := h.marker_mem_ends inner.1 moved (by omega) marked
        exact settled.2.resolve_left (by simp [ends])
      · exact (start.resolve_left (by omega)).2
  | @loopAgain round i j _ _ _ _ h moved _ ih ih' =>
    have settled' := settled
    simp only [Plan.settled, Bool.and_eq_true, Bool.or_eq_true, Bool.not_eq_true'] at settled
    rw [visits_append, List.forall_mem_append]
    refine ⟨ih inner settled.1 start, ih' inner settled' ?_⟩
    by_cases within : j < tokens.size
    · exact .inl within
    · have ends := h.marker_mem_ends inner moved (by omega) marked
      exact .inr (settled.2.resolve_left (by simp [ends]))
  | seqHalt _ ih =>
    simp only [Plan.inner, Plan.settled, Plan.quiet, Bool.and_eq_true] at inner settled start
    exact ih inner.1 settled.1.1 (start.imp_right And.left)
  | lookYes next _ ih =>
    simp only [Plan.inner, Plan.settled, Bool.and_eq_true] at inner settled
    exact ih inner.1 settled.1 (.inl (lt_size_of_nextIs next))
  | lookNo _ _ ih =>
    simp only [Plan.inner, Plan.settled, Bool.and_eq_true] at inner settled
    exact ih inner.2 settled.2 start
  | @takeYes kinds yes _ i _ _ _ next _ ih =>
    simp only [Plan.inner, Plan.settled, Bool.and_eq_true, Bool.or_eq_true,
      Bool.not_eq_true'] at inner settled
    have := lt_size_of_nextIs next
    refine ih inner.1 settled.1.1 ?_
    by_cases within : i + 1 < tokens.size
    · exact .inl within
    · -- The token that was taken is the marker.
      have isMarker : kinds.contains .endOfInput = true := by
        rw [← nextIs_of_kindAt? (marked i (by omega)), next]
      exact .inr (settled.2.resolve_left (by simpa using isMarker))
  | takeNo _ _ ih =>
    simp only [Plan.inner, Plan.settled, Bool.and_eq_true] at inner settled
    exact ih inner.2 settled.1.2 start
  | loopLast _ ih | loopHalt _ ih =>
    simp only [Plan.settled, Bool.and_eq_true] at settled
    exact ih inner settled.1 start
  | @notEnded _ i _ _ _ next _ ih =>
    refine ih inner settled (.inl ?_)
    by_contra ended
    rw [atEnd, kindAt?_eq_none_iff.mpr (by omega)] at next
    cases next
  | taken | notTaken => cases inner

/-! ## The visits of a whole run -/

/-- A run on a program enters it, and then what the loop over declarations enters. -/
private theorem Follows.visits_program (h : Follows tokens (.call .program) i events outcome j) :
    ∃ inside outcome' j', visits events = (.program, i) :: visits inside ∧
      Follows tokens (.loop (.unlessAtEnd (.call .declaration))) i inside outcome' j' := by
  cases h with
  | call h =>
    cases h with
    | seqHalt hloop => exact ⟨_, _, _, by simp, hloop⟩
    | seq hloop hend =>
      refine ⟨_, _, _, ?_, hloop⟩
      -- Behind the declarations only the marker is asked for, and nothing is entered.
      cases hend with
      | taken => simp
      | notTaken _ hend =>
        cases hend with
        | expect | mismatch => simp

/-- What a run on the tokens of a whole text enters: first the program, and then parts of it, each
    leading on to those that come after it. -/
theorem exists_visits {tokens : List Token} (marked : EndMarked tokens) :
    ∃ parts, visits (eventsFrom tokens.toArray .program 0).seen = (.program, 0) :: parts ∧
      parts.Pairwise LeadsTo ∧
      ∀ visit ∈ parts, visit.1 ≠ .program ∧ visit.2 < tokens.length := by
  obtain ⟨_, _, _, h⟩ := exists_follows tokens.toArray (.call .program) 0
  obtain ⟨inside, _, _, visits_eq, hloop⟩ := h.visits_program
  refine ⟨visits inside, by rw [eventsFrom_eq h, visits_eq], hloop.visits_pairwise rfl, ?_⟩
  intro visit member
  refine ⟨hloop.visit_ne_program rfl visit member, ?_⟩
  -- The declarations never enter anything behind the marker, which is the last token.
  have within := hloop.visit_lt_size (fun k last => ?_) rfl (by decide)
    (.inl (length_pos_of_endMarked marked)) visit member
  · rwa [List.size_toArray] at within
  · exact (kindAt?_eq_endOfInput_iff marked k).mpr last

/-- There are no more visits than nonterminals other than `program` at each token. -/
theorem length_le_of_leadsTo {parts : List (Nonterminal × Nat)} {size : Nat}
    (ordered : parts.Pairwise LeadsTo)
    (within : ∀ visit ∈ parts, visit.1 ≠ .program ∧ visit.2 < size) :
    parts.length ≤ 25 * size := by
  have nodup : parts.Nodup := ordered.imp LeadsTo.ne
  -- Visits are pairs of an inner nonterminal and an index within the tokens, and no pair occurs
  -- twice.
  have subset : parts ⊆ Nonterminal.all.erase .program ×ˢ List.range size := by
    intro visit member
    obtain ⟨notProgram, lt⟩ := within visit member
    exact List.mem_product.mpr
      ⟨(List.mem_erase_of_ne notProgram).mpr visit.1.mem_all, List.mem_range.mpr lt⟩
  have le := (List.subperm_of_subset nodup subset).length_le
  rw [List.length_product, List.length_range] at le
  exact le

end Recognizer

end LoxSyntax
