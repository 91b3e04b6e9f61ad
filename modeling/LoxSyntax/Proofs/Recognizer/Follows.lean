import LoxSyntax.Recognizer.Machine

/-! # Following a plan

`Follows` says what comes of a plan that is followed from an index: the events that are reported,
how it ends, and the index where it ends.  It has one rule for each way in which a plan can go, and
it does not know of the stack of the recognizer.

Main statements: every plan can be followed from every index (`exists_follows`), and the recognizer
does what the relation says (`recognizeFrom_eq`, `eventsFrom_eq`). -/

namespace LoxSyntax.Recognizer

/-- Following a plan from the index `start` reports some events and ends at the index `stop`, in
    acceptance or at a violation of the grammar. -/
inductive Follows (tokens : Array Token) :
    Plan → (start : Nat) → List Event → Except SyntaxError Unit → (stop : Nat) → Prop where
  | done {i : Nat} : Follows tokens .done i [] (.ok ()) i
  | reject {i : Nat} : Follows tokens .reject i [] (.error (missingExpression tokens i)) i
  | expect {kinds : List Kind} {i : Nat} (h : nextIs tokens i kinds = true) :
    Follows tokens (.expect kinds) i [.take kinds (kindAt? tokens i) i] (.ok ()) (i + 1)
  | mismatch {kinds : List Kind} {i : Nat} (h : nextIs tokens i kinds = false) :
    Follows tokens (.expect kinds) i [.take kinds (kindAt? tokens i) i]
      (.error (mismatch tokens i kinds)) i
  | call {n : Nonterminal} {i j : Nat} {events : List Event} {outcome : Except SyntaxError Unit}
    (h : Follows tokens n.plan i events outcome j) :
    Follows tokens (.call n) i (.enter n i :: events ++ [.leave n i]) outcome j
  | seq {first second : Plan} {i j k : Nat} {events more : List Event}
    {outcome : Except SyntaxError Unit} (h : Follows tokens first i events (.ok ()) j)
    (h' : Follows tokens second j more outcome k) :
    Follows tokens (.seq first second) i (events ++ more) outcome k
  | seqHalt {first second : Plan} {i j : Nat} {events : List Event} {error : SyntaxError}
    (h : Follows tokens first i events (.error error) j) :
    Follows tokens (.seq first second) i events (.error error) j
  | lookYes {kinds : List Kind} {yes no : Plan} {i j : Nat} {events : List Event}
    {outcome : Except SyntaxError Unit} (next : nextIs tokens i kinds = true)
    (h : Follows tokens yes i events outcome j) :
    Follows tokens (.ifNext kinds yes no) i (.look kinds (kindAt? tokens i) i :: events) outcome j
  | lookNo {kinds : List Kind} {yes no : Plan} {i j : Nat} {events : List Event}
    {outcome : Except SyntaxError Unit} (next : nextIs tokens i kinds = false)
    (h : Follows tokens no i events outcome j) :
    Follows tokens (.ifNext kinds yes no) i (.look kinds (kindAt? tokens i) i :: events) outcome j
  | takeYes {kinds : List Kind} {yes no : Plan} {i j : Nat} {events : List Event}
    {outcome : Except SyntaxError Unit} (next : nextIs tokens i kinds = true)
    (h : Follows tokens yes (i + 1) events outcome j) :
    Follows tokens (.ifTake kinds yes no) i
      (.look kinds (kindAt? tokens i) i :: .take kinds (kindAt? tokens i) i :: events) outcome j
  | takeNo {kinds : List Kind} {yes no : Plan} {i j : Nat} {events : List Event}
    {outcome : Except SyntaxError Unit} (next : nextIs tokens i kinds = false)
    (h : Follows tokens no i events outcome j) :
    Follows tokens (.ifTake kinds yes no) i (.look kinds (kindAt? tokens i) i :: events) outcome j
  | loopLast {round : Plan} {i : Nat} {events : List Event}
    (h : Follows tokens round i events (.ok ()) i) :
    Follows tokens (.loop round) i events (.ok ()) i
  | loopAgain {round : Plan} {i j k : Nat} {events more : List Event}
    {outcome : Except SyntaxError Unit} (h : Follows tokens round i events (.ok ()) j)
    (moved : i < j) (h' : Follows tokens (.loop round) j more outcome k) :
    Follows tokens (.loop round) i (events ++ more) outcome k
  | loopHalt {round : Plan} {i j : Nat} {events : List Event} {error : SyntaxError}
    (h : Follows tokens round i events (.error error) j) :
    Follows tokens (.loop round) i events (.error error) j
  | ended {plan : Plan} {i : Nat} (next : atEnd tokens i = true) :
    Follows tokens (.unlessAtEnd plan) i [] (.ok ()) i
  | notEnded {plan : Plan} {i j : Nat} {events : List Event} {outcome : Except SyntaxError Unit}
    (next : atEnd tokens i = false) (h : Follows tokens plan i events outcome j) :
    Follows tokens (.unlessAtEnd plan) i events outcome j
  | taken {plan : Plan} {i : Nat} (last : endTaken tokens i = true) :
    Follows tokens (.unlessEndTaken plan) i [] (.ok ()) i
  | notTaken {plan : Plan} {i j : Nat} {events : List Event} {outcome : Except SyntaxError Unit}
    (last : endTaken tokens i = false) (h : Follows tokens plan i events outcome j) :
    Follows tokens (.unlessEndTaken plan) i events outcome j

variable {tokens : Array Token} {plan : Plan} {i j : Nat} {events : List Event}
  {outcome : Except SyntaxError Unit}

namespace Follows

/-! ## Indices -/

/-- Following a plan never moves back. -/
theorem start_le (h : Follows tokens plan i events outcome j) : i ≤ j := by
  induction h with
  | done | reject | expect | mismatch | loopLast | ended | taken => omega
  | call _ ih | seqHalt _ ih | loopHalt _ ih => exact ih
  | seq _ _ ih ih' => exact Nat.le_trans ih ih'
  | loopAgain _ _ _ ih ih' => exact Nat.le_trans ih ih'
  | lookYes _ _ ih | lookNo _ _ ih | takeNo _ _ ih => exact ih
  | takeYes _ _ ih => omega
  | notEnded _ _ ih | notTaken _ _ ih => exact ih

/-- Only tokens of the sequence are taken. -/
theorem stop_le (h : Follows tokens plan i events outcome j) (moved : i < j) :
    j ≤ tokens.size := by
  induction h with
  | done | reject | mismatch | loopLast | ended | taken => omega
  | expect next => exact lt_size_of_nextIs next
  | call _ ih | seqHalt _ ih | loopHalt _ ih => exact ih moved
  | @seq _ _ i j k _ _ _ h h' ih ih' | @loopAgain _ i j k _ _ _ h _ h' ih ih' =>
    -- If the second part took nothing, then the first one took what was taken.
    by_cases later : j < k
    · exact ih' later
    · have := h'.start_le
      have := ih (by omega)
      omega
  | lookYes _ _ ih | lookNo _ _ ih | takeNo _ _ ih => exact ih moved
  | @takeYes _ _ _ i j _ _ next h ih =>
    have := lt_size_of_nextIs next
    by_cases later : i + 1 < j
    · exact ih later
    · omega
  | notEnded _ _ ih | notTaken _ _ ih => exact ih moved

/-- A guarded plan takes a token before it ends in acceptance. -/
theorem lt_of_guarded (h : Follows tokens plan i events (.ok ()) j)
    (guarded : plan.guarded = true) : i < j := by
  generalize accepted : Except.ok () = outcome at h
  induction h with
  -- These plans are not guarded.
  | done | loopLast | loopAgain | ended | taken | notEnded | notTaken =>
    simp [Plan.guarded] at guarded
  -- These do not end in acceptance.
  | reject | mismatch | seqHalt | loopHalt => simp at accepted
  | expect => omega
  | call _ ih => exact ih (Nonterminal.guarded_plan guarded) accepted
  | seq h h' ih ih' =>
    have := h.start_le
    have := h'.start_le
    simp only [Plan.guarded, Bool.or_eq_true] at guarded
    rcases guarded with guarded | guarded
    · have := ih guarded rfl
      omega
    · have := ih' guarded accepted
      omega
  | lookYes _ _ ih =>
    simp only [Plan.guarded, Bool.and_eq_true] at guarded
    exact ih guarded.1 accepted
  | lookNo _ _ ih =>
    simp only [Plan.guarded, Bool.and_eq_true] at guarded
    exact ih guarded.2 accepted
  | takeYes _ h =>
    have := h.start_le
    omega
  | takeNo _ _ ih => exact ih guarded accepted

end Follows

/-! ## Every plan can be followed -/

/-- Following a plan comes to an end, from every index. -/
theorem exists_follows (tokens : Array Token) (plan : Plan) (i : Nat) :
    ∃ events outcome j, Follows tokens plan i events outcome j := by
  match plan with
  | .done => exact ⟨_, _, _, .done⟩
  | .reject => exact ⟨_, _, _, .reject⟩
  | .expect kinds =>
    cases next : nextIs tokens i kinds with
    | true => exact ⟨_, _, _, .expect next⟩
    | false => exact ⟨_, _, _, .mismatch next⟩
  | .call n =>
    have := n.weight_plan
    obtain ⟨_, _, _, h⟩ := exists_follows tokens n.plan i
    exact ⟨_, _, _, .call h⟩
  | .seq first second =>
    obtain ⟨_, outcome, j, h⟩ := exists_follows tokens first i
    cases outcome with
    | error error => exact ⟨_, _, _, .seqHalt h⟩
    | ok =>
      have := h.start_le
      have := h.stop_le
      -- If the first plan took nothing, then it is not guarded, and the second one counts.
      have : j = i → first.guarded = false := by
        intro stayed
        cases guard : first.guarded with
        | true => exact absurd (h.lt_of_guarded guard) (by omega)
        | false => rfl
      obtain ⟨_, _, _, h'⟩ := exists_follows tokens second j
      exact ⟨_, _, _, .seq h h'⟩
  | .ifNext kinds yes no =>
    cases next : nextIs tokens i kinds with
    | true =>
      obtain ⟨_, _, _, h⟩ := exists_follows tokens yes i
      exact ⟨_, _, _, .lookYes next h⟩
    | false =>
      obtain ⟨_, _, _, h⟩ := exists_follows tokens no i
      exact ⟨_, _, _, .lookNo next h⟩
  | .ifTake kinds yes no =>
    cases next : nextIs tokens i kinds with
    | true =>
      have := lt_size_of_nextIs next
      obtain ⟨_, _, _, h⟩ := exists_follows tokens yes (i + 1)
      exact ⟨_, _, _, .takeYes next h⟩
    | false =>
      obtain ⟨_, _, _, h⟩ := exists_follows tokens no i
      exact ⟨_, _, _, .takeNo next h⟩
  | .loop round =>
    obtain ⟨_, outcome, j, h⟩ := exists_follows tokens round i
    cases outcome with
    | error error => exact ⟨_, _, _, .loopHalt h⟩
    | ok =>
      by_cases moved : i < j
      · have := h.stop_le moved
        obtain ⟨_, _, _, h'⟩ := exists_follows tokens (.loop round) j
        exact ⟨_, _, _, .loopAgain h moved h'⟩
      · have := h.start_le
        obtain rfl : j = i := by omega
        exact ⟨_, _, _, .loopLast h⟩
  | .unlessAtEnd plan =>
    cases next : atEnd tokens i with
    | true => exact ⟨_, _, _, .ended next⟩
    | false =>
      obtain ⟨_, _, _, h⟩ := exists_follows tokens plan i
      exact ⟨_, _, _, .notEnded next h⟩
  | .unlessEndTaken plan =>
    cases last : endTaken tokens i with
    | true => exact ⟨_, _, _, .taken last⟩
    | false =>
      obtain ⟨_, _, _, h⟩ := exists_follows tokens plan i
      exact ⟨_, _, _, .notTaken last h⟩
-- Either a token was taken, or what remains to be followed is a lighter plan.
termination_by (tokens.size - i, plan.weight)
decreasing_by
  all_goals simp only [Plan.weight, Prod.lex_def]
  all_goals grind

/-! ## The recognizer follows plans -/

section Machine

variable {α : Type} (observe : α → Event → α)

/-- A run with nothing left to do ends where it is. -/
private theorem run_nil (index : Nat) (seen : α) :
    run tokens observe ⟨[], index⟩ seen = ⟨seen, .ok (), index⟩ := by
  rw [run]

/-- A run goes on from where its first step leads. -/
private theorem run_of_next {frame : Frame} {stack : List Frame} {index : Nat}
    {event? : Option Event}
    {state : State} (h : step tokens frame stack index = .next event? state) (seen : α) :
    run tokens observe ⟨frame :: stack, index⟩ seen =
      run tokens observe state (event?.elim seen (observe seen)) := by
  rw [run]
  split
  · next same =>
    rw [h, Transition.next.injEq] at same
    rw [same.1, same.2]
  · next halts => cases h.symm.trans halts

/-- A run ends where its first step halts. -/
private theorem run_of_halt {frame : Frame} {stack : List Frame} {index : Nat}
    {event? : Option Event}
    {error : SyntaxError} (h : step tokens frame stack index = .halt event? error) (seen : α) :
    run tokens observe ⟨frame :: stack, index⟩ seen =
      ⟨unwind observe stack (event?.elim seen (observe seen)), .error error, index⟩ := by
  rw [run]
  split
  · next goes => cases h.symm.trans goes
  · next same =>
    rw [h, Transition.halt.injEq] at same
    rw [same.1, same.2]

/-- What a run does after a plan has been followed: it works on the rest of the stack, or leaves
    the nonterminals that it was in. -/
def finish (tokens : Array Token) (outcome : Except SyntaxError Unit) (stack : List Frame)
    (index : Nat) (seen : α) : Run α :=
  match outcome with
  | .ok () => run tokens observe ⟨stack, index⟩ seen
  | .error error => ⟨unwind observe stack seen, .error error, index⟩

/-- A run with a plan on top of its stack follows the plan. -/
private theorem run_follow (h : Follows tokens plan i events outcome j) (stack : List Frame)
    (seen : α) : run tokens observe ⟨.follow plan :: stack, i⟩ seen =
      finish observe tokens outcome stack j (events.foldl observe seen) := by
  -- What lies below the plan on the stack and what was seen before differ from part to part.
  induction h generalizing stack seen with
  | done =>
    rw [run_of_next observe rfl]
    rfl
  | reject =>
    rw [run_of_halt observe rfl]
    rfl
  | expect next =>
    rw [run_of_next observe (by rw [step, if_pos next])]
    rfl
  | mismatch next =>
    rw [run_of_halt observe (by rw [step, if_neg (by simp [next])])]
    rfl
  | @call n i j events outcome h ih =>
    rw [run_of_next observe rfl, ih, List.foldl_append, List.foldl_cons]
    -- The nonterminal is left in either case: by a step of its own, or as the stack is unwound.
    cases outcome with
    | ok =>
      rw [finish, run_of_next observe rfl]
      rfl
    | error => rfl
  | seq _ _ ih ih' =>
    rw [run_of_next observe rfl, ih, List.foldl_append]
    exact ih' stack _
  | seqHalt _ ih =>
    rw [run_of_next observe rfl, ih]
    rfl
  | lookYes next _ ih =>
    rw [run_of_next observe rfl, if_pos next, ih]
    rfl
  | lookNo next _ ih =>
    rw [run_of_next observe rfl, if_neg (by simp [next]), ih]
    rfl
  | takeYes next _ ih =>
    rw [run_of_next observe (by rw [step, if_pos next]),
      run_of_next observe (by rw [step, if_pos next]), ih]
    rfl
  | takeNo next _ ih =>
    rw [run_of_next observe (by rw [step, if_neg (by simp [next])]), ih]
    rfl
  | loopLast _ ih =>
    rw [run_of_next observe rfl, ih, finish,
      run_of_next observe (by rw [step, if_neg (Nat.lt_irrefl _)])]
    rfl
  | loopAgain _ moved _ ih ih' =>
    rw [run_of_next observe rfl, ih, finish, run_of_next observe (by rw [step, if_pos moved]),
      List.foldl_append]
    exact ih' stack _
  | loopHalt _ ih =>
    rw [run_of_next observe rfl, ih]
    rfl
  | ended next =>
    rw [run_of_next observe rfl, if_pos next]
    rfl
  | notEnded next _ ih =>
    rw [run_of_next observe rfl, if_neg (by simp [next]), ih]
    rfl
  | taken last =>
    rw [run_of_next observe rfl, if_pos last]
    rfl
  | notTaken last _ ih =>
    rw [run_of_next observe rfl, if_neg (by simp [last]), ih]
    rfl

end Machine

/-- The recognizer does what following the plan of the nonterminal comes to. -/
theorem recognizeFrom_eq {n : Nonterminal} (h : Follows tokens (.call n) i events outcome j) :
    recognizeFrom tokens n i = ⟨(), outcome, j⟩ := by
  rw [recognizeFrom, run_follow _ h]
  cases outcome with
  | ok => exact run_nil _ _ _
  | error => rfl

/-- The recognizer reports the events of following the plan of the nonterminal. -/
theorem eventsFrom_eq {n : Nonterminal} (h : Follows tokens (.call n) i events outcome j) :
    eventsFrom tokens n i = ⟨events, outcome, j⟩ := by
  rw [eventsFrom, run_follow _ h, List.foldl_flip_cons_eq_append', List.append_nil]
  cases outcome with
  | ok => simp [finish, run_nil]
  | error => simp [finish, unwind]

/-- How the recognizer ends is how following the plan of the nonterminal ends. -/
theorem recognizeFrom_iff {n : Nonterminal} :
    ((recognizeFrom tokens n i).outcome = outcome ∧ (recognizeFrom tokens n i).index = j) ↔
      ∃ events, Follows tokens (.call n) i events outcome j := by
  constructor
  · intro h
    obtain ⟨rfl, rfl⟩ := h
    obtain ⟨events, _, _, h⟩ := exists_follows tokens (.call n) i
    rw [recognizeFrom_eq h]
    exact ⟨events, h⟩
  · intro h
    obtain ⟨events, h⟩ := h
    rw [recognizeFrom_eq h]
    exact ⟨rfl, rfl⟩

end LoxSyntax.Recognizer
