import LoxSyntax.Recognizer.Lookahead
import LoxSyntax.Recognizer.Progress

/-! # The recognizer

The recognizer is a stack machine.  Its state is the index of the next token and a stack of frames:
plans that are still to be followed, loops to go round again, and nonterminals that have been
entered and are to be left.  `step` works on the frame on top of the stack, and `run` goes on until
the stack is empty or a violation of the grammar is met.  A run reports what it does as a sequence
of events to an observer, who cannot influence it.

Nested nonterminals make the stack of frames longer and cost nothing else.  The call stack that a
recursive recognizer would use, and what is done to make room on it, are left out: a run never fails
for want of room.

The index never moves back, and each step that does not move it makes the stack lighter
(`weight_step`), so every run ends. -/

namespace LoxSyntax.Recognizer

/-- What the recognizer does, in a form fit for reporting.  Each event tells the index at which it
    happens; a nonterminal is left with the index at which it was entered. -/
inductive Event where
  | enter (n : Nonterminal) (index : Nat)
  | leave (n : Nonterminal) (index : Nat)
  /-- The next token is compared with some kinds. -/
  | look (kinds : List Kind) (found : Option Kind) (index : Nat)
  /-- The next token is to be taken, and has to be of one of these kinds. -/
  | take (kinds : List Kind) (found : Option Kind) (index : Nat)
  deriving DecidableEq

/-- A piece of work that the recognizer has put off. -/
inductive Frame where
  /-- A plan is to be followed. -/
  | follow (plan : Plan)
  /-- A round of a loop was begun at this index, and another follows if it took a token. -/
  | again (start : Nat) (round : Plan)
  /-- A nonterminal was entered at this index and is to be left. -/
  | leave (n : Nonterminal) (start : Nat)
  deriving DecidableEq

/-- The state of the recognizer: the work ahead, nearest first, and the index of the next token. -/
structure State where
  stack : List Frame
  index : Nat

/-- The result of a single step. -/
inductive Transition where
  /-- The recognizer goes on, and may have something to report. -/
  | next (event? : Option Event) (state : State)
  /-- The recognizer stops at a violation of the grammar. -/
  | halt (event? : Option Event) (error : SyntaxError)

/-- Works on the top frame of the stack. -/
def step (tokens : Array Token) (frame : Frame) (stack : List Frame) (index : Nat) :
    Transition :=
  match frame with
  | .follow .done => .next none ⟨stack, index⟩
  | .follow .reject => .halt none (missingExpression tokens index)
  | .follow (.expect kinds) =>
    let event := Event.take kinds (kindAt? tokens index) index
    if nextIs tokens index kinds then
      .next (some event) ⟨stack, index + 1⟩
    else
      .halt (some event) (mismatch tokens index kinds)
  | .follow (.call n) =>
    .next (some (.enter n index)) ⟨.follow n.plan :: .leave n index :: stack, index⟩
  | .follow (.seq first second) => .next none ⟨.follow first :: .follow second :: stack, index⟩
  | .follow (.ifNext kinds yes no) =>
    let event := Event.look kinds (kindAt? tokens index) index
    .next (some event) ⟨.follow (if nextIs tokens index kinds then yes else no) :: stack, index⟩
  | .follow (.ifTake kinds yes no) =>
    let event := Event.look kinds (kindAt? tokens index) index
    if nextIs tokens index kinds then
      -- Taking the token is a step of its own, which reports itself.
      .next (some event) ⟨.follow (.expect kinds) :: .follow yes :: stack, index⟩
    else
      .next (some event) ⟨.follow no :: stack, index⟩
  | .follow (.loop round) => .next none ⟨.follow round :: .again index round :: stack, index⟩
  | .follow (.unlessAtEnd plan) =>
    .next none ⟨if atEnd tokens index then stack else .follow plan :: stack, index⟩
  | .follow (.unlessEndTaken plan) =>
    .next none ⟨if endTaken tokens index then stack else .follow plan :: stack, index⟩
  | .again start round =>
    .next none ⟨if start < index then .follow (.loop round) :: stack else stack, index⟩
  | .leave n start => .next (some (.leave n start)) ⟨stack, index⟩

/-! ## Every run ends -/

/-- Whether the work of a frame cannot be finished without taking a token. -/
def Frame.guarded : Frame → Bool
  | .follow plan => plan.guarded
  | .again _ _ => false
  | .leave _ _ => false

/-- A bound for the work on a frame before the next token is taken, which is the one at `index`. -/
def Frame.weight (index : Nat) : Frame → Nat
  | .follow plan => plan.weight
  | .again start round => if start < index then 1 + (Plan.loop round).weight else 1
  | .leave _ _ => 1

/-- A bound for the work on a stack before the next token is taken. -/
def stackWeight (index : Nat) : List Frame → Nat
  | [] => 0
  | frame :: rest =>
    frame.weight index + bif frame.guarded then 0 else stackWeight index rest

section

variable {frame first second : Frame} {stack : List Frame} {index : Nat}

/-- A frame that is done with leaves less work, unless it had to take a token. -/
private theorem stackWeight_lt_cons (positive : 0 < frame.weight index)
    (free : frame.guarded = false) :
    stackWeight index stack < stackWeight index (frame :: stack) := by
  rw [stackWeight, free, cond_false]
  omega

/-- A lighter frame in the place of another one leaves less work, if it has to take a token where
    the other one had to. -/
private theorem stackWeight_cons_lt_cons (lighter : first.weight index < frame.weight index)
    (guards : frame.guarded = true → first.guarded = true) :
    stackWeight index (first :: stack) < stackWeight index (frame :: stack) := by
  rw [stackWeight, stackWeight]
  cases guard : frame.guarded with
  | true =>
    rw [guards guard, cond_true]
    exact lighter
  | false =>
    rw [cond_false]
    cases first.guarded <;> (simp; omega)

/-- Nothing or a lighter frame, whichever it comes to, leaves less work in the place of a frame. -/
private theorem stackWeight_unless_lt_cons {done : Bool}
    (lighter : first.weight index < frame.weight index) (free : frame.guarded = false) :
    stackWeight index (if done then stack else first :: stack) <
      stackWeight index (frame :: stack) := by
  cases done with
  | true => exact stackWeight_lt_cons (Nat.zero_lt_of_lt lighter) free
  | false => exact stackWeight_cons_lt_cons lighter (by simp [free])

/-- Two frames in the place of one leave less work, if they are lighter together.  What the first
    one puts off until a token is taken does not count. -/
private theorem stackWeight_cons_cons_lt_cons
    (lighter : first.weight index + (bif first.guarded then 0 else second.weight index) <
      frame.weight index)
    (guards : frame.guarded = true → (first.guarded || second.guarded) = true) :
    stackWeight index (first :: second :: stack) < stackWeight index (frame :: stack) := by
  rw [stackWeight, stackWeight, stackWeight]
  cases firstGuard : first.guarded with
  | true =>
    rw [firstGuard, cond_true] at lighter
    rw [cond_true]
    omega
  | false =>
    rw [firstGuard, cond_false] at lighter
    rw [firstGuard, Bool.false_or] at guards
    rw [cond_false]
    cases guard : frame.guarded with
    | true =>
      rw [guards guard, cond_true]
      omega
    | false =>
      rw [cond_false]
      cases second.guarded <;> (simp; omega)

end

/-- A step takes a token, or it leaves less work to be done before the next token is taken. -/
theorem weight_step {tokens : Array Token} {frame : Frame} {stack : List Frame} {index : Nat}
    {event? : Option Event} {state : State}
    (h : step tokens frame stack index = .next event? state) :
    (index < tokens.size ∧ state.index = index + 1) ∨
      (state.index = index ∧
        stackWeight state.index state.stack < stackWeight index (frame :: stack)) := by
  -- Each step takes the top frame off or puts one or two others in its place.
  cases frame with
  | again start round =>
    obtain ⟨-, rfl⟩ := Transition.next.inj h
    refine .inr ⟨rfl, ?_⟩
    by_cases moved : start < index
    · rw [if_pos moved]
      exact stackWeight_cons_lt_cons (by simp [Frame.weight, moved]) (by simp [Frame.guarded])
    · rw [if_neg moved]
      exact stackWeight_lt_cons (by simp [Frame.weight, moved]) rfl
  | leave n start =>
    obtain ⟨-, rfl⟩ := Transition.next.inj h
    exact .inr ⟨rfl, stackWeight_lt_cons Nat.one_pos rfl⟩
  | follow plan =>
    cases plan with
    | done =>
      obtain ⟨-, rfl⟩ := Transition.next.inj h
      exact .inr ⟨rfl, stackWeight_lt_cons Nat.one_pos rfl⟩
    | reject => cases h
    | expect kinds =>
      by_cases fits : nextIs tokens index kinds = true
      · rw [step, if_pos fits] at h
        obtain ⟨-, rfl⟩ := Transition.next.inj h
        exact .inl ⟨lt_size_of_nextIs fits, rfl⟩
      · rw [step, if_neg fits] at h
        cases h
    | call n =>
      obtain ⟨-, rfl⟩ := Transition.next.inj h
      refine .inr ⟨rfl, stackWeight_cons_cons_lt_cons ?_ ?_⟩
      · -- The rank of the nonterminal has room for its plan and for leaving it.
        have lighter := n.weight_plan
        simp only [Frame.weight, Frame.guarded, Plan.weight]
        cases n.plan.guarded <;> (simp; omega)
      · intro guard
        rw [Frame.guarded, n.guarded_plan guard, Bool.true_or]
    | seq first second =>
      obtain ⟨-, rfl⟩ := Transition.next.inj h
      refine .inr ⟨rfl, stackWeight_cons_cons_lt_cons ?_ id⟩
      simp only [Frame.weight, Frame.guarded, Plan.weight]
      omega
    | ifNext kinds yes no =>
      obtain ⟨-, rfl⟩ := Transition.next.inj h
      refine .inr ⟨rfl, stackWeight_cons_lt_cons ?_ ?_⟩
      · simp only [Frame.weight, Plan.weight]
        cases nextIs tokens index kinds <;> (simp; omega)
      · -- Both branches take a token if the choice has to.
        intro guard
        rw [Frame.guarded, Plan.guarded, Bool.and_eq_true] at guard
        cases nextIs tokens index kinds with
        | true => exact guard.1
        | false => exact guard.2
    | ifTake kinds yes no =>
      have positive := no.weight_pos
      by_cases fits : nextIs tokens index kinds = true
      · rw [step, if_pos fits] at h
        obtain ⟨-, rfl⟩ := Transition.next.inj h
        -- The token is taken next, so the branch behind it does not count.
        refine .inr ⟨rfl, stackWeight_cons_cons_lt_cons ?_ fun _ => rfl⟩
        simp only [Frame.weight, Frame.guarded, Plan.weight, Plan.guarded, cond_true]
        omega
      · rw [step, if_neg fits] at h
        obtain ⟨-, rfl⟩ := Transition.next.inj h
        refine .inr ⟨rfl, stackWeight_cons_lt_cons ?_ id⟩
        simp only [Frame.weight, Plan.weight]
        omega
    | loop round =>
      obtain ⟨-, rfl⟩ := Transition.next.inj h
      refine .inr ⟨rfl, stackWeight_cons_cons_lt_cons ?_ (by simp [Frame.guarded, Plan.guarded])⟩
      simp only [Frame.weight, Frame.guarded, Plan.weight, Nat.lt_irrefl, if_false]
      cases round.guarded with
      | true => simp
      | false => simp; omega
    | unlessAtEnd plan | unlessEndTaken plan =>
      obtain ⟨-, rfl⟩ := Transition.next.inj h
      exact .inr ⟨rfl, stackWeight_unless_lt_cons (by simp only [Frame.weight, Plan.weight]; omega)
        rfl⟩

/-! ## Runs -/

/-- How a run ended: what the observer made of it, whether the input was accepted, and the index of
    the first token that was not taken. -/
structure Run (α : Type) where
  seen : α
  outcome : Except SyntaxError Unit
  index : Nat

/-- Leaves the nonterminals that a run was in when it stopped, innermost first. -/
def unwind {α : Type} (observe : α → Event → α) : List Frame → α → α
  | [], seen => seen
  | .leave n start :: rest, seen => unwind observe rest (observe seen (.leave n start))
  | _ :: rest, seen => unwind observe rest seen

/-- Runs the recognizer from a state, reporting each event to an observer. -/
def run {α : Type} (tokens : Array Token) (observe : α → Event → α) (state : State) (seen : α) :
    Run α :=
  match state with
  | ⟨[], index⟩ => ⟨seen, .ok (), index⟩
  | ⟨frame :: stack, index⟩ =>
    match taken : step tokens frame stack index with
    | .next event? state =>
      have := weight_step taken
      run tokens observe state (event?.elim seen (observe seen))
    | .halt event? error =>
      ⟨unwind observe stack (event?.elim seen (observe seen)), .error error, index⟩
termination_by (tokens.size - state.index, stackWeight state.index state.stack)
decreasing_by
  rcases this with ⟨within, moved⟩ | ⟨stayed, lighter⟩
  · exact Prod.Lex.left _ _ (by simp only [moved]; omega)
  · rw [stayed] at lighter ⊢
    exact Prod.Lex.right _ lighter

/-- Runs the recognizer on a nonterminal from an index. -/
def recognizeFrom (tokens : Array Token) (n : Nonterminal) (index : Nat) : Run Unit :=
  run tokens (fun _ _ => ()) ⟨[.follow (.call n)], index⟩ ()

/-- The events of a run on a nonterminal from an index, in order. -/
def eventsFrom (tokens : Array Token) (n : Nonterminal) (index : Nat) : Run (List Event) :=
  let run := run tokens (fun events event => event :: events) ⟨[.follow (.call n)], index⟩ []
  { run with seen := run.seen.reverse }

end LoxSyntax.Recognizer

namespace LoxSyntax

/-- Whether a sequence of tokens is a program, or else the first violation of the grammar. -/
def recognize (tokens : List Token) : Except SyntaxError Unit :=
  (Recognizer.recognizeFrom tokens.toArray .program 0).outcome

end LoxSyntax
