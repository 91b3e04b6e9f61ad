import LoxSyntax.Proofs.Grammar.Expansions
import LoxSyntax.Proofs.Recognizer.Program
import LoxSyntax.Proofs.Recognizer.Violation

/-! # The course of a run

The events of a run form a tree: what happens between entering a nonterminal and leaving it is a
course of its own (`Follows.exists_course`).  The tokens that are taken are those from the start of
the run to its end, one after the other (`Follows.exists_takings`).  If no violation is met, then
the tree is a derivation tree: what is done within each nonterminal is one of its right-hand sides,
and so the tokens that are taken are a word of the grammar (`IsDerivation.derives`).  If one is met,
then the run has nothing more to do but to leave what it has entered (`Follows.haltsAt`). -/

namespace LoxSyntax.Recognizer

/-! ## Tokens that are taken -/

/-- The kind of the token that an event takes, and the index of the token.  A token that is not of
    the kinds that are asked for is not taken. -/
def Event.taken? : Event → Option (Kind × Nat)
  | take kinds found index => (found.filter kinds.contains).map (·, index)
  | enter .. | leave .. | look .. => none

/-- The kinds and indices of the tokens that are taken, in order. -/
def takings (events : List Event) : List (Kind × Nat) := events.filterMap Event.taken?

section

variable {n : Nonterminal} {i : Nat} {kinds : List Kind} {found : Option Kind}
  {events more : List Event}

@[simp] theorem takings_nil : takings [] = [] := rfl

@[simp] theorem takings_append : takings (events ++ more) = takings events ++ takings more :=
  List.filterMap_append

@[simp] theorem takings_enter : takings (.enter n i :: events) = takings events := rfl

@[simp] theorem takings_leave : takings (.leave n i :: events) = takings events := rfl

@[simp] theorem takings_look : takings (.look kinds found i :: events) = takings events := rfl

/-- A question for a token is a taking if the token is of the kinds asked for. -/
private theorem takings_take : takings (.take kinds found i :: events) =
    ((found.filter kinds.contains).map (·, i)).toList ++ takings events := by
  cases h : found.filter kinds.contains with
  | none =>
    have notTaken : Event.taken? (.take kinds found i) = none := by rw [Event.taken?, h]; rfl
    rw [takings, List.filterMap_cons_none notTaken]
    rfl
  | some kind =>
    have isTaken : Event.taken? (.take kinds found i) = some (kind, i) := by
      rw [Event.taken?, h]
      rfl
    rw [takings, List.filterMap_cons_some isTaken]
    rfl

end

/-! ## Courses -/

/-- What a run does, one after the other.  What it does between entering a nonterminal and leaving
    it is a course of its own. -/
inductive Course where
  | done
  | look (kinds : List Kind) (found : Option Kind) (index : Nat) (later : Course)
  | take (kinds : List Kind) (found : Option Kind) (index : Nat) (later : Course)
  | visit (n : Nonterminal) (index : Nat) (inside later : Course)

namespace Course

/-- The events of a course, in order.  A nonterminal is left as it was entered. -/
def events : Course → List Event
  | done => []
  | look kinds found index later => .look kinds found index :: later.events
  | take kinds found index later => .take kinds found index :: later.events
  | visit n index inside later =>
    .enter n index :: inside.events ++ .leave n index :: later.events

/-- One course and then another. -/
def append : Course → Course → Course
  | done, more => more
  | look kinds found index later, more => look kinds found index (later.append more)
  | take kinds found index later, more => take kinds found index (later.append more)
  | visit n index inside later, more => visit n index inside (later.append more)

/-- What a course is made up of, if one does not look into nonterminals: the tokens that it takes,
    and the nonterminals that it enters. -/
def children : Course → List (Symbol Kind Nonterminal)
  | done => []
  | look _ _ _ later => later.children
  | take kinds found _ later =>
    (found.filter kinds.contains).toList.map .terminal ++ later.children
  | visit n _ _ later => .nonterminal n :: later.children

/-- The kinds of the tokens that are taken in a course. -/
def word (course : Course) : List Kind := (takings course.events).map Prod.fst

/-- Whether a course consists of derivation trees: what is done in each nonterminal is one of the
    right-hand sides of its production. -/
def IsDerivation : Course → Prop
  | done => True
  | look _ _ _ later => later.IsDerivation
  | take _ _ _ later => later.IsDerivation
  | visit n _ inside later =>
    inside.children ∈ n.production.expansions ∧ inside.IsDerivation ∧ later.IsDerivation

/-- Whether somewhere in a course, a nonterminal takes a token of some kind for itself. -/
def TakesIn (n : Nonterminal) (kind : Kind) : Course → Prop
  | done => False
  | look _ _ _ later => later.TakesIn n kind
  | take _ _ _ later => later.TakesIn n kind
  | visit m _ inside later =>
    (m = n ∧ .terminal kind ∈ inside.children) ∨ inside.TakesIn n kind ∨ later.TakesIn n kind

variable {course more inside later : Course} {n : Nonterminal} {i : Nat} {kinds : List Kind}
  {found : Option Kind} {kind : Kind} {form : Form}

/-! ### One course after another -/

@[simp] theorem events_append : (course.append more).events = course.events ++ more.events := by
  induction course with
  | done => rfl
  | look _ _ _ _ ih | take _ _ _ _ ih => simp [append, events, ih]
  | visit _ _ _ _ _ ih => simp [append, events, ih]

@[simp] theorem children_append :
    (course.append more).children = course.children ++ more.children := by
  induction course with
  | done => rfl
  | look _ _ _ _ ih | take _ _ _ _ ih => simp [append, children, ih]
  | visit _ _ _ _ _ ih => simp [append, children, ih]

/-- Derivations one behind the other are a derivation. -/
private theorem IsDerivation.append (h : course.IsDerivation) (h' : more.IsDerivation) :
    (course.append more).IsDerivation := by
  induction course with
  | done => exact h'
  | look _ _ _ _ ih | take _ _ _ _ ih => exact ih h
  | visit _ _ _ _ _ ih => exact ⟨h.1, h.2.1, ih h.2.2⟩

/-! ### The tokens of a course -/

@[simp] theorem word_done : word done = [] := rfl

@[simp] theorem word_look : (look kinds found i later).word = later.word := rfl

@[simp] theorem word_take :
    (take kinds found i later).word = (found.filter kinds.contains).toList ++ later.word := by
  rw [word, events, takings_take, List.map_append, ← word]
  cases found.filter kinds.contains <;> rfl

@[simp] theorem word_visit : (visit n i inside later).word = inside.word ++ later.word := by
  simp [word, events]

/-- In a course of derivation trees, each nonterminal takes one of its words. -/
private theorem IsDerivation.standsFor (h : course.IsDerivation) :
    StandsFor course.children course.word := by
  induction course with
  | done => rfl
  | look _ _ _ _ ih => exact ih h
  | take kinds found _ _ ih =>
    rw [children, word_take]
    cases found.filter kinds.contains with
    | none => exact ih h
    | some kind => exact ⟨_, rfl, ih h⟩
  | visit n _ inside _ ih ih' =>
    -- What is done inside a nonterminal stands for a right-hand side of it, and so for a word of
    -- it.
    obtain ⟨expansion, derivation, later⟩ := h
    rw [children, word_visit]
    exact ⟨_, _, rfl, .category (derives_of_mem_expansions expansion (ih derivation)), ih' later⟩

/-- So if what a course is made up of is a right-hand side of a form, then it takes a word of the
    form. -/
theorem IsDerivation.derives (h : course.IsDerivation)
    (expansion : course.children ∈ form.expansions) : Derives form course.word :=
  derives_of_mem_expansions expansion h.standsFor

/-- A marker that is taken within derivation trees is taken by a `print`. -/
private theorem IsDerivation.takesIn_printStmt (h : course.IsDerivation)
    (inner : .nonterminal .program ∉ course.children)
    (notChild : .terminal .endOfInput ∉ course.children) (member : .endOfInput ∈ course.word) :
    course.TakesIn .printStmt .endOfInput := by
  induction course with
  | done => cases member
  | look _ _ _ _ ih => exact ih h inner notChild member
  | take kinds found _ _ ih =>
    rw [children, List.mem_append, not_or] at inner notChild
    rw [word_take, List.mem_append] at member
    refine ih h inner.2 notChild.2 (member.resolve_left fun isTaken => ?_)
    exact notChild.1 (List.mem_map_of_mem isTaken)
  | visit n _ inside _ ih ih' =>
    obtain ⟨expansion, derivation, later⟩ := h
    rw [children, List.mem_cons, not_or] at inner notChild
    rw [word_visit, List.mem_append] at member
    rcases member with member | member
    · -- A nonterminal with the marker among its children is a `print` statement, and in any other
      -- the marker was taken further inside.
      by_cases isChild : .terminal .endOfInput ∈ inside.children
      · have isMarked :=
          n.eq_of_marker_mem_symbols (Form.mem_symbols_of_mem_expansions expansion isChild)
        have notProgram : n ≠ .program := fun isProgram => inner.1 (by rw [isProgram])
        exact .inl ⟨isMarked.resolve_right notProgram, isChild⟩
      · have noProgram : .nonterminal .program ∉ inside.children := fun isProgram =>
          n.program_not_mem_symbols (Form.mem_symbols_of_mem_expansions expansion isProgram)
        exact .inr (.inl (ih derivation noProgram isChild member))
    · exact .inr (.inr (ih' later inner.2 notChild.2 member))

/-! ### Courses are read off their events -/

/-- Where a nonterminal is left shows in the events: it is the first event of leaving that no course
    accounts for. -/
private theorem eq_of_events_append_leave {other : Course} {m : Nonterminal} {j : Nat}
    {rest rest' : List Event}
    (h : course.events ++ .leave n i :: rest = other.events ++ .leave m j :: rest') :
    course = other ∧ rest = rest' := by
  induction course generalizing other n i m j rest rest' with
  | done =>
    cases other with
    | done => exact ⟨rfl, (List.cons.inj h).2⟩
    | look | take | visit => cases (List.cons.inj h).1
  | look _ _ _ later ih =>
    cases other with
    | done | take | visit => cases (List.cons.inj h).1
    | look _ _ _ later' =>
      obtain ⟨same, others⟩ := List.cons.inj h
      obtain ⟨rfl, rfl, rfl⟩ := Event.look.inj same
      obtain ⟨rfl, rfl⟩ := ih others
      exact ⟨rfl, rfl⟩
  | take _ _ _ later ih =>
    cases other with
    | done | look | visit => cases (List.cons.inj h).1
    | take _ _ _ later' =>
      obtain ⟨same, others⟩ := List.cons.inj h
      obtain ⟨rfl, rfl, rfl⟩ := Event.take.inj same
      obtain ⟨rfl, rfl⟩ := ih others
      exact ⟨rfl, rfl⟩
  | visit _ _ inside later ih ih' =>
    -- Both courses enter the same nonterminal, and it is left at the first event of leaving that
    -- belongs to none of the nonterminals within.
    cases other with
    | done | look | take => cases (List.cons.inj h).1
    | visit _ _ inside' later' =>
      simp only [events, List.cons_append, List.append_assoc, List.cons.injEq] at h
      obtain ⟨same, others⟩ := h
      obtain ⟨rfl, rfl⟩ := Event.enter.inj same
      obtain ⟨rfl, behind⟩ := ih others
      obtain ⟨rfl, rfl⟩ := ih' behind
      exact ⟨rfl, rfl⟩

/-- There is only one course with the same events. -/
theorem events_injective {other : Course} (h : course.events = other.events) : course = other := by
  have h : course.events ++ .leave .program 0 :: [] = other.events ++ .leave .program 0 :: [] := by
    rw [h]
  exact (eq_of_events_append_leave h).1

end Course

/-! ## The course of following a plan -/

variable {tokens : Array Token} {plan : Plan} {n : Nonterminal} {i j : Nat} {kinds : List Kind}
  {events : List Event} {outcome : Except SyntaxError Unit} {error : SyntaxError}

/-- A token of the kinds asked for is taken. -/
private theorem filter_of_nextIs (h : nextIs tokens i kinds = true) : ∃ kind ∈ kinds,
    kindAt? tokens i = some kind ∧ (kindAt? tokens i).filter kinds.contains = some kind := by
  obtain ⟨kind, member, found⟩ := nextIs_iff.mp h
  exact ⟨kind, member, found, by simp [found, member]⟩

/-- A token of other kinds is not taken. -/
private theorem filter_of_not_nextIs (h : nextIs tokens i kinds = false) :
    (kindAt? tokens i).filter kinds.contains = none := by
  rw [Option.filter_eq_none_iff]
  intro kind found
  rw [nextIs_of_kindAt? found] at h
  rw [h]
  exact Bool.false_ne_true

/-- The tokens that are taken are those from the start of a run to its end. -/
theorem Follows.exists_takings (h : Follows tokens plan i events outcome j) :
    ∃ word, Spells tokens i word j ∧ takings events = word.zipIdx i := by
  induction h with
  | @done i | @reject i | @ended _ i | @taken _ i => exact ⟨[], spells_nil i, rfl⟩
  | @expect kinds i next =>
    obtain ⟨kind, _, found, filtered⟩ := filter_of_nextIs next
    refine ⟨[kind], spells_singleton found, ?_⟩
    rw [takings_take, filtered]
    rfl
  | @mismatch kinds i next =>
    refine ⟨[], spells_nil i, ?_⟩
    rw [takings_take, filter_of_not_nextIs next]
    rfl
  | call _ ih =>
    obtain ⟨word, spelled, takings_eq⟩ := ih
    exact ⟨word, spelled, by simp [takings_eq]⟩
  -- The second part begins at the index where the word of the first one ends.
  | seq _ _ ih ih' | loopAgain _ _ _ ih ih' =>
    obtain ⟨word, spelled, takings_eq⟩ := ih
    obtain ⟨more, spelled', takings_eq'⟩ := ih'
    refine ⟨word ++ more, spelled.append spelled', ?_⟩
    rw [takings_append, takings_eq, takings_eq', List.zipIdx_append, spelled.stop_eq]
  | lookYes _ _ ih | lookNo _ _ ih | takeNo _ _ ih => exact ih
  | @takeYes kinds _ _ i _ _ _ next _ ih =>
    obtain ⟨kind, _, found, filtered⟩ := filter_of_nextIs next
    obtain ⟨word, spelled, takings_eq⟩ := ih
    refine ⟨kind :: word, ⟨found, spelled⟩, ?_⟩
    rw [takings_look, takings_take, filtered, takings_eq]
    rfl
  | seqHalt _ ih | loopLast _ ih | loopHalt _ ih | notEnded _ _ ih | notTaken _ _ ih => exact ih

/-- The course of following a plan.  If no violation is met, then it consists of derivation trees,
    and its tokens and nonterminals are one of the right-hand sides of the form of the plan. -/
theorem Follows.exists_course (h : Follows tokens plan i events outcome j) :
    ∃ course : Course, course.events = events ∧
      (outcome = .ok () → plan.inner = true →
        course.children ∈ plan.form.expansions ∧ course.IsDerivation) := by
  induction h with
  | done => exact ⟨.done, rfl, fun _ _ => ⟨rfl, trivial⟩⟩
  | ended => exact ⟨.done, rfl, fun _ _ => ⟨.inr rfl, trivial⟩⟩
  | reject => exact ⟨.done, rfl, fun accepted => by cases accepted⟩
  | taken => exact ⟨.done, rfl, fun _ inner => by cases inner⟩
  | @expect kinds i next =>
    obtain ⟨kind, member, -, filtered⟩ := filter_of_nextIs next
    refine ⟨.take kinds (kindAt? tokens i) i .done, rfl, fun _ _ => ⟨⟨kind, member, ?_⟩, trivial⟩⟩
    rw [Course.children, filtered]
    rfl
  | @mismatch kinds i =>
    exact ⟨.take kinds (kindAt? tokens i) i .done, rfl, fun accepted => by cases accepted⟩
  | @call n i _ _ _ _ ih =>
    -- The form of the plan is not the production, but it has the same right-hand sides.
    obtain ⟨inside, events_eq, derivation⟩ := ih
    refine ⟨.visit n i inside .done, by rw [Course.events, events_eq]; rfl,
      fun accepted inner => ?_⟩
    have notProgram := Plan.inner_call.mp inner
    obtain ⟨expansion, derivation⟩ := derivation accepted (n.inner_plan notProgram)
    rw [n.expansions_plan notProgram] at expansion
    exact ⟨rfl, expansion, derivation, trivial⟩
  | seq _ _ ih ih' =>
    obtain ⟨course, rfl, derivation⟩ := ih
    obtain ⟨more, rfl, derivation'⟩ := ih'
    refine ⟨course.append more, Course.events_append, fun accepted inner => ?_⟩
    rw [Plan.inner, Bool.and_eq_true] at inner
    obtain ⟨expansion, derivation⟩ := derivation rfl inner.1
    obtain ⟨expansion', derivation'⟩ := derivation' accepted inner.2
    rw [Course.children_append]
    exact ⟨Language.append_mem_mul expansion expansion', derivation.append derivation'⟩
  | seqHalt _ ih | loopHalt _ ih =>
    obtain ⟨course, events_eq, -⟩ := ih
    exact ⟨course, events_eq, fun accepted => by cases accepted⟩
  | @lookYes kinds _ _ i _ _ _ _ _ ih =>
    obtain ⟨course, rfl, derivation⟩ := ih
    refine ⟨.look kinds (kindAt? tokens i) i course, rfl, fun accepted inner => ?_⟩
    rw [Plan.inner, Bool.and_eq_true] at inner
    exact (derivation accepted inner.1).imp_left .inl
  | @lookNo kinds _ _ i _ _ _ _ _ ih | @takeNo kinds _ _ i _ _ _ _ _ ih =>
    obtain ⟨course, rfl, derivation⟩ := ih
    refine ⟨.look kinds (kindAt? tokens i) i course, rfl, fun accepted inner => ?_⟩
    rw [Plan.inner, Bool.and_eq_true] at inner
    exact (derivation accepted inner.2).imp_left .inr
  | @takeYes kinds _ _ i _ _ _ next _ ih =>
    -- The look leaves no trace among the symbols, and the token stands in front of the branch.
    obtain ⟨kind, member, -, filtered⟩ := filter_of_nextIs next
    obtain ⟨course, rfl, derivation⟩ := ih
    refine ⟨.look kinds (kindAt? tokens i) i (.take kinds (kindAt? tokens i) i course), rfl,
      fun accepted inner => ?_⟩
    rw [Plan.inner, Bool.and_eq_true] at inner
    obtain ⟨expansion, derivation⟩ := derivation accepted inner.1
    have token : [.terminal kind] ∈ (Form.token kinds).expansions := ⟨kind, member, rfl⟩
    refine ⟨.inl ?_, derivation⟩
    rw [Course.children, Course.children, filtered]
    exact Language.append_mem_mul token expansion
  | loopLast _ ih =>
    -- The last round takes nothing, but it is a round by the form of the plan.
    obtain ⟨course, events_eq, derivation⟩ := ih
    refine ⟨course, events_eq, fun accepted inner => ?_⟩
    obtain ⟨expansion, derivation⟩ := derivation accepted inner
    refine ⟨?_, derivation⟩
    rw [← List.append_nil course.children]
    exact Form.append_mem_expansions_many expansion (Language.nil_mem_kstar _)
  | loopAgain _ _ _ ih ih' =>
    obtain ⟨course, rfl, derivation⟩ := ih
    obtain ⟨more, rfl, derivation'⟩ := ih'
    refine ⟨course.append more, Course.events_append, fun accepted inner => ?_⟩
    obtain ⟨expansion, derivation⟩ := derivation rfl inner
    obtain ⟨expansion', derivation'⟩ := derivation' accepted inner
    rw [Course.children_append]
    exact ⟨Form.append_mem_expansions_many expansion expansion', derivation.append derivation'⟩
  | notEnded _ _ ih =>
    obtain ⟨course, events_eq, derivation⟩ := ih
    exact ⟨course, events_eq, fun accepted inner => (derivation accepted inner).imp_left .inl⟩
  | notTaken _ _ ih =>
    obtain ⟨course, events_eq, -⟩ := ih
    exact ⟨course, events_eq, fun _ inner => by cases inner⟩

/-- The course of a run on a program, which is a tree with the program at its root.  If no violation
    is met, then it is a derivation tree, save that the program does without the marker if a `print`
    has taken it. -/
theorem Follows.exists_program_course
    (h : Follows tokens (.call .program) 0 events outcome j) :
    ∃ inside : Course, events = (Course.visit .program 0 inside .done).events ∧
      (outcome = .ok () → inside.IsDerivation ∧
        (inside.children ∈ Nonterminal.program.production.expansions ∨
          (inside.children ∈ (Form.many (.category .declaration)).expansions ∧
            inside.TakesIn .printStmt .endOfInput))) := by
  cases outcome with
  | error =>
    cases h with
    | call h =>
      obtain ⟨inside, rfl, -⟩ := h.exists_course
      exact ⟨inside, rfl, fun accepted => by cases accepted⟩
  | ok =>
    cases h with
    | call h =>
      cases h with
      | @seq _ _ _ k _ _ _ _ hloop hend =>
        obtain ⟨inside, rfl, derivation⟩ := hloop.exists_course
        obtain ⟨expansion, derivation⟩ := derivation rfl rfl
        rw [Plan.form, Plan.form, Form.expansions_many_optional, Plan.form] at expansion
        cases hend with
        | taken last =>
          -- The marker was taken last, and it is none of the declarations.
          have declarations : ∀ symbol ∈ inside.children, symbol = .nonterminal .declaration := by
            intro symbol member
            simpa [Form.symbols] using Form.mem_symbols_of_mem_expansions expansion member
          have member : .endOfInput ∈ inside.word := by
            rw [endTaken, Bool.and_eq_true, decide_eq_true_eq, beq_iff_eq] at last
            obtain ⟨word, spelled, takings_eq⟩ := hloop.exists_takings
            rw [Course.word, takings_eq, List.zipIdx_map_fst]
            exact List.mem_of_getLast? ((spelled.getLast?_eq last.1).trans last.2)
          have marked := derivation.takesIn_printStmt
            (fun isProgram => by cases declarations _ isProgram)
            (fun isChild => by cases declarations _ isChild) member
          exact ⟨inside, by simp [Course.events], fun _ => ⟨derivation, .inr ⟨expansion, marked⟩⟩⟩
        | notTaken _ hend =>
          obtain ⟨marker, rfl, derivation'⟩ := hend.exists_course
          obtain ⟨expansion', derivation'⟩ := derivation' rfl rfl
          refine ⟨inside.append marker, by simp [Course.events], fun _ => ?_⟩
          refine ⟨derivation.append derivation', .inl ?_⟩
          rw [Course.children_append]
          exact Language.append_mem_mul expansion expansion'

/-! ## The course up to a violation -/

/-- The index at which an event looks at a token or is to take it. -/
def Event.test? : Event → Option Nat
  | look _ _ index => some index
  | take _ _ index => some index
  | enter .. | leave .. => none

/-- The last token that is looked at, or is to be taken, is the one at an index, and behind that
    nonterminals are left only. -/
def HaltsAt (events : List Event) (index : Nat) : Prop :=
  ∃ before last after, events = before ++ last :: after ∧ last.test? = some index ∧
    ∀ event ∈ after, ∃ n start, event = .leave n start

/-- What happened before a halt does not matter to it. -/
theorem HaltsAt.append_left (h : HaltsAt events j) (before : List Event) :
    HaltsAt (before ++ events) j := by
  obtain ⟨front, last, after, rfl, isTest, leaves⟩ := h
  exact ⟨before ++ front, last, after, by rw [List.append_assoc], isTest, leaves⟩

/-- To leave one more nonterminal is still all that is left to do. -/
theorem HaltsAt.leave (h : HaltsAt events j) (n : Nonterminal) (start : Nat) :
    HaltsAt (events ++ [.leave n start]) j := by
  obtain ⟨front, last, after, rfl, isTest, leaves⟩ := h
  refine ⟨front, last, after ++ [.leave n start], by simp, isTest, ?_⟩
  rw [List.forall_mem_append]
  exact ⟨leaves, by simp⟩

/-- A look at a token is a halt if nothing comes behind it. -/
private theorem haltsAt_singleton {event : Event} (isTest : event.test? = some j) :
    HaltsAt [event] j :=
  ⟨[], event, [], rfl, isTest, by simp⟩

/-- A look at a token can be the last one, if no token is taken behind it. -/
private theorem haltsAt_cons {event : Event} (isTest : event.test? = some i)
    (h : HaltsAt events j ∨ (plan = .reject ∧ events = [] ∧ j = i)) :
    HaltsAt (event :: events) j := by
  rcases h with halts | ⟨-, rfl, rfl⟩
  · exact halts.append_left [event]
  · exact haltsAt_singleton isTest

/-- A plan that takes something before it can reject is not the plan `reject`. -/
private theorem ne_reject_of_rejects (h : plan.rejects = false) : plan ≠ .reject := by
  rintro rfl
  cases h

/-- A violation is met at the token that was looked at last, or that was to be taken. -/
theorem Follows.haltsAt (h : Follows tokens plan i events (.error error) j)
    (inner : plan.inner = true) (completable : plan.completable = true) :
    HaltsAt events j ∨ (plan = .reject ∧ events = [] ∧ j = i) := by
  generalize failed : Except.error error = outcome at h
  induction h with
  | done | expect | loopLast | ended | taken => cases failed
  | reject => exact .inr ⟨rfl, rfl, rfl⟩
  | mismatch => exact .inl (haltsAt_singleton rfl)
  | @call n i _ _ _ _ ih =>
    have notProgram := Plan.inner_call.mp inner
    have notReject : n.plan ≠ .reject := by cases n <;> decide
    have completable := n.completable_plan notProgram
    have halts := (ih (n.inner_plan notProgram) completable failed).resolve_right
      fun rejected => notReject rejected.1
    exact .inl ((halts.append_left [.enter n i]).leave n i)
  | seq _ _ _ ih =>
    simp only [Plan.inner, Bool.and_eq_true] at inner
    simp only [Plan.completable, Bool.and_eq_true, Bool.not_eq_true'] at completable
    obtain ⟨⟨⟨⟨-, completable⟩, -⟩, notRejects⟩, -⟩ := completable
    have halts := (ih inner.2 completable failed).resolve_right
      fun rejected => ne_reject_of_rejects notRejects rejected.1
    exact .inl (halts.append_left _)
  | seqHalt _ ih =>
    simp only [Plan.inner, Bool.and_eq_true] at inner
    simp only [Plan.completable, Bool.and_eq_true, Bool.not_eq_true'] at completable
    obtain ⟨⟨⟨⟨completable, -⟩, notRejects⟩, -⟩, -⟩ := completable
    exact .inl ((ih inner.1 completable failed).resolve_right
      fun rejected => ne_reject_of_rejects notRejects rejected.1)
  | lookYes _ _ ih =>
    simp only [Plan.inner, Bool.and_eq_true] at inner
    simp only [Plan.completable, Bool.and_eq_true] at completable
    exact .inl (haltsAt_cons rfl (ih inner.1 completable.1.1.1 failed))
  | lookNo _ _ ih =>
    simp only [Plan.inner, Bool.and_eq_true] at inner
    simp only [Plan.completable, Bool.and_eq_true] at completable
    exact .inl (haltsAt_cons rfl (ih inner.2 completable.1.1.2 failed))
  | takeNo _ _ ih =>
    simp only [Plan.inner, Bool.and_eq_true] at inner
    simp only [Plan.completable, Bool.and_eq_true] at completable
    exact .inl (haltsAt_cons rfl (ih inner.2 completable.1.2 failed))
  | takeYes _ _ ih =>
    simp only [Plan.inner, Bool.and_eq_true] at inner
    simp only [Plan.completable, Bool.and_eq_true, Bool.not_eq_true'] at completable
    -- A token was taken, so there is something to look at behind it.
    have halts := (ih inner.1 completable.1.1 failed).resolve_right
      fun rejected => ne_reject_of_rejects completable.2 rejected.1
    exact .inl (halts.append_left [_, _])
  | loopHalt _ ih | notEnded _ _ ih =>
    simp only [Plan.completable, Bool.and_eq_true, Bool.not_eq_true'] at completable
    exact .inl ((ih inner completable.1 failed).resolve_right
      fun rejected => ne_reject_of_rejects completable.2 rejected.1)
  | loopAgain _ _ _ _ ih =>
    have halts := (ih inner completable failed).resolve_right fun rejected => by cases rejected.1
    exact .inl (halts.append_left _)
  | notTaken => cases inner

end LoxSyntax.Recognizer
