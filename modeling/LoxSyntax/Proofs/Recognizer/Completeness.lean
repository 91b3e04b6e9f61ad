import LoxSyntax.Proofs.Recognizer.Predictive

/-! # What is in the grammar is taken

If a word has a nested derivation from the form of a plan, and tokens spell the word, then following
the plan takes just these tokens, so long as the token behind them is one that the plan stops
before, and not an `else` if the word is open (`takes`).

The derivation is followed from the outside in, and what each part needs to know of the token behind
it is what the next part begins with. -/

namespace LoxSyntax

/-- The first round of a repetition that takes anything. -/
private theorem Nests.exists_round {item : Form} {isOpen : Bool} {word : List Kind}
    (h : Nests (.many item) isOpen word) (nonempty : word ≠ []) :
    ∃ first rest itemOpen, word = first ++ rest ∧ first ≠ [] ∧ Nests item itemOpen first ∧
      Nests (.many item) false rest := by
  generalize same : Form.many item = form at h
  induction h with
  | manyNil => exact absurd rfl nonempty
  | @manyCons _ _ _ start rest once more _ ih =>
    cases same
    -- Rounds that take nothing are passed over.
    cases start with
    | nil => exact ih nonempty rfl
    | cons kind start =>
      obtain rfl := more.eq_false rfl
      exact ⟨_, rest, _, rfl, List.cons_ne_nil _ _, once, more⟩
  | empty | token | category | ifAlone | ifElse | seq | left | right => cases same

namespace Recognizer

variable {tokens : Array Token} {i j : Nat} {kind : Kind} {kinds word : List Kind} {form : Form}
  {isOpen : Bool}

/-- The token at which a nonempty word begins. -/
theorem exists_start (spelled : Spells tokens i word j) (nonempty : word ≠ [])
    (h : Nests form isOpen word) : ∃ kind ∈ form.starts, kindAt? tokens i = some kind := by
  cases word with
  | nil => exact absurd rfl nonempty
  | cons kind word => exact ⟨kind, mem_starts_of_derives h.derives, spelled.1⟩

/-! ## Plans that meet what they ask for -/

/-- A plan that asks for a token takes one that is there. -/
theorem follows_expect (spelled : Spells tokens i [kind] j) (member : kind ∈ kinds) :
    ∃ events, Follows tokens (.expect kinds) i events (.ok ()) j := by
  obtain ⟨next, rfl⟩ := spelled
  exact ⟨_, .expect (nextIs_iff.mpr ⟨kind, member, next⟩)⟩

/-- An `if` statement is recognized if its parts are, and an `else` after the body is the last of
    them. -/
private theorem follows_ifStmt {conditionEnd bodyEnd : Nat} {events events' : List Event}
    (opened : Spells tokens i [.kwIf, .leftParen] (i + 2))
    (hcondition : Follows tokens (.call .expression) (i + 2) events (.ok ()) conditionEnd)
    (closed : Spells tokens conditionEnd [.rightParen] (conditionEnd + 1))
    (hbody : Follows tokens (.call .statement) (conditionEnd + 1) events' (.ok ()) bodyEnd)
    (rest : (kindAt? tokens bodyEnd ≠ some .kwElse ∧ j = bodyEnd) ∨
      ∃ events, Spells tokens bodyEnd [.kwElse] (bodyEnd + 1) ∧
        Follows tokens (.call .statement) (bodyEnd + 1) events (.ok ()) j) :
    ∃ events, Follows tokens (.call .ifStmt) i events (.ok ()) j := by
  obtain ⟨_, hif⟩ := follows_expect (spells_singleton opened.1)
    (List.mem_singleton_self Kind.kwIf)
  obtain ⟨_, hopen⟩ := follows_expect opened.2 (List.mem_singleton_self Kind.leftParen)
  obtain ⟨_, hclose⟩ := follows_expect closed (List.mem_singleton_self Kind.rightParen)
  -- With no `else` behind the body the optional part is passed over, and with one it is taken.
  have helse : ∃ events, Follows tokens (.ifTake [.kwElse] (.call .statement) .done) bodyEnd events
      (.ok ()) j := by
    rcases rest with ⟨notElse, rfl⟩ | ⟨_, isElse, hother⟩
    · refine ⟨_, .takeNo ?_ .done⟩
      rw [← Bool.not_eq_true, nextIs_iff]
      intro h
      obtain ⟨_, member, next⟩ := h
      rw [List.mem_singleton.mp member] at next
      exact notElse next
    · exact ⟨_, .takeYes (nextIs_iff.mpr ⟨_, List.mem_singleton_self _, isElse.1⟩) hother⟩
  obtain ⟨_, helse⟩ := helse
  exact ⟨_, .call (.seq hif (.seq hopen (.seq hcondition (.seq hclose (.seq hbody helse)))))⟩

/-- The parts of an `if` statement in the tokens. -/
private theorem spells_if {condition rest : List Kind}
    (spelled : Spells tokens i ([.kwIf, .leftParen] ++ (condition ++ ([.rightParen] ++ rest))) j) :
    ∃ conditionEnd, Spells tokens i [.kwIf, .leftParen] (i + 2) ∧
      Spells tokens (i + 2) condition conditionEnd ∧
      Spells tokens conditionEnd [.rightParen] (conditionEnd + 1) ∧
      Spells tokens (conditionEnd + 1) rest j := by
  obtain ⟨i₂, opened, spelled⟩ := spells_append.mp spelled
  obtain ⟨conditionEnd, spelledCondition, spelled⟩ := spells_append.mp spelled
  obtain ⟨i₄, closed, spelledRest⟩ := spells_append.mp spelled
  -- The lengths of the words settle where the parts that are single tokens end.
  obtain rfl : i₂ = i + 2 := opened.stop_eq
  obtain rfl : i₄ = conditionEnd + 1 := closed.stop_eq
  exact ⟨conditionEnd, opened, spelledCondition, closed, spelledRest⟩

/-- Nothing but an `else` goes on with a statement. -/
private theorem stops_statement (next : Option Kind) :
    (Plan.call .statement).stops next = true := by
  cases next <;> rfl

/-! ## One plan in terms of its parts -/

/-- A word is taken by following a plan from wherever it is spelled, where the token behind it lets
    the plan stop. -/
def Takes (tokens : Array Token) (plan : Plan) (word : List Kind) : Prop :=
  ∀ isOpen i j, Nests plan.form isOpen word → Spells tokens i word j →
    plan.stops (kindAt? tokens j) = true → (isOpen = true → kindAt? tokens j ≠ some .kwElse) →
    ∃ events, Follows tokens plan i events (.ok ()) j

variable {plan first second yes no round : Plan}

/-- A plan that has the empty word is not guarded. -/
private theorem not_guarded_of_nests (h : Nests plan.form isOpen []) : ¬plan.guarded = true := by
  intro guarded
  cases (Plan.nullable_form guarded).symm.trans (nullable_of_derives h.derives)

/-- An `if` statement takes its words if its condition and its bodies take theirs.  It is treated
    apart, as the `else` behind it is decided by how the word nests and not by the next token
    alone. -/
private theorem takes_ifStmt
    (takesCondition : ∀ part : List Kind, part ≠ [] → part.length < word.length →
      Takes tokens (.call .expression) part)
    (takesBody : ∀ part : List Kind, part ≠ [] → part.length < word.length →
      Takes tokens (.call .statement) part) :
    Takes tokens (.call .ifStmt) word := by
  intro isOpen i j nested spelled stops notElse
  have nested : Nests (.category .ifStmt) isOpen word := nested
  cases nested with
  | category notIf => exact absurd rfl notIf
  | @ifAlone condition body _ _ hcondition hbody =>
    obtain ⟨conditionEnd, opened, spelledCondition, closed, spelledBody⟩ := spells_if spelled
    -- The condition stops before the parenthesis that closes it, and no `else` stands there.
    obtain ⟨_, followed⟩ := takesCondition condition
      (ne_nil_of_derives_category hcondition.derives) (by simp; omega) _ _ _ hcondition
      spelledCondition (by rw [closed.1]; rfl) (by rw [closed.1]; exact fun _ => by decide)
    obtain ⟨_, followed'⟩ := takesBody body (ne_nil_of_derives_category hbody.derives)
      (by simp; omega) _ _ _ hbody spelledBody
      (stops_statement _) (fun _ => notElse rfl)
    exact follows_ifStmt opened followed closed followed' (.inl ⟨notElse rfl, rfl⟩)
  | @ifElse condition body other _ _ hcondition hbody hother =>
    obtain ⟨conditionEnd, opened, spelledCondition, closed, spelled⟩ := spells_if spelled
    obtain ⟨bodyEnd, spelledBody, spelled⟩ := spells_append.mp spelled
    obtain ⟨elseEnd, isElse, spelledOther⟩ := spells_append.mp spelled
    obtain rfl : elseEnd = bodyEnd + 1 := isElse.stop_eq
    obtain ⟨_, followed⟩ := takesCondition condition
      (ne_nil_of_derives_category hcondition.derives) (by simp; omega) _ _ _ hcondition
      spelledCondition (by rw [closed.1]; rfl) (by rw [closed.1]; exact fun _ => by decide)
    -- The body is not open, so it ends before the `else`.
    obtain ⟨_, followed'⟩ := takesBody body (ne_nil_of_derives_category hbody.derives)
      (by simp; omega) _ _ _ hbody spelledBody
      (stops_statement _) (fun opened => absurd opened Bool.false_ne_true)
    obtain ⟨_, followed''⟩ := takesBody other
      (ne_nil_of_derives_category hother.derives) (by simp; omega) _ _ _ hother spelledOther
      (stops_statement _) notElse
    exact follows_ifStmt opened followed closed followed' (.inr ⟨_, isElse, followed''⟩)

/-- A sequence takes its words if its parts take theirs.  The second part may be given a word as
    long as the whole only if the first part can be passed over. -/
private theorem takes_seq (predictive : (Plan.seq first second).predictive = true)
    (nonempty : word ≠ [])
    (takesFirst : ∀ part : List Kind, part ≠ [] → part.length ≤ word.length →
      Takes tokens first part)
    (takesSecond : ∀ part : List Kind, part ≠ [] →
      (part.length < word.length ∨ (first.guarded = false ∧ part.length ≤ word.length)) →
      Takes tokens second part) :
    Takes tokens (.seq first second) word := by
  intro isOpen i j whole spells stops notElse
  obtain ⟨word, more, rfl, ⟨firstOpen, nested⟩, nested'⟩ := nests_seq_iff.mp whole
  obtain ⟨k, spelled, spelled'⟩ := spells_append.mp spells
  simp only [Plan.predictive, Bool.and_eq_true, Bool.not_eq_true', List.all_eq_true,
    Bool.or_eq_true] at predictive
  obtain ⟨⟨-, closed⟩, meets⟩ := predictive
  rw [Plan.stops, Bool.and_eq_true, Bool.or_eq_true, Bool.and_eq_true] at stops
  obtain rfl : firstOpen = false := nested.eq_false closed
  by_cases moreEmpty : more = []
  · -- The second part takes nothing, so the first one has to stop before the token behind both.
    subst moreEmpty
    obtain rfl : k = j := spelled'
    obtain ⟨stops, skips⟩ := stops.2.resolve_left (not_guarded_of_nests nested')
    obtain ⟨_, followed⟩ := takesFirst word (by simpa using nonempty) (by simp) _ _ _ nested
      spelled stops (fun opened => absurd opened Bool.false_ne_true)
    obtain ⟨_, followed'⟩ := follows_of_skips skips
    exact ⟨_, .seq followed followed'⟩
  · -- The first part ends before a token that the second part begins with.
    obtain ⟨kind, isStart, next⟩ := exists_start spelled' moreEmpty nested'
    obtain ⟨meetsStops, meetsSkips⟩ := meets kind isStart
    rw [← next] at meetsStops meetsSkips
    by_cases wordEmpty : word = []
    · -- The first part is skipped and the second one has all of the word.
      subst wordEmpty
      obtain rfl : i = k := spelled
      have notGuarded := not_guarded_of_nests nested
      obtain ⟨_, followed⟩ := follows_of_skips (meetsSkips.resolve_left notGuarded)
      obtain ⟨_, followed'⟩ := takesSecond more moreEmpty
        (.inr ⟨Bool.eq_false_iff.mpr notGuarded, by simp⟩) _ _ _ nested' spelled' stops.1 notElse
      exact ⟨_, .seq followed followed'⟩
    · -- Both parts take something, so each has a shorter word or the same one with a lighter plan.
      have := List.length_pos_iff.mpr wordEmpty
      obtain ⟨_, followed⟩ := takesFirst word wordEmpty (by simp) _ _ _ nested spelled meetsStops
        (fun opened => absurd opened Bool.false_ne_true)
      obtain ⟨_, followed'⟩ := takesSecond more moreEmpty (.inl (by simp; omega)) _ _ _ nested'
        spelled' stops.1 notElse
      exact ⟨_, .seq followed followed'⟩

/-- A look at the next token takes the words of both branches, as no token begins both. -/
private theorem takes_ifNext (predictive : (Plan.ifNext kinds yes no).predictive = true)
    (nonempty : word ≠ []) (takesYes : Takes tokens yes word) (takesNo : Takes tokens no word) :
    Takes tokens (.ifNext kinds yes no) word := by
  intro isOpen i j whole spelled stops notElse
  simp only [Plan.predictive, Bool.and_eq_true, List.all_eq_true, Bool.not_eq_true']
    at predictive
  obtain ⟨⟨-, inKinds⟩, notInKinds⟩ := predictive
  rw [Plan.stops, Bool.and_eq_true] at stops
  -- The first token of the word shows which branch has the word.
  rcases nests_choice_iff.mp whole with nested | nested
  · obtain ⟨kind, isStart, next⟩ := exists_start spelled nonempty nested
    have taken := (nextIs_of_kindAt? next kinds).trans (inKinds kind isStart)
    obtain ⟨_, followed⟩ := takesYes _ _ _ nested spelled stops.1 notElse
    exact ⟨_, .lookYes taken followed⟩
  · obtain ⟨kind, isStart, next⟩ := exists_start spelled nonempty nested
    have notTaken := (nextIs_of_kindAt? next kinds).trans (notInKinds kind isStart)
    obtain ⟨_, followed⟩ := takesNo _ _ _ nested spelled stops.2 notElse
    exact ⟨_, .lookNo notTaken followed⟩

/-- A branch that begins with its token takes the words behind it, and the other one takes the words
    that do not begin so. -/
private theorem takes_ifTake (predictive : (Plan.ifTake kinds yes no).predictive = true)
    (nonempty : word ≠ [])
    (takesYes : ∀ part : List Kind, part ≠ [] → part.length < word.length → Takes tokens yes part)
    (takesNo : Takes tokens no word) :
    Takes tokens (.ifTake kinds yes no) word := by
  intro isOpen i j whole spelled stops notElse
  simp only [Plan.predictive, Bool.and_eq_true, List.all_eq_true, Bool.not_eq_true']
    at predictive
  obtain ⟨-, notInKinds⟩ := predictive
  rw [Plan.stops, Bool.and_eq_true, Bool.and_eq_true, Bool.or_eq_true] at stops
  obtain ⟨⟨stops, skips⟩, stops'⟩ := stops
  -- The word is of the branch with the token or of the other one.
  rcases nests_choice_iff.mp whole with nested | nested
  · obtain ⟨_, more, rfl, ⟨_, token⟩, nested'⟩ := nests_seq_iff.mp nested
    obtain ⟨-, kind, member, rfl⟩ := nests_token_iff.mp token
    obtain ⟨next, spelled⟩ := spelled
    have taken := nextIs_iff.mpr ⟨kind, member, next⟩
    by_cases moreEmpty : more = []
    · -- The token is all there is, and the rest of the branch is skipped.
      subst moreEmpty
      obtain rfl : i + 1 = j := spelled
      obtain ⟨_, followed⟩ := follows_of_skips (skips.resolve_left (not_guarded_of_nests nested'))
      exact ⟨_, .takeYes taken followed⟩
    · obtain ⟨_, followed⟩ := takesYes more moreEmpty (by simp) _ _ _ nested' spelled stops notElse
      exact ⟨_, .takeYes taken followed⟩
  · obtain ⟨kind, isStart, next⟩ := exists_start spelled nonempty nested
    have notTaken := (nextIs_of_kindAt? next kinds).trans (notInKinds kind isStart)
    obtain ⟨_, followed⟩ := takesNo _ _ _ nested spelled stops' notElse
    exact ⟨_, .takeNo notTaken followed⟩

/-- A loop takes its words if its rounds take theirs and the loop takes what is left after the
    first. -/
private theorem takes_loop (predictive : (Plan.loop round).predictive = true) (nonempty : word ≠ [])
    (takesRound : ∀ part : List Kind, part ≠ [] → part.length ≤ word.length →
      Takes tokens round part)
    (takesLoop : ∀ part : List Kind, part ≠ [] → part.length < word.length →
      Takes tokens (.loop round) part) :
    Takes tokens (.loop round) word := by
  intro isOpen i j whole spells stops notElse
  simp only [Plan.predictive, Bool.and_eq_true, List.all_eq_true] at predictive
  obtain ⟨-, meets⟩ := predictive
  obtain ⟨word, more, itemOpen, rfl, wordNonempty, nested, nested'⟩ :=
    Nests.exists_round whole nonempty
  obtain ⟨k, spelled, spelled'⟩ := spells_append.mp spells
  have := List.length_pos_iff.mpr wordNonempty
  have moved := spelled.lt wordNonempty
  -- What the round needs to know of the token behind it.
  have meetsNext : (round.stops (kindAt? tokens k) = true ∧
      (round.form.opens && kindAt? tokens k == some .kwElse) = false) →
      ∃ events, Follows tokens round i events (.ok ()) k := by
    intro h
    refine takesRound word wordNonempty (by simp) _ _ _ nested spelled h.1 ?_
    intro opened isElse
    rw [opens_of_nests nested opened, isElse] at h
    cases h.2
  by_cases moreEmpty : more = []
  · -- This was the last round with a token, and another one that takes nothing ends the loop.
    subst moreEmpty
    obtain rfl : k = j := spelled'
    rw [Plan.stops, Bool.and_eq_true, Bool.and_eq_true, Bool.not_eq_true'] at stops
    obtain ⟨_, followed⟩ := meetsNext ⟨stops.1.2, stops.2⟩
    obtain ⟨_, followed'⟩ := follows_of_skips stops.1.1
    exact ⟨_, .loopAgain followed moved (.loopLast followed')⟩
  · -- More rounds follow, and the token at which they begin is one that this round stops before.
    obtain ⟨kind, isStart, next⟩ := exists_start spelled' moreEmpty nested'
    have meets := meets kind isStart
    rw [Bool.not_eq_true'] at meets
    obtain ⟨_, followed⟩ := meetsNext (by rw [next]; exact meets)
    obtain ⟨_, followed'⟩ := takesLoop more moreEmpty (by simp; omega) _ _ _ nested' spelled' stops
      (fun opened => absurd opened Bool.false_ne_true)
    exact ⟨_, .loopAgain followed moved followed'⟩

/-- Where the end is not reached, a plan takes the same words as without the question. -/
private theorem takes_unlessAtEnd (predictive : (Plan.unlessAtEnd plan).predictive = true)
    (nonempty : word ≠ []) (takes : Takes tokens plan word) :
    Takes tokens (.unlessAtEnd plan) word := by
  intro isOpen i j whole spelled stops notElse
  simp only [Plan.predictive, Bool.and_eq_true, List.all_eq_true] at predictive
  rcases nests_choice_iff.mp whole with nested | nested
  · obtain ⟨kind, isStart, next⟩ := exists_start spelled nonempty nested
    -- A word begins with a token other than the marker, so the end is not reached.
    have notEnd : atEnd tokens i = false := by
      rw [atEnd_of_kindAt? next]
      simpa using predictive.2 kind isStart
    obtain ⟨_, followed⟩ := takes _ _ _ nested spelled stops notElse
    exact ⟨_, .notEnded notEnd followed⟩
  · exact absurd (nests_empty_iff.mp nested).2 nonempty

/-! ## The word is taken -/

/-- A nonempty word of the form of a plan is taken by following the plan. -/
theorem takes (plan : Plan) (predictive : plan.predictive = true) (word : List Kind)
    (nonempty : word ≠ []) : Takes tokens plan word := by
  have positive := List.length_pos_iff.mpr nonempty
  have parts := predictive
  -- Recursion along the length of the word, and for words of one length along the weight of the
  -- plan: a call has a lighter plan, and so has each part of a plan.
  match plan with
  | .done =>
    intro isOpen i j nested
    exact absurd (nests_empty_iff.mp nested).2 nonempty
  | .reject =>
    intro isOpen i j nested
    obtain ⟨-, _, member, -⟩ := nests_token_iff.mp nested
    cases member
  | .expect kinds =>
    intro isOpen i j nested spelled
    obtain ⟨-, kind, member, rfl⟩ := nests_token_iff.mp nested
    exact fun _ _ => follows_expect spelled member
  | .call n =>
    have lighter := n.weight_plan
    have notProgram : n ≠ .program := by simpa [Plan.predictive] using predictive
    by_cases isIf : n = .ifStmt
    · subst isIf
      exact takes_ifStmt (fun part nonempty shorter => takes (.call .expression) rfl part nonempty)
        (fun part nonempty shorter => takes (.call .statement) rfl part nonempty)
    · intro isOpen i j nested spelled stops notElse
      obtain ⟨_, followed⟩ := takes n.plan (n.predictive_plan notProgram isIf) word nonempty _ _ _
        ((nests_category_iff_plan notProgram isIf).mp nested) spelled
        (n.stops_plan notProgram isIf stops) notElse
      exact ⟨_, .call followed⟩
  | .seq first second =>
    simp only [Plan.predictive, Bool.and_eq_true] at parts
    exact takes_seq predictive nonempty
      (fun part nonempty shorter => takes first parts.1.1.1 part nonempty)
      (fun part nonempty shorter => takes second parts.1.1.2 part nonempty)
  | .ifNext kinds yes no =>
    simp only [Plan.predictive, Bool.and_eq_true] at parts
    exact takes_ifNext predictive nonempty (takes yes parts.1.1.1 word nonempty)
      (takes no parts.1.1.2 word nonempty)
  | .ifTake kinds yes no =>
    simp only [Plan.predictive, Bool.and_eq_true] at parts
    exact takes_ifTake predictive nonempty
      (fun part nonempty shorter => takes yes parts.1.1 part nonempty)
      (takes no parts.1.2 word nonempty)
  | .loop round =>
    simp only [Plan.predictive, Bool.and_eq_true] at parts
    exact takes_loop predictive nonempty
      (fun part nonempty shorter => takes round parts.1 part nonempty)
      (fun part nonempty shorter => takes (.loop round) predictive part nonempty)
  | .unlessAtEnd plan =>
    simp only [Plan.predictive, Bool.and_eq_true] at parts
    exact takes_unlessAtEnd predictive nonempty (takes plan parts.1 word nonempty)
-- Each part has a shorter word, or a lighter plan.
termination_by (word.length, plan.weight)
decreasing_by
  all_goals simp only [Plan.weight, Prod.lex_def]
  all_goals grind

end Recognizer

end LoxSyntax
