import Mathlib.Data.List.TakeWhile
import LoxSyntax.Proofs.Check.Accepted
import LoxSyntax.Proofs.Recognizer.Visits
import LoxSyntax.Proofs.Trace.Events

/-! # The nonterminals in a trace

In the trace of a check, no two lines report that the same nonterminal is entered at the same index
(`enterLines_nodup`): the recognizer never goes back to try again.  So the number of nonterminals
that are entered is bounded by the number of tokens. -/

namespace LoxSyntax

/-! ## Names -/

namespace Nonterminal

/-- No two nonterminals share a name. -/
private theorem name_injective {n m : Nonterminal} (h : n.name = m.name) : n = m := by
  have checked : ∀ n ∈ all, ∀ m ∈ all, n.name = m.name → n = m := by decide +kernel
  exact checked n n.mem_all m m.mem_all h

/-- No name holds a space, so it can be told from what stands behind it. -/
private theorem space_not_mem_name (n : Nonterminal) : ' ' ∉ n.name.toList := by
  have checked : ∀ n ∈ all, ' ' ∉ n.name.toList := by decide +kernel
  exact checked n n.mem_all

end Nonterminal

namespace Trace

open Recognizer

variable {n m : Nonterminal} {i j : Nat}

/-- Apart from whole programs, a visit is shown by its name and its index. -/
private theorem renderVisit_of_ne (inner : n ≠ .program) :
    renderVisit n i = n.name ++ (" pos=" ++ i.repr) := by
  cases n <;> first | contradiction | rfl

/-- The index stands behind the name and a space. -/
private theorem toList_renderVisit (inner : n ≠ .program) : (renderVisit n i).toList =
    n.name.toList ++ ' ' :: ("pos=".toList ++ i.repr.toList) := by
  rw [renderVisit_of_ne inner]
  simp

/-- What stands in front of the first space. -/
private theorem takeWhile_renderVisit (n : Nonterminal) (i : Nat) :
    (renderVisit n i).toList.takeWhile (· != ' ') = n.name.toList := by
  have noSpace : ∀ c ∈ n.name.toList, (c != ' ') = true := by
    intro c member
    rw [bne_iff_ne]
    rintro rfl
    exact n.space_not_mem_name member
  by_cases isProgram : n = .program
  · subst isProgram
    -- A whole program is shown by its name alone.
    exact List.takeWhile_eq_self_iff.mpr noSpace
  · rw [toList_renderVisit isProgram, List.takeWhile_append_of_pos noSpace,
      List.takeWhile_cons_of_neg (by simp), List.append_nil]

/-- Visits are told apart by how they are reported, but for the index of a whole program. -/
private theorem eq_of_renderVisit_eq (h : renderVisit n i = renderVisit m j) :
    n = m ∧ (n ≠ .program → i = j) := by
  have same : n = m := by
    apply Nonterminal.name_injective
    rw [← String.toList_inj, ← takeWhile_renderVisit n i, h, takeWhile_renderVisit]
  refine ⟨same, fun inner => ?_⟩
  subst same
  rw [renderVisit_of_ne inner, renderVisit_of_ne inner, String.append_right_inj,
    String.append_right_inj] at h
  -- The index can be read back from its digits.
  have read (k : Nat) : Nat.ofDigitChars 10 k.repr.toList 0 = k := by
    rw [Nat.toList_repr, Nat.ofDigitChars_toDigits (by omega) (by omega)]
  rw [← read i, h, read]

/-! ## Entries -/

/-- Whether an entry reports that a nonterminal is entered. -/
def Entry.isEnter : Entry → Bool
  | .recognition (.enter ..) => true
  | _ => false

/-- The lines of a trace that report that a nonterminal is entered. -/
def enterLines (entries : List Entry) : List String :=
  (entries.filter Entry.isEnter).map Entry.render

/-- The lines that report an entry show the visits, in order. -/
private theorem enterLines_eq (entries : List Entry) : enterLines entries =
    (visits (events entries)).map fun visit => "> " ++ renderVisit visit.1 visit.2 := by
  induction entries with
  | nil => rfl
  | cons entry entries ih =>
    cases entry with
    | scanned | split | notSplit => exact ih
    | recognition event =>
      cases event with
      -- Only the event of entering makes a line of this sort.
      | leave | look | take => exact ih
      | enter n index => exact congrArg (_ :: ·) ih

/-- No two lines of the trace of a check report the same nonterminal as entered at the same index.
    If the text splits into tokens, then a whole program is entered once, at the start, and each
    other nonterminal is entered at some token; so there are no more than one such line, and one for
    each token and each of the other nonterminals. -/
theorem enterLines_nodup (source : String) :
    (enterLines (ofCheck source)).Nodup ∧
    ∀ tokens, tokenize source = .ok tokens →
      (∃ parts, visits (events (ofCheck source)) = (.program, 0) :: parts ∧
        ∀ visit ∈ parts, visit.1 ≠ .program) ∧
      (visits (events (ofCheck source))).Nodup ∧
      (∀ visit ∈ visits (events (ofCheck source)), visit.2 < tokens.length) ∧
      (enterLines (ofCheck source)).length ≤ 1 + 25 * tokens.length := by
  rw [enterLines_eq, List.length_map]
  cases split : tokenize source with
  | error =>
    rw [events_ofCheck_of_error split]
    exact ⟨List.nodup_nil, fun _ isOk => by cases isOk⟩
  | ok tokens =>
    obtain ⟨front, last, rfl⟩ := exists_front_of_tokenize split
    have marked := endMarked_of_tokenize split
    obtain ⟨parts, visits_eq, ordered, within⟩ := exists_visits marked
    rw [← events_ofCheck split] at visits_eq
    have nodup : (visits (events (ofCheck source))).Nodup := by
      rw [visits_eq, List.nodup_cons]
      exact ⟨fun member => (within _ member).1 rfl, ordered.imp LeadsTo.ne⟩
    -- The index of the program is not reported, but it is entered once only.
    have index_zero : ∀ visit ∈ visits (events (ofCheck source)),
        visit.1 = .program → visit.2 = 0 := by
      rw [visits_eq, List.forall_mem_cons]
      exact ⟨fun _ => rfl, fun visit member isProgram => absurd isProgram (within visit member).1⟩
    constructor
    · apply nodup.map_on
      intro visit member other member' same
      obtain ⟨same_name, same_index⟩ := eq_of_renderVisit_eq ((String.append_right_inj _).mp same)
      refine Prod.ext same_name ?_
      by_cases isProgram : visit.1 = .program
      · rw [index_zero visit member isProgram, index_zero other member' (same_name ▸ isProgram)]
      · exact same_index isProgram
    · rintro _ ⟨⟩
      refine ⟨⟨parts, visits_eq, fun visit member => (within visit member).1⟩, nodup, ?_, ?_⟩
      · rw [visits_eq, List.forall_mem_cons]
        exact ⟨length_pos_of_endMarked marked, fun visit member => (within visit member).2⟩
      · rw [visits_eq, List.length_cons]
        have := length_le_of_leadsTo ordered within
        omega

/-- In `a;`, the variable is reached through all levels of expressions, each entered once. -/
theorem enterLines_nodup_variable :
    ∃ tokens, tokenize "a;" = .ok tokens ∧ tokens.length = 3 ∧
      (visits (events (ofCheck "a;"))).Nodup ∧
      (∀ visit ∈ visits (events (ofCheck "a;")), visit.2 < 3) ∧
      (enterLines (ofCheck "a;")).length ≤ 76 := by
  have split : tokenize "a;" = .ok [⟨.identifier, "a", ⟨1, 0⟩⟩, ⟨.semicolon, ";", ⟨1, 1⟩⟩,
      .endOfInput ⟨1, 2⟩] := by
    cbv
  obtain ⟨-, nodup, within, bound⟩ := (enterLines_nodup "a;").2 _ split
  exact ⟨_, split, rfl, nodup, within, bound⟩

end Trace

end LoxSyntax
