import LoxSyntax.Proofs.Check.Accepted
import LoxSyntax.Proofs.Recognizer.Course
import LoxSyntax.Proofs.Trace.Events

/-! # Traces as certificates

The trace of a check records a tree of nonterminals, and which tokens each of them takes.  For an
accepted text it is a derivation tree, and for a rejected one it leads up to the token at which the
text departs from the grammar (`ofCheck_certifies`). -/

namespace LoxSyntax.Trace

open Recognizer

/-- The trace of a check that gets to the tokens certifies its result.

The nonterminals that are entered and left are nested within a whole program, and each is left as it
was entered.  The tokens that are taken are the first ones, each once and in order, up to the index
where the recognizer stops.  If the text is accepted, then the nonterminals and the tokens that they
take are a derivation tree of all tokens; the program itself may do without the marker for the end
of the input after a `print` that took it.  If it is rejected, then the last token that is looked at
or asked for is the one where the recognizer stops, and behind that nonterminals are left only. -/
theorem ofCheck_certifies (source : String) (tokens : List Token) (stop : Nat)
    (split : tokenize source = .ok tokens)
    (stopped : (recognizeFrom tokens.toArray .program 0).index = stop) :
    (∃! inside : Course,
      ofCheck source = ofTokenize source ++
        (Course.visit .program 0 inside .done).events.map .recognition ∧
      (check source = .ok () →
        inside.IsDerivation ∧ inside.word = tokens.map (·.kind) ∧
        (inside.children ∈ Nonterminal.program.production.expansions ∨
          (inside.children ∈ (Form.many (.category .declaration)).expansions ∧
            inside.TakesIn .printStmt .endOfInput)))) ∧
    (takings (events (ofCheck source))).map Prod.fst = (tokens.take stop).map (·.kind) ∧
    (takings (events (ofCheck source))).map Prod.snd = List.range stop ∧
    (∀ rejection, check source = .error rejection →
      ∃ before last after, ofCheck source = before ++ .recognition last :: after ∧
        last.test? = some stop ∧
        ∀ entry ∈ after, ∃ n start, entry = .recognition (.leave n start)) := by
  obtain ⟨front, last, rfl⟩ := exists_front_of_tokenize split
  have marked := endMarked_of_tokenize split
  obtain ⟨seen, h⟩ := recognizeFrom_iff.mp ⟨rfl, stopped⟩
  have trace_eq : ofCheck source = ofTokenize source ++ seen.map .recognition := by
    rw [ofCheck_of_tokenize split, eventsFrom_eq h]
  obtain ⟨word, spelled, takings_eq⟩ := h.exists_takings
  have events_eq : events (ofCheck source) = seen := by
    rw [events_ofCheck split, eventsFrom_eq h]
  refine ⟨?_, ?_, ?_, ?_⟩
  · obtain ⟨inside, rfl, derivation⟩ := h.exists_program_course
    refine ⟨inside, ⟨trace_eq, fun accepted => ?_⟩, fun other same => ?_⟩
    case refine_2 =>
      -- The events tell what the tree is.
      rw [same.1, events_append, events_ofTokenize, events_recognition] at events_eq
      injection Course.events_injective events_eq
    have accepted := (check_eq_ok_iff_recognize split).mp accepted
    obtain ⟨derivation, root⟩ := derivation accepted
    refine ⟨derivation, ?_, root⟩
    -- An accepted run takes all tokens.
    rw [show (recognizeFrom _ .program 0).outcome = .ok () from accepted] at h
    obtain ⟨rfl, -⟩ := (follows_program_iff_of_endMarked marked).mp ⟨_, h⟩
    rw [← spelled.unique (spells_all _), ← List.zipIdx_map_fst 0 word, ← takings_eq]
    simp [Course.word, Course.events]
  · rw [events_eq, takings_eq, List.zipIdx_map_fst, spelled.take_eq]
  · rw [events_eq, takings_eq, List.zipIdx_map_snd, spelled.stop_eq, Nat.zero_add,
      List.range_eq_range']
  · intro rejection rejected
    cases outcome : recognize (front ++ [.endOfInput last]) with
    | ok =>
      rw [(check_eq_ok_iff_recognize split).mpr outcome] at rejected
      cases rejected
    | error error =>
      rw [show (recognizeFrom _ .program 0).outcome = .error error from outcome] at h
      obtain ⟨inside, rfl, hloop⟩ := h.of_program_error marked
      have halts := (hloop.haltsAt rfl (by decide)).resolve_right fun rejected => by
        cases rejected.1
      obtain ⟨before, last, after, seen_eq, isTest, leaves⟩ :=
        (halts.append_left [.enter .program 0]).leave .program 0
      rw [show .enter .program 0 :: inside ++ [.leave .program 0] = _ from seen_eq] at trace_eq
      refine ⟨ofTokenize source ++ before.map .recognition, last, after.map .recognition, ?_,
        isTest, ?_⟩
      · rw [trace_eq, List.map_append, List.map_cons, List.append_assoc]
      · intro entry member
        obtain ⟨event, isAfter, rfl⟩ := List.mem_map.mp member
        obtain ⟨n, start, rfl⟩ := leaves event isAfter
        exact ⟨n, start, rfl⟩

set_option maxRecDepth 4000 in
/-- In `print 1`, the statement has the marker as its last leaf. -/
theorem ofCheck_certifies_print :
    check "print 1" = .ok () ∧
      (takings (events (ofCheck "print 1"))).map Prod.snd = [0, 1, 2] ∧
      ∃ inside : Course,
        ofCheck "print 1" = ofTokenize "print 1" ++
          (Course.visit .program 0 inside .done).events.map .recognition ∧
        inside.IsDerivation ∧ inside.word = [.kwPrint, .number, .endOfInput] := by
  have split : tokenize "print 1" = .ok [⟨.kwPrint, "print", ⟨1, 0⟩⟩, ⟨.number, "1", ⟨1, 6⟩⟩,
      .endOfInput ⟨1, 7⟩] := by
    cbv
  have accepted : check "print 1" = .ok () := by cbv
  -- The statement is applied to the three tokens, all of which were taken.
  obtain ⟨⟨inside, ⟨trace_eq, derivation⟩, -⟩, -, taken, -⟩ :=
    ofCheck_certifies "print 1" _ 3 split (by cbv)
  obtain ⟨derivation, word_eq, -⟩ := derivation accepted
  exact ⟨accepted, taken, inside, trace_eq, derivation, word_eq⟩

end LoxSyntax.Trace
