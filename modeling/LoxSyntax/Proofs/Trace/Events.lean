import LoxSyntax.Proofs.Recognizer.Follows
import LoxSyntax.Trace

/-! # The events in a trace

The trace of a check begins with the tokens of the text.  If there are any, then the events of the
recognizer follow, and nothing else (`ofCheck_of_tokenize`). -/

namespace LoxSyntax.Trace

open Recognizer

/-- What an entry reports of the recognizer. -/
def Entry.event? : Entry → Option Event
  | .recognition event => some event
  | .scanned _ | .split _ | .notSplit _ => none

/-- The events of the recognizer that some entries report, in order. -/
def events (entries : List Entry) : List Event := entries.filterMap Entry.event?

variable {source : String} {tokens : List Token}

/-- The events of two traces are those of the one and then those of the other. -/
theorem events_append (entries more : List Entry) :
    events (entries ++ more) = events entries ++ events more := List.filterMap_append

/-- The entries made from events report these events. -/
theorem events_recognition (reported : List Event) :
    events (reported.map .recognition) = reported := by
  rw [events, List.filterMap_map]
  exact List.filterMap_some

/-- The recognizer does nothing while a text is split into tokens. -/
theorem events_ofTokenize (source : String) : events (ofTokenize source) = [] := by
  rw [events, List.filterMap_eq_nil_iff]
  intro entry member
  rw [ofTokenize, List.mem_append, List.mem_map, List.mem_singleton] at member
  rcases member with ⟨_, -, rfl⟩ | rfl
  · rfl
  · cases (Lexical.scan source).outcome <;> rfl

/-- Where there are tokens, the trace goes on with the events of the recognizer. -/
theorem ofCheck_of_tokenize (h : tokenize source = .ok tokens) :
    ofCheck source =
      ofTokenize source ++ (eventsFrom tokens.toArray .program 0).seen.map .recognition := by
  simp only [ofCheck, h]

/-- Where there are tokens, the events in the trace are those of the recognizer. -/
theorem events_ofCheck (h : tokenize source = .ok tokens) :
    events (ofCheck source) = (eventsFrom tokens.toArray .program 0).seen := by
  rw [ofCheck_of_tokenize h, events_append, events_ofTokenize, events_recognition, List.nil_append]

/-- A text that does not split into tokens is not looked at by the recognizer. -/
theorem events_ofCheck_of_error {error : LexicalError} (h : tokenize source = .error error) :
    events (ofCheck source) = [] := by
  simp only [ofCheck, h, events_ofTokenize]

end LoxSyntax.Trace
