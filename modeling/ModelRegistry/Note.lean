import ModelRegistry.Event
import ModelRegistry.Logged
import ModelRegistry.Report

/-!
# Notes of the passes

A pass notes what it changes, what it finds and what it tells the log, each where it happens. The
report of a pass and its events are two selections of one list of notes.
-/

namespace ModelRegistry

inductive Note
  | change (c : Change)
  | diagnostic (d : Diagnostic)
  | event (e : Event)

namespace Note

def change? : Note → Option Change
  | .change c => some c
  | _ => none

def diagnostic? : Note → Option Diagnostic
  | .diagnostic d => some d
  | _ => none

def event? : Note → Option Event
  | .event e => some e
  | _ => none

end Note

def Report.ofNotes (notes : List Note) : Report :=
  ⟨notes.filterMap Note.change?, notes.filterMap Note.diagnostic?⟩

def Event.ofNotes (notes : List Note) : List Event :=
  notes.filterMap Note.event?

theorem Report.ofNotes_append (xs ys : List Note) :
    Report.ofNotes (xs ++ ys) = Report.ofNotes xs ++ Report.ofNotes ys := by
  simp only [ofNotes, List.filterMap_append]
  rfl

theorem Event.ofNotes_append (xs ys : List Note) :
    Event.ofNotes (xs ++ ys) = Event.ofNotes xs ++ Event.ofNotes ys :=
  List.filterMap_append ..

end ModelRegistry
