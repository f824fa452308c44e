import DiagnosticParsing.Grammar.Execution

/-!
# Reports

A `Report` says what came of one run of a grammar: how it ended, the log as it then was, and the
notes of the run. What the cells hold after a run, they hold in the next one.
-/

set_option autoImplicit false

namespace DiagnosticParsing

/-- What can be seen of a stream. -/
structure StreamState where
  /-- The elements left. -/
  rest : Value
  /-- The number of elements consumed. -/
  index : Nat
  /-- The position of the next element. -/
  position : Position
  /-- The number of elements left. -/
  remaining : Int

/-- What can be seen of a stream. -/
def Stream.state (stream : Stream) : StreamState :=
  ⟨stream.rest.toValue, stream.index, stream.position, stream.remaining⟩

/-- What can be seen of a place, if it is a stream. -/
def Place.state? : Place → Option StreamState
  | .stream _ s => some s.state
  | .stray _ => none

/-- How a run of a grammar ended. -/
inductive Ending where
  /-- The parse failed. -/
  | failed
  /-- The parse succeeded with a value and left a place. -/
  | succeeded (value : Value) (rest : Place)
  /-- A fault was raised. -/
  | faulted (fault : Fault)
  /-- The run used up its bound. -/
  | unfinished

/-- What came of a run of a grammar. -/
structure Report where
  /-- How it ended. -/
  ending : Ending
  /-- The log at the end, with what it held before. -/
  log : Log
  /-- What happened. -/
  notes : List Note

namespace Report

/-- The report of a fault that came before any run. -/
def ofFault (fault : Fault) (log : Log) : Report :=
  ⟨.faulted fault, log, []⟩

/-- The report of an outcome, and the memory that it leaves. A run that did not end shows the state
from which it began. -/
def ofOutcome (log : Log) (memory : Memory) (outcome : Outcome Reply) : Report × Memory :=
  match outcome with
  | .done reply journal =>
    let ending := match reply with
      | .failure => .failed
      | .success rest value => .succeeded value rest
      | .malformed v => .faulted (.malformedReply v)
    (⟨ending, journal.log, journal.notes.toList⟩, journal.memory)
  | .faulted fault journal =>
    (⟨.faulted fault, journal.log, journal.notes.toList⟩, journal.memory)
  | .unfinished => (⟨.unfinished, log, []⟩, memory)

/-- Runs an operand at a place in a world within a bound, with a log and with what cells hold. -/
def ofRunWithin (world : World) (bound : Nat) (p : Operand) (place : Place) (log : Log)
    (memory : Memory) : Report × Memory :=
  match p.asParser with
  | .error fault => (ofFault fault log, memory)
  | .ok p => ofOutcome log memory (p.runWithin world bound place ⟨log, #[], memory⟩)

/-- Runs an operand at a place, with a log and with what cells hold. -/
def ofRun (definitions : Definitions) (p : Operand) (place : Place) (log : Log) (memory : Memory) :
    Report × Memory :=
  ofRunWithin definitions.world Grammar.ampleBound p place log memory

/-- Runs an operand on several streams in turn, each time with an empty log. -/
def ofRuns (definitions : Definitions) (p : Operand) : List Stream → Memory → List Report
  | [], _ => []
  | stream :: rest, memory =>
    let (report, memory) := ofRun definitions p (.fresh stream) .empty memory
    report :: ofRuns definitions p rest memory

/-- The stream that data is read as: a text by characters and any other sequence by its elements. -/
def streamOf (data : Value) : Except Fault Stream :=
  match data with
  | .text s => .ok (.ofText s)
  | _ =>
    match Sequence.ofValue? data with
    | some sequence => .ok (.ofTokens sequence)
    | none => .error (.unsuitable ("object of type '" ++ data.typeName ++ "' has no len()"))

end Report

end DiagnosticParsing
