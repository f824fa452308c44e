import DiagnosticParsing.Position
import DiagnosticParsing.Value.Rendering

/-!
# Notes

A run leaves `Note`s behind for whoever follows it: calls of functions that report themselves,
deferred parsers that are run and get built, and what `trace` and `inspect` saw. Notes are never
taken back, and nothing in a run depends on them. A note is either an event or a debug record, and
`Note.record?` gives the wording of a record.
-/

set_option autoImplicit false

namespace DiagnosticParsing

/-- One step on the way to a deferred parser. -/
inductive Cell.Step where
  /-- To the deferred parser of a label, or into it. -/
  | label (label : Nat)
  /-- Into a parser that was made in a run. Each one has a stamp of its own. -/
  | stamp (stamp : Nat)
  deriving DecidableEq, Hashable, Inhabited

/-- Which deferred parser is meant: the shared definition it belongs to, if it belongs to one, and
the steps that lead to it from there, the last one first. -/
structure Cell where
  /-- The shared definition in which the outermost deferred parser stands. -/
  home : Option String
  /-- The steps from the cell itself outwards. -/
  path : List Cell.Step
  deriving DecidableEq, Hashable, Inhabited

/-- Something that happened in a run. -/
inductive Note where
  /-- A reporting function was applied to a value. -/
  | applied (id x : Value)
  /-- A reporting choice of the next parser was made for a value. -/
  | chosen (id x : Value)
  /-- An observer saw a parse begin at an index, and, if it succeeded, end at another with a
  value. -/
  | observed (id : Value) (start : Nat) (finish : Option (Nat × Value))
  /-- A deferred parser was run. -/
  | entering (cell : Cell)
  /-- The callback of a deferred parser was invoked. -/
  | building (cell : Cell) (name : String)
  /-- A deferred parser was built. -/
  | built (cell : Cell)
  /-- An observed parser succeeded, started at a position and left the previewed rest. -/
  | succeeded (value : Value) (start : Position) (rest : String)
  /-- An observed parser failed where it was started. -/
  | failed (start : Position) (rest : String)
  /-- A traced parser was entered. -/
  | entered (name : String) (start : Position) (rest : String)
  /-- A traced parser succeeded. -/
  | matched (name : String) (value : Value) (finish : Position)
  /-- A traced parser failed. -/
  | backtracked (name : String) (start : Position)

/-- The wording of a debug record; none for an event. -/
def Note.record? : Note → Option String
  | built _ => some "built deferred parser"
  | succeeded value start rest => some (value.repr ++ " at " ++ start.display ++ ", rest " ++ rest)
  | failed start rest => some ("failed at " ++ start.display ++ " on " ++ rest)
  | entered name start rest =>
    some (name ++ ": enter at " ++ start.display ++ " on " ++ rest)
  | matched name value finish =>
    some (name ++ ": ok " ++ value.repr ++ ", now at " ++ finish.display)
  | backtracked name start => some (name ++ ": backtracked at " ++ start.display)
  | _ => none

end DiagnosticParsing
