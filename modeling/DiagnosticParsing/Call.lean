import DiagnosticParsing.Fault
import DiagnosticParsing.Note

/-!
# Calls

A `Call` is what comes of calling a function that a user of the library has supplied: notes, and a
result or a fault. The notes stay when the call ends in a fault.
-/

set_option autoImplicit false

namespace DiagnosticParsing

/-- The outcome of calling a user's function. -/
structure Call (α : Type) where
  /-- What the call reported, in order. -/
  notes : List Note
  /-- The result, or the reason why there is none. -/
  outcome : Except Fault α

namespace Call

variable {α β : Type}

/-- A call that returns at once. -/
protected def pure (a : α) : Call α :=
  ⟨[], .ok a⟩

/-- A call that raises a fault. -/
def fault (f : Fault) : Call α :=
  ⟨[], .error f⟩

/-- A computation that reports nothing, as a call. -/
def ofExcept (outcome : Except Fault α) : Call α :=
  ⟨[], outcome⟩

/-- One call after the other; the second does not take place when the first raises. -/
protected def bind (call : Call α) (next : α → Call β) : Call β :=
  match call.outcome with
  | .ok a => ⟨call.notes ++ (next a).notes, (next a).outcome⟩
  | .error f => ⟨call.notes, .error f⟩

/-- A call with a note in front. -/
def reporting (note : Note) (call : Call α) : Call α :=
  ⟨note :: call.notes, call.outcome⟩

instance : Monad Call where
  pure := Call.pure
  bind := Call.bind

end Call

end DiagnosticParsing
