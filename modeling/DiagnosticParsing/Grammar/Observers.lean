import DiagnosticParsing.Grammar

/-!
# Observers

The two observers of `Grammar.inspect` that the library provides: one leaves an event under a name,
the other a debug record.
-/

set_option autoImplicit false

namespace DiagnosticParsing.Grammar

/-- Leaves an event with the indices at which a parse began and ended, and its value. -/
def recordEvent (id : Value) (place : Place) (reply : Reply) : Call Unit :=
  match place.index with
  | .error fault => .fault fault
  | .ok start =>
    match reply with
    | .failure => Call.reporting (.observed id start none) (.pure ())
    | reply =>
      match reply.first.bind Place.index, reply.second with
      | .ok finish, .ok value =>
        Call.reporting (.observed id start (some (finish, value))) (.pure ())
      | .error fault, _ => .fault fault
      | _, .error fault => .fault fault

/-- Leaves a debug record of what was found and where, or of a failure. -/
def recordDebug (place : Place) (reply : Reply) : Call Unit :=
  let note : Except Fault Note := do
    match reply with
    | .failure => return .failed (← place.position) (← place.preview)
    | reply =>
      let value ← reply.second
      let start ← place.position
      let rest ← reply.first
      return .succeeded value start (← rest.preview)
  match note with
  | .ok note => Call.reporting note (.pure ())
  | .error fault => .fault fault

end DiagnosticParsing.Grammar
