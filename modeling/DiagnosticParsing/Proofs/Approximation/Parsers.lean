import DiagnosticParsing.Proofs.Approximation
import DiagnosticParsing.Proofs.Congruence

/-!
# Parsers that approximate others

A parser approximates another one when it does so at every place (`Parse.Approximates`), be it on a
stream or on something else. Every way of building a parser keeps this, since approximation is a
congruence (`Run.approximates_congruence`) in which all notes are ordinary. What comes to no end
approximates everything, so that a repetition with a greater bound is approximated by the one with
the smaller bound (`Run.withinBounds_of_le`).
-/

set_option autoImplicit false

namespace DiagnosticParsing

namespace Run

/-- Approximation is a congruence. -/
theorem approximates_congruence : Congruence (fun _ ↦ True) fun _ ↦ Approximates where
  result := approximates_pure
  fault := approximates_fault
  unfinished := approximates_unfinished _
  sequence := Approximates.bind
  call := fun call _ ↦ approximates_ofCall call
  attempt := fun call _ ↦ approximates_attempt call
  mark := approximates_mark
  rollback := approximates_rollback
  complain := approximates_complain
  note := fun n _ ↦ approximates_note n n

/-- Fewer rounds approximate more. -/
theorem withinBounds_of_le {bound bound' : Nat} (h : bound ≤ bound') :
    WithinBounds (fun _ ↦ Approximates) bound bound' :=
  .inr ⟨h, fun _ ↦ approximates_unfinished⟩

end Run

/-- Wherever it starts, the parser approximates the other one. -/
abbrev Parse.Approximates (p other : Parse) : Prop :=
  p.Related (fun _ ↦ Run.Approximates) other

end DiagnosticParsing
