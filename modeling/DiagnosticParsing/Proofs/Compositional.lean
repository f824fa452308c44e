import DiagnosticParsing.Proofs.Congruence

/-!
# Properties of runs that parsers inherit

A property of runs is *compositional* (`Run.Compositional`) when sequencing keeps it and the
primitive runs have it. Parsers are put together from nothing else, so every run of a parser has the
property when the runs of its parts do (`Run.Compositional.hereditary`). This is a case of
`Run.Congruence`: being one and the same run, with the property, is a relation between runs that
sequencing keeps (`Run.Compositional.congruence`).

Two things can be left out. Which notes count as ordinary is up to the property, and then the
functions that a user supplies must report ordinary notes only (`Grammar.ReportsOnly`). And the two
notes of `trace` need not be ordinary. For them the property has to be shown of the traced parser as
a whole.
-/

set_option autoImplicit false

namespace DiagnosticParsing

/-- What the levels of an operator table are made of reports nothing. -/
theorem Grammar.allowsLevels_reportsOnly (ordinary : Note → Prop) :
    AllowsLevels (ReportsOnly ordinary) where
  succeed := fun _ ↦ trivial
  map := fun _ _ hf x ↦ Call.reportsOnly_of_nil ordinary (hf x)
  bind := fun _ _ _ hchoose x ↦ Call.reportsOnly_of_nil ordinary (hchoose x)
  both := fun _ _ ↦ trivial
  either := fun _ _ ↦ trivial
  optional := fun _ ↦ trivial
  chainLeft := fun _ _ ↦ trivial
  chainRight := fun _ _ ↦ trivial

namespace Run

/-- A property of runs that sequencing keeps and that the primitive runs have, as far as the notes
which they leave are ordinary. -/
structure Compositional (ordinary : Note → Prop) (holds : ∀ ⦃α : Type⦄, Run α → Prop) :
    Prop where
  result : ∀ {α : Type} (a : α), holds (pure a : Run α)
  fault : ∀ {α : Type} (f : Fault), holds (Run.fault f : Run α)
  unfinished : ∀ {α : Type}, holds (Run.unfinished : Run α)
  sequence : ∀ {α β : Type} {run : Run α} {next : α → Run β}, holds run →
    (∀ a, holds (next a)) → holds (run >>= next)
  call : ∀ {α : Type} (call : Call α), call.ReportsOnly ordinary → holds (ofCall call)
  attempt : ∀ {α : Type} (call : Call α), call.ReportsOnly ordinary → holds (Run.attempt call)
  mark : holds Run.mark
  rollback : ∀ mark, holds (Run.rollback mark)
  complain : ∀ message, holds (Run.complain message)
  note : ∀ n, ordinary n → holds (Run.note n)

/-- Two runs are the same, and it has a property. -/
def Same (holds : ∀ ⦃α : Type⦄, Run α → Prop) ⦃α : Type⦄ (run run' : Run α) : Prop :=
  run = run' ∧ holds run

end Run

/-- Every run of a parser has a property. -/
def Parse.Always (holds : ∀ ⦃α : Type⦄, Run α → Prop) (p : Parse) : Prop :=
  ∀ place, holds (p place)

namespace Run.Compositional

open Parse (Always)

variable {ordinary : Note → Prop} {holds : ∀ ⦃α : Type⦄, Run α → Prop} {α β : Type} {p : Parse}

/-- Sameness with a compositional property is a congruence. -/
theorem congruence (compositional : Compositional ordinary holds) :
    Congruence ordinary (Same holds) where
  result := fun a ↦ ⟨rfl, compositional.result a⟩
  fault := fun f ↦ ⟨rfl, compositional.fault f⟩
  unfinished := ⟨rfl, compositional.unfinished⟩
  sequence := by
    rintro α β run _ next next' ⟨rfl, hrun⟩ hnext
    obtain rfl : next = next' := funext fun a ↦ (hnext a).1
    exact ⟨rfl, compositional.sequence hrun fun a ↦ (hnext a).2⟩
  call := fun call hcall ↦ ⟨rfl, compositional.call call hcall⟩
  attempt := fun call hcall ↦ ⟨rfl, compositional.attempt call hcall⟩
  mark := ⟨rfl, compositional.mark⟩
  rollback := fun mark ↦ ⟨rfl, compositional.rollback mark⟩
  complain := fun message ↦ ⟨rfl, compositional.complain message⟩
  note := fun n hn ↦ ⟨rfl, compositional.note n hn⟩

/-- What is computed without a journal is handed on. -/
theorem ofExcept_bind (compositional : Compositional ordinary holds) (outcome : Except Fault α)
    {next : α → Run β} (hnext : ∀ a, holds (next a)) : holds (Run.ofExcept outcome >>= next) :=
  (compositional.congruence.ofExcept_bind outcome fun a ↦ ⟨rfl, hnext a⟩).2

/-! ### Parsers that are the same as themselves -/

/-- A parser whose runs have a property is the same as itself. -/
theorem same (hp : Always holds p) : p.Related (Same holds) p :=
  fun place ↦ ⟨rfl, hp place⟩

/-- A parser that is the same as itself has runs with the property. -/
theorem always (hp : p.Related (Same holds) p) : Always holds p :=
  fun place ↦ (hp place).2

/-! ### Grammars -/

/-- That every run has a compositional property is passed on from the parts of a grammar to the
whole, as far as functions report ordinary notes only. Assumes: tracing a parser keeps the
property. -/
theorem hereditary (compositional : Compositional ordinary holds)
    (htrace : ∀ name (p : Parse), Always holds p → Always holds (Parse.trace name p)) :
    Grammar.Hereditary (Grammar.ReportsOnly ordinary) (Parse.Related (Same holds)) := by
  refine compositional.congruence.hereditary fun {p p'} name hp ↦ ?_
  obtain rfl : p = p' := funext fun place ↦ (hp place).1
  exact same (htrace name p (always hp))

end Run.Compositional

end DiagnosticParsing
