import DiagnosticParsing.Proofs.Ensures

/-!
# Runs that approximate others

A run is cut short when its bound is used up, and a greater bound can only let it go on. What this
leaves unchanged is the way in which a run ends: its result or fault, and the log
(`Outcome.ending?`). A run *approximates* another one when, wherever it comes to an end, the other
one comes to the same end (`Run.Approximates`).

The two runs start with the same log. The notes and the memories may be different ones, and so may
the notes that the runs leave. A run that approximates itself is therefore one whose end depends on
nothing but the log.
-/

set_option autoImplicit false

namespace DiagnosticParsing

variable {α β : Type}

/-- The end to which an outcome came: a result or a fault, with the log as it then was. -/
def Outcome.ending? : Outcome α → Option (Except Fault α × Log)
  | .done a journal => some (.ok a, journal.log)
  | .faulted fault journal => some (.error fault, journal.log)
  | .unfinished => none

theorem Outcome.ending?_eq_ok {outcome : Outcome α} {a : α} {log : Log} :
    outcome.ending? = some (.ok a, log) ↔ ∃ final, outcome = .done a final ∧ final.log = log := by
  cases outcome <;> simp [ending?, and_assoc]

theorem Outcome.ending?_eq_error {outcome : Outcome α} {fault : Fault} {log : Log} :
    outcome.ending? = some (.error fault, log) ↔
      ∃ final, outcome = .faulted fault final ∧ final.log = log := by
  cases outcome <;> simp [ending?, and_assoc]

namespace Run

/-- Wherever the run comes to an end, the other one, started with the same log, comes to the same
end. -/
def Approximates (run other : Run α) : Prop :=
  ∀ journal journal' : Journal, journal.log = journal'.log →
    ∀ ending, (run journal).ending? = some ending → (other journal').ending? = some ending

/-- What approximates itself ends in the same way on journals with the same log. -/
theorem Approximates.ending?_eq {run : Run α} (h : run.Approximates run)
    {journal journal' : Journal} (hlog : journal.log = journal'.log) :
    (run journal).ending? = (run journal').ending? := by
  apply Option.ext
  intro ending
  constructor
  · exact h journal journal' hlog ending
  · exact h journal' journal hlog.symm ending

theorem Approximates.trans {first middle last : Run α} (hfirst : first.Approximates middle)
    (hlast : middle.Approximates last) : first.Approximates last := by
  intro journal journal' hlog ending hending
  exact hlast journal' journal' rfl ending (hfirst journal journal' hlog ending hending)

/-! ### Steps -/

/-- A step that always ends with a result approximates another one that comes to the same result and
leaves the same log. -/
theorem approximates_step {result result' : Journal → α} {step step' : Journal → Journal}
    (hresult : ∀ journal journal' : Journal, journal.log = journal'.log →
      result journal = result' journal')
    (hstep : ∀ journal journal' : Journal, journal.log = journal'.log →
      (step journal).log = (step' journal').log) :
    Approximates (fun journal ↦ .done (result journal) (step journal)) fun journal ↦
      .done (result' journal) (step' journal) := by
  intro journal journal' hlog ending hending
  simp only [Outcome.ending?] at hending ⊢
  rw [← hending, hresult journal journal' hlog, hstep journal journal' hlog]

theorem approximates_pure (a : α) : (pure a : Run α).Approximates (pure a) :=
  approximates_step (fun _ _ _ ↦ rfl) fun _ _ hlog ↦ hlog

theorem approximates_fault (f : Fault) : (fault f : Run α).Approximates (fault f) := by
  intro journal journal' hlog ending hending
  rw [← hending]
  simp only [fault, Outcome.ending?, hlog]

/-- What comes to no end approximates everything. -/
theorem approximates_unfinished (other : Run α) : unfinished.Approximates other :=
  fun _ _ _ _ hending ↦ nomatch hending

theorem approximates_ofExcept (outcome : Except Fault α) :
    (ofExcept outcome).Approximates (ofExcept outcome) := by
  cases outcome with
  | ok a => exact approximates_pure a
  | error f => exact approximates_fault f

theorem approximates_ofCall (call : Call α) : (ofCall call).Approximates (ofCall call) := by
  intro journal journal' hlog ending hending
  rw [← hending]
  simp only [ofCall]
  cases call.outcome <;> simp only [Outcome.ending?, Journal.noteAll, hlog]

theorem approximates_attempt (call : Call α) : (attempt call).Approximates (attempt call) :=
  approximates_step (fun _ _ _ ↦ rfl) fun _ _ hlog ↦ hlog

/-- Marks are the same where logs are. -/
theorem approximates_mark : mark.Approximates mark :=
  approximates_step (fun _ _ hlog ↦ congrArg Log.mark hlog) fun _ _ hlog ↦ hlog

theorem approximates_rollback (mark : Nat) : (rollback mark).Approximates (rollback mark) :=
  approximates_step (fun _ _ _ ↦ rfl) fun _ _ hlog ↦ congrArg (Log.rollback · mark) hlog

theorem approximates_complain (message : Message) :
    (complain message).Approximates (complain message) :=
  approximates_step (fun _ _ _ ↦ rfl) fun _ _ hlog ↦ congrArg (Log.add · message) hlog

/-- Notes do not count. -/
theorem approximates_note (n n' : Note) : (note n).Approximates (note n') :=
  approximates_step (fun _ _ _ ↦ rfl) fun _ _ hlog ↦ hlog

/-! ### One run after the other -/

theorem Approximates.bind {run other : Run α} {next next' : α → Run β}
    (hrun : run.Approximates other) (hnext : ∀ a, (next a).Approximates (next' a)) :
    (run >>= next).Approximates (other >>= next') := by
  intro journal journal' hlog ending hending
  rw [bind_apply] at hending ⊢
  have hother := hrun journal journal' hlog
  cases hfirst : run journal with
  | done a final =>
    rw [hfirst] at hending hother
    obtain ⟨final', hsecond, hfinal⟩ := Outcome.ending?_eq_ok.mp (hother (.ok a, final.log) rfl)
    rw [hsecond]
    exact hnext a final final' hfinal.symm ending hending
  | faulted fault final =>
    rw [hfirst] at hending hother
    obtain ⟨final', hsecond, hfinal⟩ :=
      Outcome.ending?_eq_error.mp (hother (.error fault, final.log) rfl)
    rw [hsecond, ← hending]
    simp only [Outcome.ending?, hfinal]
  | unfinished =>
    rw [hfirst] at hending
    exact nomatch hending

end Run

end DiagnosticParsing
