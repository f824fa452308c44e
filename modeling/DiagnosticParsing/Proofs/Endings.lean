import DiagnosticParsing.Proofs.References

/-!
# How parsers end

A run that is given a greater bound can only go on further (`Run.Growing`), so that how it ends with
a bound that is large enough is settled once and for all (`Run.EndsWith`, `Run.EndsWith.unique`). A
sequence of two runs ends with the fault of the first one, or as the second one does behind it
(`Run.endsWith_bind`).

Two grammars are the same for whoever runs them if they come to the same ends (`Grammar.SameEnds`):
the same reply or fault with the same log on the same places with the same log, or no end at all.
-/

set_option autoImplicit false

namespace DiagnosticParsing

/-! ### How a run ends -/

namespace Run

variable {α β : Type}

/-- A greater bound changes no end that has been reached. -/
def Growing (run : Nat → Run α) : Prop :=
  ∀ bound bound', bound ≤ bound' → (run bound).Approximates (run bound')

/-- With a bound that is large enough, the run comes to this end from every journal with this
log. -/
def EndsWith (run : Nat → Run α) (log : Log) (ending : Except Fault α × Log) : Prop :=
  ∃ bound, ∀ journal : Journal, journal.log = log → (run bound journal).ending? = some ending

variable {run : Nat → Run α} {next : Nat → α → Run β} {log log' : Log}
  {ending ending' : Except Fault α × Log}

theorem growing_const {run : Run α} (h : run.Approximates run) : Growing fun _ ↦ run :=
  fun _ _ _ ↦ h

theorem Growing.bind (hrun : Growing run) (hnext : ∀ a, Growing fun bound ↦ next bound a) :
    Growing fun bound ↦ run bound >>= next bound :=
  fun bound bound' hle ↦ (hrun bound bound' hle).bind fun a ↦ hnext a bound bound' hle

/-- One run that ends is enough. -/
theorem Growing.endsWith (hrun : Growing run) {bound : Nat} {journal : Journal}
    (h : (run bound journal).ending? = some ending) : EndsWith run journal.log ending := by
  refine ⟨bound, fun journal' hlog ↦ ?_⟩
  exact hrun bound bound (Nat.le_refl bound) journal journal' hlog.symm ending h

/-- Every greater bound will do. -/
theorem EndsWith.ending? (h : EndsWith run log ending) (hrun : Growing run) :
    ∃ bound, ∀ bound' ≥ bound, ∀ journal : Journal, journal.log = log →
      (run bound' journal).ending? = some ending := by
  obtain ⟨bound, hbound⟩ := h
  refine ⟨bound, fun bound' hle journal hlog ↦ ?_⟩
  exact hrun bound bound' hle journal journal rfl ending (hbound journal hlog)

theorem EndsWith.unique (h : EndsWith run log ending) (h' : EndsWith run log ending')
    (hrun : Growing run) : ending = ending' := by
  obtain ⟨bound, hbound⟩ := h.ending? hrun
  obtain ⟨bound', hbound'⟩ := h'.ending? hrun
  have hfirst := hbound (max bound bound') (Nat.le_max_left _ _) ⟨log, #[], ∅⟩ rfl
  have hsecond := hbound' (max bound bound') (Nat.le_max_right _ _) ⟨log, #[], ∅⟩ rfl
  exact Option.some.inj (hfirst.symm.trans hsecond)

/-- A run that has been seen to end comes to no other end. -/
theorem EndsWith.iff_eq (h : EndsWith run log ending) (hrun : Growing run) :
    EndsWith run log ending' ↔ ending' = ending := by
  constructor
  · exact fun h' ↦ h'.unique h hrun
  · rintro rfl
    exact h

/-- It makes no difference to count the bound from one. -/
theorem endsWith_succ (hrun : Growing run) :
    EndsWith (fun bound ↦ run (bound + 1)) log ending ↔ EndsWith run log ending := by
  constructor
  · rintro ⟨bound, h⟩
    exact ⟨bound + 1, h⟩
  · intro h
    obtain ⟨bound, hbound⟩ := h.ending? hrun
    exact ⟨bound, hbound (bound + 1) (Nat.le_succ bound)⟩

/-- A run that comes to one end whatever its bound, and leaves a log made from the one before. -/
theorem endsWith_of_step {run : Run α} {outcome : Except Fault α} (step : Log → Log)
    (hrun : ∀ journal, (run journal).ending? = some (outcome, step journal.log)) :
    EndsWith (fun _ ↦ run) log ending ↔ ending = (outcome, step log) := by
  constructor
  · rintro ⟨bound, h⟩
    exact Option.some.inj ((h ⟨log, #[], ∅⟩ rfl).symm.trans (hrun ⟨log, #[], ∅⟩))
  · rintro rfl
    refine ⟨0, fun journal hlog ↦ ?_⟩
    rw [hrun, hlog]

/-- A run that comes to one end whatever its bound, and leaves the log alone. -/
theorem endsWith_of_silent {run : Run α} {outcome : Except Fault α}
    (hrun : ∀ journal, (run journal).ending? = some (outcome, journal.log)) :
    EndsWith (fun _ ↦ run) log ending ↔ ending = (outcome, log) :=
  endsWith_of_step id hrun

@[simp]
theorem endsWith_pure (a : α) :
    EndsWith (fun _ ↦ (pure a : Run α)) log ending ↔ ending = (.ok a, log) :=
  endsWith_of_silent fun _ ↦ rfl

@[simp]
theorem endsWith_ofExcept (outcome : Except Fault α) :
    EndsWith (fun _ ↦ ofExcept outcome) log ending ↔ ending = (outcome, log) := by
  refine endsWith_of_silent fun journal ↦ ?_
  cases outcome <;> rfl

/-- A sequence of two runs ends with the fault of the first one, or as the second one does behind
the result of the first. -/
theorem endsWith_bind (hrun : Growing run) (hnext : ∀ a, Growing fun bound ↦ next bound a)
    {ending : Except Fault β × Log} :
    EndsWith (fun bound ↦ run bound >>= next bound) log ending ↔
      (∃ fault log', EndsWith run log (.error fault, log') ∧ ending = (.error fault, log')) ∨
        ∃ a middle, EndsWith run log (.ok a, middle) ∧
          EndsWith (fun bound ↦ next bound a) middle ending := by
  constructor
  · rintro ⟨bound, h⟩
    have hboth : ((run bound >>= next bound) ⟨log, #[], ∅⟩).ending? = some ending :=
      h ⟨log, #[], ∅⟩ rfl
    rw [bind_apply] at hboth
    cases hfirst : run bound ⟨log, #[], ∅⟩ with
    | done a final =>
      rw [hfirst] at hboth
      have hending : (run bound ⟨log, #[], ∅⟩).ending? = some (.ok a, final.log) := by
        rw [hfirst]
        rfl
      exact .inr ⟨a, final.log, hrun.endsWith hending, (hnext a).endsWith hboth⟩
    | faulted fault final =>
      rw [hfirst] at hboth
      have hending : (run bound ⟨log, #[], ∅⟩).ending? = some (.error fault, final.log) := by
        rw [hfirst]
        rfl
      exact .inl ⟨fault, final.log, hrun.endsWith hending, (Option.some.inj hboth).symm⟩
    | unfinished =>
      rw [hfirst] at hboth
      exact nomatch hboth
  · rintro (⟨fault, log', ⟨bound, hbound⟩, rfl⟩ | ⟨a, middle, hfirst, hsecond⟩)
    · refine ⟨bound, fun journal hlog ↦ ?_⟩
      obtain ⟨final, hfaulted, hfinal⟩ := Outcome.ending?_eq_error.mp (hbound journal hlog)
      simp only [bind_apply, hfaulted, Outcome.ending?, hfinal]
    · obtain ⟨bound, hbound⟩ := hfirst.ending? hrun
      obtain ⟨bound', hbound'⟩ := hsecond.ending? (hnext a)
      refine ⟨max bound bound', fun journal hlog ↦ ?_⟩
      obtain ⟨final, hdone, hfinal⟩ :=
        Outcome.ending?_eq_ok.mp (hbound _ (Nat.le_max_left bound bound') journal hlog)
      simp only [bind_apply, hdone]
      exact hbound' _ (Nat.le_max_right bound bound') final hfinal

end Run

/-! ### How a grammar ends -/

namespace Grammar

/-- With a bound that is large enough, the grammar comes to this end from every journal with this
log. -/
def EndsWith (definitions : Definitions) (scope : Scope) (p : Grammar) (place : Place) (log : Log)
    (ending : Except Fault Reply × Log) : Prop :=
  ∃ bound, ∀ journal : Journal, journal.log = log →
    (p.eval definitions bound scope place journal).ending? = some ending

variable {definitions definitions' : Definitions} {scope scope' : Scope} {p p' : Grammar}
  {place : Place} {log : Log} {ending ending' : Except Fault Reply × Log}

theorem growing_eval (definitions : Definitions) (scope : Scope) (p : Grammar) (place : Place) :
    Run.Growing fun bound ↦ p.eval definitions bound scope place :=
  fun _ _ hle ↦ approximates_eval_of_le hle scope p place

/-- One run that ends is enough. -/
theorem endsWith_of_eval (bound : Nat) (journal : Journal)
    (h : (p.eval definitions bound scope place journal).ending? = some ending) :
    p.EndsWith definitions scope place journal.log ending :=
  (growing_eval definitions scope p place).endsWith h

/-- A run that is done has come to its end. -/
theorem ensures_eval (bound : Nat) (journal : Journal) :
    (p.eval definitions bound scope place).Ensures journal fun reply final ↦
      p.EndsWith definitions scope place journal.log (.ok reply, final.log) := by
  intro reply final hdone
  refine endsWith_of_eval bound journal ?_
  rw [hdone]
  rfl

theorem EndsWith.unique (h : p.EndsWith definitions scope place log ending)
    (h' : p.EndsWith definitions scope place log ending') : ending = ending' :=
  Run.EndsWith.unique h h' (growing_eval definitions scope p place)

/-- A grammar that has been seen to end comes to no other end. -/
theorem EndsWith.iff_eq (h : p.EndsWith definitions scope place log ending) :
    p.EndsWith definitions scope place log ending' ↔ ending' = ending :=
  Run.EndsWith.iff_eq h (growing_eval definitions scope p place)

/-- The two grammars, each where it stands, come to the same ends, or to none at all. -/
def SameEnds (definitions : Definitions) (scope : Scope) (p : Grammar) (definitions' : Definitions)
    (scope' : Scope) (p' : Grammar) : Prop :=
  ∀ place log ending, p.EndsWith definitions scope place log ending ↔
    p'.EndsWith definitions' scope' place log ending

theorem EndsWith.of_approximates
    (h : ∀ bound, ∃ bound', (p.eval definitions bound scope).Approximates
      (p'.eval definitions' bound' scope'))
    (hends : p.EndsWith definitions scope place log ending) :
    p'.EndsWith definitions' scope' place log ending := by
  obtain ⟨bound, hbound⟩ := hends
  obtain ⟨bound', hbound'⟩ := h bound
  exact ⟨bound', fun journal hlog ↦
    hbound' place journal journal rfl ending (hbound journal hlog)⟩

/-- Grammars that approximate each other come to the same ends. -/
theorem SameEnds.of_approximates
    (h : ∀ bound, ∃ bound', (p.eval definitions bound scope).Approximates
      (p'.eval definitions' bound' scope'))
    (h' : ∀ bound, ∃ bound', (p'.eval definitions' bound scope').Approximates
      (p.eval definitions bound' scope)) :
    SameEnds definitions scope p definitions' scope' p' :=
  fun _ _ _ ↦ ⟨.of_approximates h, .of_approximates h'⟩

theorem SameEnds.trans {definitions'' : Definitions} {scope'' : Scope} {p'' : Grammar}
    (h : SameEnds definitions scope p definitions' scope' p')
    (h' : SameEnds definitions' scope' p' definitions'' scope'' p'') :
    SameEnds definitions scope p definitions'' scope'' p'' :=
  fun place log ending ↦ (h place log ending).trans (h' place log ending)

/-- Grammars that do the same with every bound come to the same ends. -/
theorem SameEnds.of_eval_eq
    (h : ∀ bound, p.eval definitions bound scope = p'.eval definitions' bound scope') :
    SameEnds definitions scope p definitions' scope' p' := by
  intro place log ending
  simp only [EndsWith, h]

end Grammar

end DiagnosticParsing
