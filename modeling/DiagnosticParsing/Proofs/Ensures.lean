import DiagnosticParsing.Run

/-!
# What a run ensures

`run.Ensures journal post` says that `run`, started with `journal`, satisfies `post` whenever it
ends with a result. Nothing is said of a run that ends with a fault or is cut short. There is one
rule for each way of building a run (`ensures_bind`, `ensures_complain`, and so on), and
`Run.Ensures.mono` weakens a postcondition.
-/

set_option autoImplicit false

namespace DiagnosticParsing.Run

variable {α β : Type}

/-- Whenever the run ends with a result, the result and the journal then satisfy a condition. -/
def Ensures (run : Run α) (journal : Journal) (post : α → Journal → Prop) : Prop :=
  ∀ result final, run journal = .done result final → post result final

/-- A condition that a run ensures can be weakened. -/
theorem Ensures.mono {run : Run α} {journal : Journal} {post weaker : α → Journal → Prop}
    (hrun : run.Ensures journal post)
    (hweaker : ∀ result final, post result final → weaker result final) :
    run.Ensures journal weaker :=
  fun result final hdone ↦ hweaker result final (hrun result final hdone)

/-- What a sequence of two runs does: the second starts where the first one ended. -/
theorem bind_apply (run : Run α) (next : α → Run β) (journal : Journal) :
    (run >>= next) journal =
      match run journal with
      | .done result final => next result final
      | .faulted fault final => .faulted fault final
      | .unfinished => .unfinished :=
  rfl

/-- What is computed without a fault is handed on at once. -/
@[simp]
theorem ofExcept_ok_bind (a : α) (next : α → Run β) : (ofExcept (.ok a) >>= next) = next a :=
  rfl

/-- A run that always ends with a result ensures a condition when that result and the journal it
leaves satisfy it. -/
theorem ensures_step (result : Journal → α) (step : Journal → Journal) (journal : Journal)
    (post : α → Journal → Prop) :
    Ensures (fun start ↦ .done (result start) (step start)) journal post ↔
      post (result journal) (step journal) := by
  constructor
  · intro h
    exact h _ _ rfl
  · rintro h _ _ ⟨⟩
    exact h

@[simp]
theorem ensures_pure (a : α) (journal : Journal) (post : α → Journal → Prop) :
    (pure a : Run α).Ensures journal post ↔ post a journal :=
  ensures_step (fun _ ↦ a) id journal post

@[simp]
theorem ensures_bind (run : Run α) (next : α → Run β) (journal : Journal)
    (post : β → Journal → Prop) :
    (run >>= next).Ensures journal post ↔
      run.Ensures journal fun result final ↦ (next result).Ensures final post := by
  constructor
  · intro h result final hdone last finish hnext
    refine h last finish ?_
    rw [bind_apply, hdone]
    exact hnext
  · intro h last finish hboth
    rw [bind_apply] at hboth
    cases hrun : run journal with
    | done result final =>
      rw [hrun] at hboth
      exact h result final hrun last finish hboth
    | faulted fault final => simp [hrun] at hboth
    | unfinished => simp [hrun] at hboth

@[simp]
theorem ensures_map (f : α → β) (run : Run α) (journal : Journal) (post : β → Journal → Prop) :
    (f <$> run).Ensures journal post ↔ run.Ensures journal fun result final ↦
      post (f result) final := by
  rw [map_eq_pure_bind, ensures_bind]
  simp only [ensures_pure]

@[simp]
theorem ensures_fault (f : Fault) (journal : Journal) (post : α → Journal → Prop) :
    (fault f : Run α).Ensures journal post :=
  fun _ _ h ↦ nomatch h

@[simp]
theorem ensures_unfinished (journal : Journal) (post : α → Journal → Prop) :
    (unfinished : Run α).Ensures journal post :=
  fun _ _ h ↦ nomatch h

@[simp]
theorem ensures_ofExcept (outcome : Except Fault α) (journal : Journal)
    (post : α → Journal → Prop) :
    (ofExcept outcome).Ensures journal post ↔ ∀ a, outcome = .ok a → post a journal := by
  cases outcome with
  | ok a => simp [Ensures, ofExcept]
  | error f => simp [Ensures, ofExcept]

@[simp]
theorem ensures_ofCall (call : Call α) (journal : Journal) (post : α → Journal → Prop) :
    (ofCall call).Ensures journal post ↔
      ∀ a, call.outcome = .ok a → post a (journal.noteAll call.notes) := by
  cases houtcome : call.outcome with
  | ok a => simp [Ensures, ofCall, houtcome]
  | error f => simp [Ensures, ofCall, houtcome]

@[simp]
theorem ensures_attempt (call : Call α) (journal : Journal)
    (post : Except Fault α → Journal → Prop) :
    (attempt call).Ensures journal post ↔ post call.outcome (journal.noteAll call.notes) :=
  ensures_step (fun _ ↦ call.outcome) (·.noteAll call.notes) journal post

@[simp]
theorem ensures_mark (journal : Journal) (post : Nat → Journal → Prop) :
    mark.Ensures journal post ↔ post journal.log.mark journal :=
  ensures_step (·.log.mark) id journal post

/-- What is run with a mark of the log knows how long the log is. -/
theorem ensures_mark_bind (next : Nat → Run α) (journal : Journal) (post : α → Journal → Prop) :
    (mark >>= next).Ensures journal post ↔ (next journal.log.mark).Ensures journal post := by
  rw [ensures_bind, ensures_mark]

@[simp]
theorem ensures_rollback (mark : Nat) (journal : Journal) (post : Unit → Journal → Prop) :
    (rollback mark).Ensures journal post ↔ post () (journal.rollback mark) :=
  ensures_step (fun _ ↦ ()) (·.rollback mark) journal post

@[simp]
theorem ensures_complain (message : Message) (journal : Journal) (post : Unit → Journal → Prop) :
    (complain message).Ensures journal post ↔ post () (journal.complain message) :=
  ensures_step (fun _ ↦ ()) (·.complain message) journal post

@[simp]
theorem ensures_note (n : Note) (journal : Journal) (post : Unit → Journal → Prop) :
    (note n).Ensures journal post ↔ post () (journal.note n) :=
  ensures_step (fun _ ↦ ()) (·.note n) journal post

end DiagnosticParsing.Run
