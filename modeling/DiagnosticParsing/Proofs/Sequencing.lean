import DiagnosticParsing.Proofs.Ensures
import DiagnosticParsing.Parse

/-!
# Going on with a reply

Whatever runs one parser behind another one passes a failure on, and goes on with the two parts of
any other reply (`Parse.follow`). So a sequence of three can be read from either side
(`Parse.andThen_andThen`), and a function of the values of a sequence can be applied where the last
one is found (`Parse.map_both`).
-/

set_option autoImplicit false

namespace DiagnosticParsing

@[simp]
theorem Reply.parts_success (rest : Place) (value : Value) :
    (success rest value).parts = .ok (rest, value) :=
  rfl

@[simp]
theorem Run.ofExcept_ok {α : Type} (a : α) : ofExcept (.ok a) = pure a :=
  rfl

/-- A call that returns at once is no step of a run. -/
@[simp]
theorem Run.ofCall_pure {α : Type} (a : α) : ofCall (.pure a) = pure a :=
  rfl

@[simp]
theorem Run.ofCall_ofExcept {α : Type} (outcome : Except Fault α) :
    ofCall (.ofExcept outcome) = ofExcept outcome :=
  rfl

theorem Run.ofExcept_bind {α β : Type} (outcome : Except Fault α) (next : α → Except Fault β) :
    ofExcept (outcome >>= next) = ofExcept outcome >>= fun a ↦ ofExcept (next a) := by
  cases outcome <;> rfl

/-- What follows a run needs to be looked at only where the run can have come to. -/
theorem Run.bind_congr_of_ensures {α β : Type} {run : Run α} {next next' : α → Run β}
    {journal : Journal} {post : α → Journal → Prop} (hrun : run.Ensures journal post)
    (hnext : ∀ a final, post a final → next a final = next' a final) :
    (run >>= next) journal = (run >>= next') journal := by
  rw [bind_apply, bind_apply]
  cases hdone : run journal with
  | done a final => exact hnext a final (hrun a final hdone)
  | _ => rfl

/-- A call that reports nothing is a computation without a journal. -/
theorem Run.ofCall_of_notes_nil {α : Type} {call : Call α} (hnotes : call.notes = []) :
    ofCall call = ofExcept call.outcome := by
  rcases call with ⟨notes, outcome⟩
  obtain rfl : notes = [] := hnotes
  rfl

namespace Parse

open Run (ofExcept ofCall)

/-- What becomes of a reply: a failure stays one, and two parts are gone on with. -/
def follow (next : Place → Value → Run Reply) (reply : Reply) : Run Reply :=
  match reply with
  | .failure => pure .failure
  | reply => ofExcept reply.parts >>= fun parts ↦ next parts.1 parts.2

theorem andThen_apply (p : Parse) (next : Place → Value → Run Reply) (place : Place) :
    andThen p next place = p place >>= follow next :=
  rfl

@[simp]
theorem follow_success (next : Place → Value → Run Reply) (rest : Place) (value : Value) :
    follow next (.success rest value) = next rest value :=
  rfl

theorem follow_bind_follow (next last : Place → Value → Run Reply) (reply : Reply) :
    follow next reply >>= follow last = follow (fun rest value ↦ next rest value >>= follow last)
      reply := by
  cases reply with
  | failure => simp [follow]
  | _ => simp [follow]

/-- A sequence of three, read from either side. -/
theorem andThen_andThen (p : Parse) (next last : Place → Value → Run Reply) :
    andThen (andThen p next) last = andThen p fun rest value ↦ next rest value >>= follow last := by
  funext place
  simp only [andThen_apply, bind_assoc, follow_bind_follow]

/-- What comes behind a value made from another one can make it itself. -/
theorem andThen_of_success (p : Parse) (f : Value → Value) (next : Place → Value → Run Reply) :
    andThen (andThen p fun rest value ↦ return .success rest (f value)) next =
      andThen p fun rest value ↦ next rest (f value) := by
  rw [andThen_andThen]
  simp

/-- A function of both values of a sequence. -/
theorem map_both (p q : Parse) (f : Value → Call Value) :
    map (both p q) f = andThen p fun middle first ↦ andThen q (fun rest second ↦ do
      return .success rest (← ofCall (f (.tuple [first, second])))) middle := by
  simp only [map, both, andThen_andThen]
  congr 1
  funext middle first
  rw [andThen_apply, bind_assoc]
  simp [andThen_apply, follow_bind_follow]

end Parse

end DiagnosticParsing
