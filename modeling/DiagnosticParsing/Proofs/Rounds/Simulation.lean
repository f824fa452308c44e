import DiagnosticParsing.Proofs.Ensures
import DiagnosticParsing.Proofs.Rounds

/-!
# Repetitions that do the same

One repetition does the same as another one if its rounds do, and what it has gathered can be told
from what the other one has (`Parse.rounds_map`). That the rounds do the same may be known only for
what can have been gathered; such a condition has to be kept by every round
(`Parse.rounds_map_of_keeps`).
-/

set_option autoImplicit false

namespace DiagnosticParsing.Parse

open Run

variable {σ τ : Type}

/-- Where a condition holds of what has been gathered before a round, it does so behind it. -/
def Round.Keeps (Condition : Place → σ → Journal → Prop) (round : Round σ) : Prop :=
  ∀ place gathered journal, Condition place gathered journal →
    (round place gathered).Ensures journal fun found final ↦
      ∀ rest more, found = some (rest, more) → Condition rest more final

/-- What every round keeps did hold before the last one, which gives up. -/
theorem ensures_rounds {Condition : Place → σ → Journal → Prop} {round : Round σ}
    (hkeeps : Round.Keeps Condition round) (bound : Nat) :
    ∀ place gathered journal, Condition place gathered journal →
      (rounds bound round place gathered).Ensures journal fun last _ ↦
        ∃ before, Condition last.1 last.2 before := by
  induction bound with
  | zero => exact fun _ _ journal _ ↦ ensures_unfinished journal _
  | succ bound ih =>
    intro place gathered journal hgathered
    rw [rounds, ensures_bind]
    intro found final hfound
    cases found with
    | none => exact (ensures_pure _ final _).mpr ⟨journal, hgathered⟩
    | some next =>
      exact ih next.1 next.2 final (hkeeps place gathered journal hgathered _ final hfound _ _ rfl)

/-- One repetition does the same as another one as long as a condition is kept under which their
rounds do the same. -/
theorem rounds_map_of_keeps (f : σ → τ) {round : Round σ} {round' : Round τ}
    {Condition : Place → σ → Journal → Prop} (hkeeps : Round.Keeps Condition round)
    (hround : ∀ place gathered journal, Condition place gathered journal →
      round' place (f gathered) journal =
        (round place gathered >>= fun found ↦ pure (found.map (Prod.map id f))) journal)
    (bound : Nat) :
    ∀ place gathered journal, Condition place gathered journal →
      rounds bound round' place (f gathered) journal =
        (rounds bound round place gathered >>= fun last ↦ pure (Prod.map id f last)) journal := by
  induction bound with
  | zero => exact fun _ _ _ _ ↦ rfl
  | succ bound ih =>
    intro place gathered journal hgathered
    simp only [rounds, bind_apply, hround place gathered journal hgathered]
    cases hfound : round place gathered journal with
    | faulted fault final => rfl
    | unfinished => rfl
    | done found final =>
      cases found with
      | none => rfl
      | some next =>
        have hnext := hkeeps place gathered journal hgathered _ final hfound next.1 next.2 rfl
        exact ih next.1 next.2 final hnext

/-- One repetition does the same as another one if their rounds do. -/
theorem rounds_map (f : σ → τ) {round : Round σ} {round' : Round τ}
    (hround : ∀ place gathered, round' place (f gathered) =
      (round place gathered >>= fun found ↦ pure (found.map (Prod.map id f))))
    (bound : Nat) (place : Place) (gathered : σ) :
    rounds bound round' place (f gathered) =
      (rounds bound round place gathered >>= fun last ↦ pure (Prod.map id f last)) := by
  have hkeeps : Round.Keeps (fun _ _ _ ↦ True) round := fun _ _ _ _ _ _ _ _ _ _ ↦ trivial
  ext journal
  refine rounds_map_of_keeps f hkeeps (fun place gathered journal _ ↦ ?_) bound place gathered
    journal trivial
  rw [hround]

end DiagnosticParsing.Parse
