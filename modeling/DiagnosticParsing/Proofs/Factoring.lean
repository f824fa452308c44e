import DiagnosticParsing.Proofs.LogFrame
import DiagnosticParsing.Proofs.References

/-!
# Common parts of alternatives

Two alternatives that begin with the same parser can be made one: the parser is run once, and the
alternative is between what follows it. The two forms do different work. In the first one the common
parser is run again when what follows it has failed, and the rollback in between takes back what it
had logged; in the second one it is run once, and only what was logged behind it is taken back.

That both come to the same end needs two things of the common parser. It only adds to the log, so
that the rollback restores the log from before it (`Parse.rollback_log_of_done`). And it does the
same when it is run again with that log, whatever cells the first run has built
(`Parse.Repeatable.again`). Every grammar has both (`Grammar.repeatable_eval`). The laws for
grammars are `Grammar.left_factoring`; what a second run notes for whoever follows it, it notes
twice, and the notes are left out of the end of a run.
-/

set_option autoImplicit false

namespace DiagnosticParsing

namespace Parse

open Run

variable {p q r : Parse} {place : Place} {journal final : Journal} {reply : Reply}

/-! ### Runs that can be repeated -/

/-- A parser only adds to the log, and its end depends on nothing but the log. -/
structure Repeatable (p : Parse) : Prop where
  /-- Earlier messages make no difference and stay. -/
  framed : Framed p
  /-- On journals with the same log it comes to the same end. -/
  approximates : Approximates p p

/-- Rolling back to the start of a run restores the log from before it. -/
theorem rollback_log_of_done (hp : Framed p) (hrun : p place journal = .done reply final) :
    (final.rollback journal.log.mark).log = journal.log := by
  have hjournal : Journal.after journal.log ⟨.empty, journal.notes, journal.memory⟩ = journal := by
    rw [Journal.after, Log.append_empty]
  have hframed := hp place journal.log ⟨.empty, journal.notes, journal.memory⟩
  rw [hjournal, hrun] at hframed
  cases hempty : p place ⟨.empty, journal.notes, journal.memory⟩ with
  | done reply' final' =>
    rw [hempty] at hframed
    obtain ⟨-, rfl⟩ := Outcome.done.inj hframed
    exact Log.rollback_mark_append journal.log final'.log
  | faulted fault final' =>
    rw [hempty] at hframed
    cases hframed
  | unfinished =>
    rw [hempty] at hframed
    cases hframed

/-- Run again with the log from before, a parser has the same reply and leaves the same log. -/
theorem Repeatable.again (hp : Repeatable p) (hrun : p place journal = .done reply final)
    {start : Journal} (hlog : start.log = journal.log) :
    ∃ again, p place start = .done reply again ∧ again.log = final.log := by
  apply Outcome.ending?_eq_ok.mp
  have hending := (hp.approximates place).ending?_eq hlog
  rw [hending, hrun]
  rfl

/-! ### Alternatives and sequences, outcome by outcome -/

/-- Behind a failure the alternative starts with the log from before. -/
theorem either_of_failed (hrun : p place journal = .done .failure final) :
    either p q place journal = q place (final.rollback journal.log.mark) := by
  simp only [either, bind_apply, mark, hrun, rollback]

/-- An alternative to a parser that does not fail is of no account. -/
theorem either_of_not_failed (hrun : ∀ final, p place journal ≠ .done .failure final) :
    either p q place journal = p place journal := by
  simp only [either, bind_apply, mark]
  cases houtcome : p place journal with
  | done reply final =>
    cases reply with
    | failure => exact absurd houtcome (hrun final)
    | success rest value => rfl
    | malformed v => rfl
  | faulted fault final => rfl
  | unfinished => rfl

/-- What follows a parser is not run behind a failure. -/
theorem andThen_of_failed {next : Place → Value → Run Reply}
    (hrun : p place journal = .done .failure final) :
    andThen p next place journal = .done .failure final := by
  simp only [andThen, bind_apply, hrun]
  rfl

/-- What follows a parser is run on the two parts of its reply. -/
theorem andThen_of_parts {next : Place → Value → Run Reply} {rest : Place} {value : Value}
    (hrun : p place journal = .done reply final) (hparts : reply.parts = .ok (rest, value)) :
    andThen p next place journal = next rest value final := by
  cases reply with
  | failure => exact nomatch hparts
  | success rest value =>
    obtain ⟨rfl, rfl⟩ := Prod.mk.inj (Except.ok.inj hparts)
    simp only [andThen, bind_apply, hrun]
    rfl
  | malformed v =>
    simp only [andThen, bind_apply, hrun, hparts]
    rfl

/-- A reply without two parts is a fault. -/
theorem andThen_of_no_parts {next : Place → Value → Run Reply} {fault : Fault}
    (hrun : p place journal = .done reply final) (hfailure : reply ≠ .failure)
    (hparts : reply.parts = .error fault) :
    andThen p next place journal = .faulted fault final := by
  cases reply with
  | failure => exact absurd rfl hfailure
  | success rest value => exact nomatch hparts
  | malformed v =>
    simp only [andThen, bind_apply, hrun, hparts]
    rfl

/-- What follows two runs with the same outcome has the same outcome. -/
theorem andThen_congr {next : Place → Value → Run Reply} {place' : Place} {journal' : Journal}
    (h : p place journal = q place' journal') :
    andThen p next place journal = andThen q next place' journal' := by
  simp only [andThen, bind_apply, h]

/-! ### The laws -/

/-- A parser whose value is put behind a given one. -/
def behind (first : Value) (q : Parse) : Parse :=
  andThen q fun rest second ↦ return .success rest (.tuple [first, second])

theorem both_eq (p q : Parse) : both p q = andThen p fun middle first ↦ behind first q middle :=
  rfl

/-- Behind a value, a parser fails only where it fails anyway. -/
theorem failed_of_behind {first : Value} (h : behind first q place journal = .done .failure final) :
    ∃ final, q place journal = .done .failure final := by
  unfold behind at h
  cases houtcome : q place journal with
  | done reply middle =>
    cases reply with
    | failure => exact ⟨middle, rfl⟩
    | success rest value =>
      rw [andThen_of_parts houtcome rfl] at h
      exact nomatch h
    | malformed v =>
      cases hparts : (Reply.malformed v).parts with
      | ok parts =>
        rw [andThen_of_parts houtcome hparts] at h
        exact nomatch h
      | error fault =>
        simp only [andThen, bind_apply, houtcome, hparts] at h
        exact nomatch h
  | faulted fault middle =>
    simp only [andThen, bind_apply, houtcome] at h
    exact nomatch h
  | unfinished =>
    simp only [andThen, bind_apply, houtcome] at h
    exact nomatch h

theorem approximates_behind (first : Value) (hq : Approximates q q) :
    Approximates (behind first q) (behind first q) :=
  approximates_congruence.andThen hq fun _ _ ↦ approximates_pure _

/-- Where the common parser had a reply of two parts, the alternatives behind two runs of it come to
the same end as those behind one. -/
theorem ending?_either_both_of_parts (hp : Repeatable p) (hq : Framed q) (hr : Approximates r r)
    {middle : Place} {first : Value} (hrun : p place journal = .done reply final)
    (hparts : reply.parts = .ok (middle, first)) :
    (either (both p q) (both p r) place journal).ending? =
      (behind first (either q r) middle final).ending? := by
  have hboth : both p q place journal = behind first q middle final := andThen_of_parts hrun hparts
  by_cases hfailed : ∃ after, q middle final = .done .failure after
  · obtain ⟨after, hfailed⟩ := hfailed
    have hbothFailed : both p q place journal = .done .failure after := by
      rw [hboth]
      exact andThen_of_failed hfailed
    -- The rollback behind the first alternative restores the log from before the common parser.
    obtain ⟨again, hagain, hlog⟩ :=
      hp.again hrun (rollback_log_of_done (framed_both hp.framed hq) hbothFailed)
    have hlast : both p r place (after.rollback journal.log.mark) = behind first r middle again :=
      andThen_of_parts hagain hparts
    have hbranch : behind first (either q r) middle final =
        behind first r middle (after.rollback final.log.mark) :=
      andThen_congr (either_of_failed hfailed)
    rw [either_of_failed hbothFailed, hlast, hbranch]
    refine (approximates_behind first hr middle).ending?_eq ?_
    rw [hlog, rollback_log_of_done hq hfailed]
  · have hnotFailed : ∀ after, q middle final ≠ .done .failure after := not_exists.mp hfailed
    have hbranch : behind first (either q r) middle final = behind first q middle final :=
      andThen_congr (either_of_not_failed hnotFailed)
    rw [either_of_not_failed, hboth, hbranch]
    intro after hbothFailed
    rw [hboth] at hbothFailed
    exact hfailed (failed_of_behind hbothFailed)

/-- Two alternatives behind the same parser come to the same end as a choice behind one run of
it. -/
theorem ending?_either_both (hp : Repeatable p) (hq : Framed q) (hr : Approximates r r)
    (place : Place) (journal : Journal) :
    (either (both p q) (both p r) place journal).ending? =
      (both p (either q r) place journal).ending? := by
  cases hrun : p place journal with
  | faulted fault final => simp only [either, both, andThen, bind_apply, mark, hrun]
  | unfinished => simp only [either, both, andThen, bind_apply, mark, hrun]
  | done reply final =>
    by_cases hfailure : reply = .failure
    · subst hfailure
      obtain ⟨again, hagain, hlog⟩ := hp.again hrun (rollback_log_of_done hp.framed hrun)
      have hboth : both p q place journal = .done .failure final := andThen_of_failed hrun
      rw [either_of_failed hboth, both_eq, andThen_of_failed hagain, both_eq,
        andThen_of_failed hrun]
      simp only [Outcome.ending?, hlog]
    · cases hparts : reply.parts with
      | ok parts =>
        have hright : both p (either q r) place journal =
            behind parts.2 (either q r) parts.1 final :=
          andThen_of_parts hrun hparts
        rw [hright]
        exact ending?_either_both_of_parts hp hq hr hrun hparts
      | error fault =>
        have hfaulted (q : Parse) : both p q place journal = .faulted fault final :=
          andThen_of_no_parts hrun hfailure hparts
        rw [either_of_not_failed, hfaulted, hfaulted]
        intro after hafter
        rw [hfaulted] at hafter
        cases hafter

/-- A parser that can be run again is no better as an alternative to itself. -/
theorem ending?_either_self (hp : Repeatable p) (place : Place) (journal : Journal) :
    (either p p place journal).ending? = (p place journal).ending? := by
  by_cases hfailed : ∃ final, p place journal = .done .failure final
  · obtain ⟨final, hrun⟩ := hfailed
    obtain ⟨again, hagain, hlog⟩ := hp.again hrun (rollback_log_of_done hp.framed hrun)
    rw [either_of_failed hrun, hagain, hrun]
    simp only [Outcome.ending?, hlog]
  · rw [either_of_not_failed (not_exists.mp hfailed)]

end Parse

namespace Grammar

/-- Every grammar can be run again. -/
theorem repeatable_eval (definitions : Definitions) (bound : Nat) (scope : Scope) (p : Grammar) :
    Parse.Repeatable (p.eval definitions bound scope) where
  framed := framed_eval definitions bound scope p
  approximates := approximates_eval_of_le (Nat.le_refl bound) scope p

/-- Left factoring is sound. Two alternatives that begin with the same parser come to the same end
as that parser followed by a choice between what follows it: the same reply or fault with the same
log, or no end within the bound. And a parser as an alternative to itself comes to the same end as
the parser. This is so for any grammars in any scope, at any place, and whatever has been logged and
built before. -/
theorem left_factoring (definitions : Definitions) (bound : Nat) (scope : Scope) (p q r : Grammar)
    (place : Place) (journal : Journal) :
    ((either (both p q) (both p r)).eval definitions bound scope place journal).ending? =
        ((both p (either q r)).eval definitions bound scope place journal).ending? ∧
      ((either p p).eval definitions bound scope place journal).ending? =
        (p.eval definitions bound scope place journal).ending? := by
  cases bound with
  | zero => exact ⟨rfl, rfl⟩
  | succ bound =>
    have hp := repeatable_eval definitions (bound + 1) scope p
    have hq := repeatable_eval definitions (bound + 1) scope q
    have hr := repeatable_eval definitions (bound + 1) scope r
    constructor
    · exact Parse.ending?_either_both hp hq.framed hr.approximates place journal
    · exact Parse.ending?_either_self hp place journal

end Grammar

end DiagnosticParsing
