import DiagnosticParsing.Grammar.Characters
import DiagnosticParsing.Proofs.LogDiscipline
import DiagnosticParsing.Proofs.LogFrame

/-!
# Successful parses are silent

A parser without messages of its own that succeeds leaves the log as it found it, however many
attempts have failed on the way: whoever goes on after a failure takes back what the failed attempt
has logged. What a failure leaves is left open (`Discipline.quiet`), and this is why parsers that
fail without a word, or say more than once what went wrong, do no harm here.

Two constructors are left out (`Grammar.SucceedsSilently`): an annotation logs at will, and a
recovery keeps what a failure has logged. The conclusion is `Grammar.success_silent`.
-/

set_option autoImplicit false

namespace DiagnosticParsing

/-- A parser that did not fail leaves nothing. -/
def Discipline.quiet : Discipline where
  accepts failed added := failed = false → added = []
  silence := fun _ ↦ rfl
  complaint := fun _ _ hfailed ↦ nomatch hfailed
  append := by
    intro failed added more hadded hmore hfailed
    rw [hadded rfl, hmore hfailed, List.append_nil]

namespace Grammar

/-- The grammar itself logs nothing that stays when it succeeds. -/
def SucceedsSilently : Grammar → Prop
  | .annotate _ _ _ | .recover _ _ => False
  | _ => True

/-- Every constructor that succeeds silently is permitted: those that turn a success into a failure,
or add to the messages of a failure, have nothing to show for a success. -/
theorem SucceedsSilently.permits {p : Grammar} (hp : p.SucceedsSilently) :
    Discipline.quiet.Permits p := by
  cases p with
  | annotate severity p text => exact hp.elim
  | recover p default => exact hp.elim
  | empty => exact fun hfailed ↦ nomatch hfailed
  | reply answer => exact fun _ ↦ rfl
  | mapOption p f => exact fun _ _ hfailed ↦ nomatch hfailed
  | label p name => exact fun _ _ _ _ hfailed ↦ nomatch hfailed
  | _ => trivial

/-- What the levels of an operator table are made of succeeds silently. -/
theorem allowsLevels_succeedsSilently : AllowsLevels SucceedsSilently where
  succeed := fun _ ↦ trivial
  map := fun _ _ _ ↦ trivial
  bind := fun _ _ _ _ ↦ trivial
  both := fun _ _ ↦ trivial
  either := fun _ _ ↦ trivial
  optional := fun _ ↦ trivial
  chainLeft := fun _ _ ↦ trivial
  chainRight := fun _ _ ↦ trivial

/-- A parse that succeeds leaves the log as it was. Assumes: a grammar and definitions without
annotations and recoveries. -/
theorem success_silent {definitions : Definitions} {p : Grammar}
    (hp : p.Everywhere SucceedsSilently) (hdefinitions : definitions.Everywhere SucceedsSilently)
    {bound : Nat} {place : Place} {journal final : Journal} {reply : Reply}
    (hrun : p.eval definitions bound .top place journal = .done reply final)
    (hsuccess : reply ≠ .failure) : final.log = journal.log := by
  have hobeyed := (Discipline.quiet.invariant fun _ hq ↦ SucceedsSilently.permits hq).eval
    hdefinitions bound .top p trivial hp
  obtain ⟨added, hlog, haccepts⟩ := hobeyed place journal reply final hrun
  have hfailed : reply.failed = false := by
    cases reply with
    | failure => exact absurd rfl hsuccess
    | success rest value => rfl
    | malformed v => rfl
  apply Log.ext_toList
  rw [hlog, haccepts hfailed, List.append_nil]

/-- An operator that adds, written as zero and named in what is said about its absence. -/
def namedPlus : Operator Grammar :=
  ⟨.leftward, label (map (char (.int 0)) (Function.const (.operation .add)).call) "plus"⟩

/-- Sums of ones, each one not followed by another one. -/
def sumOfLoneOnes : Grammar :=
  expression [[namedPlus]] (left (label (char (.int 1)) "one") (notFollowedBy (char (.int 1))))

theorem succeedsSilently_sumOfLoneOnes : sumOfLoneOnes.Everywhere SucceedsSilently := by
  refine everywhere_expression allowsLevels_succeedsSilently
    ⟨trivial, ⟨trivial, trivial⟩, trivial, trivial⟩ ?_
  intro operators hoperators operator hoperator
  rw [List.mem_singleton.mp hoperators] at hoperator
  rw [List.mem_singleton.mp hoperator]
  exact ⟨trivial, trivial, trivial⟩

/-- A sum stops in front of an operator whose operand is followed by what must not follow it. The
log holds one earlier message and nothing else: the operator, the operand, what followed the operand
and each absence of an operator have been taken back. -/
theorem success_silent_sumOfLoneOnes :
    ∃ final : Journal,
      sumOfLoneOnes.eval .none 3 .top
        (.stream none (.start (.tokens (.list #[.int 1, .int 0, .int 1, .int 0, .int 1, .int 1])
          .row)))
        (Journal.empty.complain ⟨.info, ⟨0, 0⟩, "begin"⟩) =
          .done (.success (.fresh ⟨.tokens (.list #[.int 1, .int 0, .int 1, .int 0, .int 1, .int 1])
            .row, 3, ⟨3, 0⟩⟩) (.int 2)) final ∧
      final.log = (Journal.empty.complain ⟨.info, ⟨0, 0⟩, "begin"⟩).log := by
  have hdefinitions : Definitions.none.Everywhere SucceedsSilently :=
    Definitions.everywhere_none _
  have hrun : sumOfLoneOnes.eval .none 3 .top
      (.stream none (.start (.tokens (.list #[.int 1, .int 0, .int 1, .int 0, .int 1, .int 1])
        .row)))
      (Journal.empty.complain ⟨.info, ⟨0, 0⟩, "begin"⟩) =
        .done (.success (.fresh ⟨.tokens (.list #[.int 1, .int 0, .int 1, .int 0, .int 1, .int 1])
          .row, 3, ⟨3, 0⟩⟩) (.int 2)) (Journal.empty.complain ⟨.info, ⟨0, 0⟩, "begin"⟩) := rfl
  exact ⟨_, hrun, success_silent succeedsSilently_sumOfLoneOnes hdefinitions hrun (by simp)⟩

end Grammar

end DiagnosticParsing
