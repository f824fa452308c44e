import DiagnosticParsing.Grammar.Characters
import DiagnosticParsing.Proofs.LogDiscipline

/-!
# Why a parse failed

A parser that fails says why: the last message that it leaves in the log is an error of its own
(`Discipline.explained`). A parser without messages of its own says it once: a failure leaves that
error and nothing else, and a success leaves nothing (`Discipline.terse`). The second is what makes
the first useful, as the attempts that a parser has given up leave no trace.

`Grammar.GivesReasons` leaves out the three constructors that fail without a message, and
`Grammar.GivesOnlyReasons` also those that log on their own account or keep what a failed part has
logged. The conclusion is `Grammar.failure_explained`. The empty choice is the silent failure, but
the one that stands in an operator level without operators before or behind an operand does no harm,
as `optional` puts a success in its place (`Grammar.everywhere_expression`).
-/

set_option autoImplicit false

namespace DiagnosticParsing

/-! ### The two disciplines -/

namespace Discipline

/-- A failure ends with an error. -/
def explained : Discipline where
  accepts failed added :=
    failed = true → ∃ earlier message, added = earlier ++ [message] ∧ message.severity = .error
  silence := fun hfailed ↦ nomatch hfailed
  complaint := fun message hseverity _ ↦ ⟨[], message, rfl, hseverity⟩
  append := by
    intro failed added more _ hmore hfailed
    obtain ⟨earlier, message, hmessages, hseverity⟩ := hmore hfailed
    exact ⟨added ++ earlier, message, by rw [hmessages, List.append_assoc], hseverity⟩

/-- A failure leaves exactly one error, and anything else leaves nothing. -/
def terse : Discipline where
  accepts
    | true, added => ∃ message, added = [message] ∧ message.severity = .error
    | false, added => added = []
  silence := rfl
  complaint := fun message hseverity ↦ ⟨message, rfl, hseverity⟩
  append := by
    intro failed added more hadded hmore
    rw [show added = [] from hadded]
    exact hmore

end Discipline

/-! ### Grammars that give reasons -/

namespace Grammar

/-- The grammar itself never fails without a message. -/
def GivesReasons : Grammar → Prop
  | .empty | .mapOption _ _ | .reply _ => False
  | _ => True

/-- The grammar itself logs nothing but the reason of its failure. -/
def GivesOnlyReasons : Grammar → Prop
  | .annotate _ _ _ | .label _ _ | .recover _ _ => False
  | p => p.GivesReasons

/-- A grammar that gives nothing but reasons gives reasons. -/
theorem GivesOnlyReasons.givesReasons {p : Grammar} (hp : p.GivesOnlyReasons) :
    p.GivesReasons := by
  cases p with
  | annotate severity p text => exact hp.elim
  | label p name => exact hp.elim
  | recover p default => exact hp.elim
  | _ => exact hp

/-- Every constructor that gives reasons ends a failure with an error: those that log more either
do it in front of the part that failed or end with an error of their own. -/
theorem GivesReasons.permits {p : Grammar} (hp : p.GivesReasons) :
    Discipline.explained.Permits p := by
  cases p with
  | empty => exact hp.elim
  | mapOption p f => exact hp.elim
  | reply answer => exact hp.elim
  | annotate severity p text =>
    intro failed added message _ hadded hfailed
    obtain ⟨earlier, last, hmessages, hseverity⟩ := hadded hfailed
    exact ⟨message :: earlier, last, by rw [hmessages, List.cons_append], hseverity⟩
  | label p name => exact fun added message hseverity _ _ ↦ ⟨added, message, rfl, hseverity⟩
  | recover p default => exact fun _ _ hfailed ↦ nomatch hfailed
  | _ => trivial

theorem GivesOnlyReasons.permits {p : Grammar} (hp : p.GivesOnlyReasons) :
    Discipline.terse.Permits p := by
  cases p with
  | empty => exact hp.elim
  | mapOption p f => exact hp.elim
  | reply answer => exact hp.elim
  | annotate severity p text => exact hp.elim
  | label p name => exact hp.elim
  | recover p default => exact hp.elim
  | _ => trivial

/-- What the levels of an operator table are made of gives reasons only. -/
theorem allowsLevels_givesOnlyReasons : AllowsLevels GivesOnlyReasons where
  succeed := fun _ ↦ trivial
  map := fun _ _ _ ↦ trivial
  bind := fun _ _ _ _ ↦ trivial
  both := fun _ _ ↦ trivial
  either := fun _ _ ↦ trivial
  optional := fun _ ↦ trivial
  chainLeft := fun _ _ ↦ trivial
  chainRight := fun _ _ ↦ trivial

/-- A parse that fails has added messages to the log, the last one an error; it has added that error
alone if the grammar logs nothing but reasons. Assumes: a grammar and definitions that give reasons
everywhere. -/
theorem failure_explained {definitions : Definitions} {p : Grammar}
    (hp : p.Everywhere GivesReasons) (hdefinitions : definitions.Everywhere GivesReasons)
    {bound : Nat} {place : Place} {journal final : Journal}
    (hrun : p.eval definitions bound .top place journal = .done .failure final) :
    (∃ added message, final.log.toList = journal.log.toList ++ added ++ [message] ∧
      message.severity = .error) ∧
    (p.Everywhere GivesOnlyReasons → definitions.Everywhere GivesOnlyReasons →
      ∃ message, final.log.toList = journal.log.toList ++ [message] ∧
        message.severity = .error) := by
  constructor
  · have hobeyed := (Discipline.explained.invariant fun _ hq ↦ GivesReasons.permits hq).eval
      hdefinitions bound .top p trivial hp
    obtain ⟨messages, hlog, haccepts⟩ := hobeyed place journal .failure final hrun
    obtain ⟨added, message, hmessages, hseverity⟩ := haccepts rfl
    exact ⟨added, message, by rw [hlog, hmessages, List.append_assoc], hseverity⟩
  · intro honly hdefinitionsOnly
    have hobeyed := (Discipline.terse.invariant fun _ hq ↦ GivesOnlyReasons.permits hq).eval
      hdefinitionsOnly bound .top p trivial honly
    obtain ⟨messages, hlog, message, hmessages, hseverity⟩ :=
      hobeyed place journal .failure final hrun
    exact ⟨message, by rw [hlog, hmessages], hseverity⟩

/-- An operator that adds, written as zero. -/
def zeroAdds : Operator Grammar :=
  ⟨.leftward, map (char (.int 0)) (Function.const (.operation .add)).call⟩

/-- Sums of ones up to the end of the input. The one level of operators lacks operators before and
behind an operand. -/
def sumOfOnes : Grammar :=
  left (expression [[zeroAdds]] (char (.int 1))) eof

theorem givesOnlyReasons_sumOfOnes : sumOfOnes.Everywhere GivesOnlyReasons := by
  refine ⟨trivial, everywhere_expression allowsLevels_givesOnlyReasons trivial ?_, trivial⟩
  intro operators hoperators operator hoperator
  rw [List.mem_singleton.mp hoperators] at hoperator
  rw [List.mem_singleton.mp hoperator]
  exact ⟨trivial, trivial⟩

/-- A sum that breaks off is explained by one error: what the dropped operator's missing operand had
to say is gone. -/
theorem failure_explained_sumOfOnes :
    ∃ final : Journal,
      sumOfOnes.eval .none 3 .top
        (.stream none (.start (.tokens (.list #[.int 1, .int 0, .int 1, .int 0]) .row))) .empty =
          .done .failure final ∧
      ∃ message, final.log.toList = Journal.empty.log.toList ++ [message] ∧
        message.severity = .error := by
  have honly := givesOnlyReasons_sumOfOnes
  have hreasons := honly.mono fun _ hq ↦ hq.givesReasons
  have hrun : sumOfOnes.eval .none 3 .top
      (.stream none (.start (.tokens (.list #[.int 1, .int 0, .int 1, .int 0]) .row))) .empty =
        .done .failure (Journal.empty.complain ⟨.error, ⟨3, 0⟩, "expecting end of input."⟩) := rfl
  have hdefinitions (allowed : Grammar → Prop) : Definitions.none.Everywhere allowed :=
    fun _ _ hget ↦ nomatch hget
  have hexplained := failure_explained hreasons (hdefinitions GivesReasons) hrun
  exact ⟨_, hrun, hexplained.2 honly (hdefinitions GivesOnlyReasons)⟩

end Grammar

end DiagnosticParsing
