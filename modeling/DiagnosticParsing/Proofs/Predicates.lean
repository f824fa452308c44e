import DiagnosticParsing.Proofs.Endings.Parsers

/-!
# Predicates

A grammar can be asked for without consuming anything. One predicate succeeds where the grammar does
(`lookAhead`), the other one where it fails (`notFollowedBy`). Where the grammar comes to an end
without a fault, exactly one of the two succeeds:

* Where the grammar gives a value, looking ahead has this value, leaves the stream where it was and
  keeps what the grammar logged. The negative predicate fails and leaves the log from before with
  one error behind it, which is about the position where it started.
* Where the grammar fails, looking ahead fails. The negative predicate succeeds, leaves the stream
  where it was and leaves the log from before.

So a choice between two sequences, each behind one of the predicates, is a conditional
(`Grammar.conditional`): it has the reply of the first parser in the one case, also when that parser
fails, and the reply of the second one in the other. The grammar is run again before the second
sequence, and it must fail or succeed as it did before. It does, since the log that a grammar starts
with has no influence on how it ends, and no more have the deferred parsers built before. The
negative predicate takes back what the grammar logged and nothing else, which is the log it started
with (`Grammar.EndsWith.rollback`), and adds one message of its own when it fails
(`Grammar.endsWith_notFollowedBy`). Denied twice, the grammar succeeds where looking ahead does. The
main result is `Grammar.complementary_predicates`.
-/

set_option autoImplicit false

namespace DiagnosticParsing

namespace Run

variable {α : Type} {log : Log} {ending : Except Fault α × Log}

/-- A run that takes a mark first takes that of the log it starts with. -/
theorem endsWith_mark_bind {next : Nat → Nat → Run α} :
    EndsWith (fun bound ↦ mark >>= next bound) log ending ↔
      EndsWith (fun bound ↦ next bound log.mark) log ending := by
  refine exists_congr fun bound ↦ forall₂_congr fun journal hlog ↦ ?_
  subst hlog
  exact Iff.rfl

/-- What comes behind a rollback starts with the log rolled back. -/
theorem endsWith_rollback_bind {next : Nat → Run α} {mark : Nat} :
    EndsWith (fun bound ↦ do rollback mark; next bound) log ending ↔
      EndsWith next (log.rollback mark) ending := by
  refine exists_congr fun bound ↦ ⟨fun h journal hlog ↦ ?_, fun h journal hlog ↦ ?_⟩
  · obtain ⟨_, notes, built⟩ := journal
    obtain rfl := hlog
    exact h ⟨log, notes, built⟩ rfl
  · exact h (journal.rollback mark) (by rw [← hlog]; rfl)

end Run

namespace Parse

open Run (ofExcept)

/-- What is replied where a parser should fail: its success is an error. -/
def refuse (place : Place) : Reply → Run Reply
  | .failure => pure (.success place .null)
  | reply => do
    let value ← ofExcept reply.second
    giveUp place ("unexpected " ++ value.repr ++ ".")

theorem notFollowedBy_apply (p : Parse) (place : Place) :
    notFollowedBy p place = (do
      let mark ← Run.mark
      let reply ← p place
      Run.rollback mark
      refuse place reply) := by
  unfold notFollowedBy refuse
  rfl

theorem approximates_refuse (place : Place) (reply : Reply) :
    (refuse place reply).Approximates (refuse place reply) := by
  cases reply with
  | failure => exact Run.approximates_pure _
  | _ => exact (Run.approximates_ofExcept _).bind fun _ ↦
      Run.approximates_congruence.giveUp _ _

end Parse

namespace Grammar

variable {definitions : Definitions} {scope : Scope} {p q r : Grammar} {place rest : Place}
  {slot : Option Nat} {stream : Stream} {log log' middle : Log} {value : Value} {reply : Reply}

/-- A rollback to where a grammar started takes back what it logged, and nothing from before. -/
theorem EndsWith.rollback {outcome : Except Fault Reply}
    (h : p.EndsWith definitions scope place log (outcome, log')) :
    log'.rollback log.mark = log := by
  obtain ⟨_, messages, -, hending⟩ := endsWith_after.mp h
  obtain ⟨-, rfl⟩ := Prod.mk.inj hending
  exact Log.rollback_mark_append log messages

/-! ### The rules -/

theorem endsWith_lookAhead (hp : p.Proper definitions scope) :
    (lookAhead p).EndsWith definitions scope place log (.ok reply, log') ↔
      (reply = .failure ∧ p.Fails definitions scope place log log') ∨
        ∃ value rest, reply = .success place value ∧
          p.Gives definitions scope place log value rest log' := by
  have heval (bound : Nat) : (lookAhead p).eval definitions (bound + 1) scope place =
      Parse.andThen (p.eval definitions (bound + 1) scope)
        (fun _ value ↦ pure (.success place value)) place :=
    Parse.lookAhead_eq (hp (bound + 1)) place
  have hlast (_ : Place) (value : Value) :
      Run.Growing fun _ ↦ (pure (.success place value) : Run Reply) :=
    growing_pure _
  rw [endsWith_eval_succ]
  simp only [heval, endsWith_andThen hlast, Run.endsWith_pure, Prod.mk.injEq, Except.ok.injEq]
  refine or_congr_right (exists_congr fun value ↦ exists_congr fun rest ↦ ?_)
  constructor
  · rintro ⟨_, hgives, rfl, rfl⟩
    exact ⟨rfl, hgives⟩
  · rintro ⟨rfl, hgives⟩
    exact ⟨log', hgives, rfl, rfl⟩

theorem proper_lookAhead (definitions : Definitions) (scope : Scope) (p : Grammar) :
    (lookAhead p).Proper definitions scope :=
  proper_of_succ fun _ ↦ Parse.proper_lookAhead _

theorem gives_lookAhead (hp : p.Proper definitions scope) :
    (lookAhead p).Gives definitions scope place log value rest log' ↔
      rest = place ∧ ∃ last, p.Gives definitions scope place log value last log' := by
  rw [← endsWith_success (proper_lookAhead definitions scope p), endsWith_lookAhead hp]
  simp only [reduceCtorEq, false_and, false_or, Reply.success.injEq]
  constructor
  · rintro ⟨_, last, ⟨rfl, rfl⟩, hgives⟩
    exact ⟨rfl, last, hgives⟩
  · rintro ⟨rfl, last, hgives⟩
    exact ⟨value, last, ⟨rfl, rfl⟩, hgives⟩

theorem fails_lookAhead (hp : p.Proper definitions scope) :
    (lookAhead p).Fails definitions scope place log log' ↔
      p.Fails definitions scope place log log' := by
  rw [Fails, endsWith_lookAhead hp]
  simp

/-- What is logged where a value was found that should not be there. -/
def unexpected (stream : Stream) (value : Value) : Message :=
  ⟨.error, stream.position, "unexpected " ++ value.repr ++ "."⟩

theorem endsWith_refuse_success {ending : Except Fault Reply × Log} :
    Run.EndsWith (fun _ ↦ Parse.refuse (.stream slot stream) (.success rest value)) log ending ↔
      ending = (.ok .failure, log.add (unexpected stream value)) :=
  Run.endsWith_of_step (·.add (unexpected stream value)) fun _ ↦ rfl

/-- The negative predicate succeeds with the log from before where the grammar fails, and fails with
one message of its own where the grammar gives a value. -/
theorem endsWith_notFollowedBy (hp : p.Proper definitions scope) :
    (notFollowedBy p).EndsWith definitions scope (.stream slot stream) log (.ok reply, log') ↔
      (reply = .success (.stream slot stream) .null ∧ log' = log ∧
        ∃ middle, p.Fails definitions scope (.stream slot stream) log middle) ∨
      (reply = .failure ∧ ∃ value rest middle, log' = log.add (unexpected stream value) ∧
        p.Gives definitions scope (.stream slot stream) log value rest middle) := by
  have heval (bound : Nat) :
      (notFollowedBy p).eval definitions (bound + 1) scope (.stream slot stream) = (do
        let mark ← Run.mark
        let reply ← p.eval definitions (bound + 1) scope (.stream slot stream)
        Run.rollback mark
        Parse.refuse (.stream slot stream) reply) :=
    Parse.notFollowedBy_apply _ _
  have hrefuse (mark : Nat) (first : Reply) : Run.Growing fun _ ↦ (do
      Run.rollback mark
      Parse.refuse (.stream slot stream) first) :=
    Run.growing_const ((Run.approximates_rollback mark).bind fun _ ↦
      Parse.approximates_refuse (.stream slot stream) first)
  rw [endsWith_eval_succ]
  simp only [heval]
  -- The mark is that of the log from before, so that the rollback leaves this log to what follows.
  rw [Run.endsWith_mark_bind,
    Run.endsWith_bind (growing_eval definitions scope p _).succ (hrefuse log.mark)]
  simp only [← endsWith_eval_succ, Run.endsWith_rollback_bind]
  constructor
  · rintro (⟨fault, middle, -, hending⟩ | ⟨first, middle, hfirst, hlast⟩)
    · exact nomatch hending
    · rw [hfirst.rollback] at hlast
      rcases (endsWith_ok hp).mp hfirst with ⟨rfl, hfails⟩ | ⟨rest, value, rfl, hgives⟩
      · obtain ⟨hreply, rfl⟩ := Prod.mk.inj ((Run.endsWith_pure _).mp hlast)
        exact .inl ⟨Except.ok.inj hreply, rfl, middle, hfails⟩
      · obtain ⟨hreply, rfl⟩ := Prod.mk.inj (endsWith_refuse_success.mp hlast)
        exact .inr ⟨Except.ok.inj hreply, value, rest, middle, rfl, hgives⟩
  · rintro (⟨rfl, rfl, middle, hfails⟩ | ⟨rfl, value, rest, middle, rfl, hgives⟩)
    · refine .inr ⟨.failure, middle, hfails, ?_⟩
      rw [EndsWith.rollback hfails]
      exact (Run.endsWith_pure _).mpr rfl
    · have hfirst := (endsWith_success hp).mpr hgives
      refine .inr ⟨.success rest value, middle, hfirst, ?_⟩
      rw [hfirst.rollback]
      exact endsWith_refuse_success.mpr rfl

theorem proper_notFollowedBy (definitions : Definitions) (scope : Scope) (p : Grammar) :
    (notFollowedBy p).Proper definitions scope :=
  proper_of_succ fun _ ↦ Parse.proper_notFollowedBy _

theorem gives_notFollowedBy (hp : p.Proper definitions scope) :
    (notFollowedBy p).Gives definitions scope (.stream slot stream) log value rest log' ↔
      rest = .stream slot stream ∧ value = .null ∧ log' = log ∧
        ∃ middle, p.Fails definitions scope (.stream slot stream) log middle := by
  rw [← endsWith_success (proper_notFollowedBy definitions scope p), endsWith_notFollowedBy hp]
  simp only [reduceCtorEq, false_and, or_false, Reply.success.injEq, and_assoc]

theorem fails_notFollowedBy (hp : p.Proper definitions scope) :
    (notFollowedBy p).Fails definitions scope (.stream slot stream) log log' ↔
      ∃ value rest middle, log' = log.add (unexpected stream value) ∧
        p.Gives definitions scope (.stream slot stream) log value rest middle := by
  rw [Fails, endsWith_notFollowedBy hp]
  simp

/-! ### Conditionals -/

/-- The messages from before have no influence on the reply. -/
theorem exists_endsWith_congr (p : Grammar) (place : Place) (reply : Reply) (log middle : Log) :
    (∃ log', p.EndsWith definitions scope place log (.ok reply, log')) ↔
      ∃ log', p.EndsWith definitions scope place middle (.ok reply, log') := by
  have hsame (first second : Log)
      (h : ∃ log', p.EndsWith definitions scope place first (.ok reply, log')) :
      ∃ log', p.EndsWith definitions scope place second (.ok reply, log') := by
    obtain ⟨log', hends⟩ := h
    obtain ⟨_, messages, halone, hending⟩ := endsWith_after.mp hends
    obtain ⟨rfl, -⟩ := Prod.mk.inj hending
    exact ⟨second ++ messages, endsWith_after.mpr ⟨_, messages, halone, rfl⟩⟩
  exact ⟨hsame log middle, hsame middle log⟩

/-- One parser where a grammar succeeds, another one where it fails. -/
def conditional (p q r : Grammar) : Grammar :=
  either (right (lookAhead p) q) (right (notFollowedBy p) r)

/-- Behind looking ahead, a parser starts where the grammar did, with what that one logged. -/
theorem endsWith_right_lookAhead (hp : p.Proper definitions scope) :
    (right (lookAhead p) q).EndsWith definitions scope place log (.ok reply, log') ↔
      (reply = .failure ∧ p.Fails definitions scope place log log') ∨
        ∃ value rest middle, p.Gives definitions scope place log value rest middle ∧
          q.EndsWith definitions scope place middle (.ok reply, log') := by
  rw [endsWith_right (proper_lookAhead definitions scope p), fails_lookAhead hp]
  simp only [gives_lookAhead hp]
  refine or_congr_right (exists_congr fun value ↦ ?_)
  constructor
  · rintro ⟨_, middle, ⟨rfl, rest, hgives⟩, hq⟩
    exact ⟨rest, middle, hgives, hq⟩
  · rintro ⟨rest, middle, hgives, hq⟩
    exact ⟨place, middle, ⟨rfl, rest, hgives⟩, hq⟩

/-- Behind the negative predicate, a parser starts where the grammar did, with the log from before.
-/
theorem endsWith_right_notFollowedBy (hp : p.Proper definitions scope) :
    (right (notFollowedBy p) q).EndsWith definitions scope (.stream slot stream) log
        (.ok reply, log') ↔
      (reply = .failure ∧ ∃ value rest middle, log' = log.add (unexpected stream value) ∧
        p.Gives definitions scope (.stream slot stream) log value rest middle) ∨
      ∃ middle, p.Fails definitions scope (.stream slot stream) log middle ∧
        q.EndsWith definitions scope (.stream slot stream) log (.ok reply, log') := by
  rw [endsWith_right (proper_notFollowedBy definitions scope p), fails_notFollowedBy hp]
  simp only [gives_notFollowedBy hp]
  refine or_congr_right ?_
  constructor
  · rintro ⟨_, _, _, ⟨rfl, -, rfl, middle, hfails⟩, hq⟩
    exact ⟨middle, hfails, hq⟩
  · rintro ⟨middle, hfails, hq⟩
    exact ⟨.null, _, log, ⟨rfl, rfl, rfl, middle, hfails⟩, hq⟩

/-- Where the grammar succeeds, the conditional has the reply of the first parser. When that one
fails too, the negative predicate keeps the second one from being run. -/
theorem endsWith_conditional_of_gives (hp : p.Proper definitions scope) (q r : Grammar)
    (hgives : p.Gives definitions scope (.stream slot stream) log value rest middle) :
    (∃ log', (conditional p q r).EndsWith definitions scope (.stream slot stream) log
        (.ok reply, log')) ↔
      ∃ log', q.EndsWith definitions scope (.stream slot stream) log (.ok reply, log') := by
  constructor
  · rintro ⟨log', hends⟩
    rcases endsWith_either.mp hends with ⟨hnotFailed, hfirst⟩ | ⟨last, hfirst, hsecond⟩
    · rcases (endsWith_right_lookAhead hp).mp hfirst with ⟨rfl, -⟩ | ⟨_, _, log₁, -, hq⟩
      · exact absurd rfl (hnotFailed log')
      · exact (exists_endsWith_congr q _ reply log₁ log).mp ⟨log', hq⟩
    · rcases (endsWith_right_notFollowedBy hp).mp hsecond with ⟨rfl, -⟩ | ⟨_, hfails, -⟩
      · rcases (endsWith_right_lookAhead hp).mp hfirst with ⟨-, hfails⟩ | ⟨_, _, log₁, -, hq⟩
        · exact absurd hfails hgives.not_fails
        · exact (exists_endsWith_congr q _ .failure log₁ log).mp ⟨last, hq⟩
      · exact absurd hfails hgives.not_fails
  · intro hq
    obtain ⟨log', hq⟩ := (exists_endsWith_congr q _ reply log middle).mp hq
    have hfirst : (right (lookAhead p) q).EndsWith definitions scope (.stream slot stream) log
        (.ok reply, log') :=
      (endsWith_right_lookAhead hp).mpr (.inr ⟨value, rest, middle, hgives, hq⟩)
    by_cases hreply : reply = .failure
    · subst hreply
      -- The second sequence is tried too, and the grammar succeeds again in front of it.
      have hsecond : (right (notFollowedBy p) r).Fails definitions scope (.stream slot stream) log
          (log.add (unexpected stream value)) :=
        (endsWith_right_notFollowedBy hp).mpr (.inl ⟨rfl, value, rest, middle, rfl, hgives⟩)
      exact ⟨_, endsWith_either_of_fails hfirst hsecond⟩
    · exact ⟨log', endsWith_either_of_not_failed
        (fun last heq ↦ hreply (Except.ok.inj (Prod.mk.inj heq).1)) hfirst⟩

/-- Where the grammar fails, the conditional ends as the second parser does. -/
theorem endsWith_conditional_of_fails (hp : p.Proper definitions scope) (q r : Grammar)
    (hfails : p.Fails definitions scope (.stream slot stream) log middle) :
    (conditional p q r).EndsWith definitions scope (.stream slot stream) log (.ok reply, log') ↔
      r.EndsWith definitions scope (.stream slot stream) log (.ok reply, log') := by
  constructor
  · intro hends
    rcases endsWith_either.mp hends with ⟨hnotFailed, hfirst⟩ | ⟨last, -, hsecond⟩
    · rcases (endsWith_right_lookAhead hp).mp hfirst with ⟨rfl, -⟩ | ⟨_, _, _, hgives, -⟩
      · exact absurd rfl (hnotFailed log')
      · exact absurd hfails hgives.not_fails
    · rcases (endsWith_right_notFollowedBy hp).mp hsecond with
        ⟨-, value, rest, middle', -, hgives⟩ | ⟨_, -, hr⟩
      · exact absurd hfails hgives.not_fails
      · exact hr
  · intro hr
    have hfirst :
        (right (lookAhead p) q).Fails definitions scope (.stream slot stream) log middle :=
      (endsWith_right_lookAhead hp).mpr (.inl ⟨rfl, hfails⟩)
    have hsecond : (right (notFollowedBy p) r).EndsWith definitions scope (.stream slot stream) log
        (.ok reply, log') :=
      (endsWith_right_notFollowedBy hp).mpr (.inr ⟨middle, hfails, hr⟩)
    exact endsWith_either_of_fails hfirst hsecond

/-! ### Complements -/

/-- Run at a place with this log, the grammar succeeds. -/
def Succeeds (definitions : Definitions) (scope : Scope) (p : Grammar) (place : Place) (log : Log) :
    Prop :=
  ∃ value rest log', p.Gives definitions scope place log value rest log'

theorem succeeds_lookAhead (hp : p.Proper definitions scope) :
    (lookAhead p).Succeeds definitions scope place log ↔
      p.Succeeds definitions scope place log := by
  simp only [Succeeds, gives_lookAhead hp]
  constructor
  · rintro ⟨value, _, log', -, last, hgives⟩
    exact ⟨value, last, log', hgives⟩
  · rintro ⟨value, last, log', hgives⟩
    exact ⟨value, place, log', rfl, last, hgives⟩

theorem succeeds_notFollowedBy (hp : p.Proper definitions scope) :
    (notFollowedBy p).Succeeds definitions scope (.stream slot stream) log ↔
      ∃ middle, p.Fails definitions scope (.stream slot stream) log middle := by
  simp only [Succeeds, gives_notFollowedBy hp]
  constructor
  · rintro ⟨_, _, _, -, -, -, hfails⟩
    exact hfails
  · exact fun hfails ↦ ⟨.null, _, log, rfl, rfl, rfl, hfails⟩

/-- Denied twice, a grammar is asked for. -/
theorem succeeds_notFollowedBy_notFollowedBy (hp : p.Proper definitions scope) :
    (notFollowedBy (notFollowedBy p)).Succeeds definitions scope (.stream slot stream) log ↔
      p.Succeeds definitions scope (.stream slot stream) log := by
  rw [succeeds_notFollowedBy (proper_notFollowedBy definitions scope p)]
  simp only [fails_notFollowedBy hp]
  constructor
  · rintro ⟨_, value, rest, middle, -, hgives⟩
    exact ⟨value, rest, middle, hgives⟩
  · rintro ⟨value, rest, middle, hgives⟩
    exact ⟨_, value, rest, middle, rfl, hgives⟩

/-- Where a grammar ends without a fault, one predicate succeeds and the other one does not. -/
theorem succeeds_lookAhead_iff_not (hp : p.Proper definitions scope)
    (hends : p.EndsWith definitions scope (.stream slot stream) log (.ok reply, middle)) :
    (lookAhead p).Succeeds definitions scope (.stream slot stream) log ↔
      ¬(notFollowedBy p).Succeeds definitions scope (.stream slot stream) log := by
  rw [succeeds_lookAhead hp, succeeds_notFollowedBy hp]
  constructor
  · rintro ⟨value, rest, log', hgives⟩ ⟨last, hfails⟩
    exact hgives.not_fails hfails
  · intro hnot
    rcases (endsWith_ok hp).mp hends with ⟨rfl, hfails⟩ | ⟨rest, value, rfl, hgives⟩
    · exact absurd ⟨middle, hfails⟩ hnot
    · exact ⟨value, rest, middle, hgives⟩

/-- The two predicates are complementary, at any place on a stream and with any log: where the
grammar ends without a fault one of them succeeds, and a choice between what stands behind them is a
conditional. The log that the negative predicate leaves is the one from before, or that with one
error. Assumes: a grammar whose replies are proper, as all are that are built without a parse
function that answers otherwise. -/
theorem complementary_predicates (hp : p.Proper definitions scope) (q r : Grammar)
    (slot : Option Nat) (stream : Stream) (log : Log) :
    (∀ reply middle,
      p.EndsWith definitions scope (.stream slot stream) log (.ok reply, middle) →
        ((lookAhead p).Succeeds definitions scope (.stream slot stream) log ↔
          ¬(notFollowedBy p).Succeeds definitions scope (.stream slot stream) log)) ∧
    (∀ value rest middle,
      p.Gives definitions scope (.stream slot stream) log value rest middle →
        (lookAhead p).EndsWith definitions scope (.stream slot stream) log
          (.ok (.success (.stream slot stream) value), middle) ∧
        (notFollowedBy p).EndsWith definitions scope (.stream slot stream) log
          (.ok .failure, log.add (unexpected stream value)) ∧
        ∀ reply, (∃ log', (conditional p q r).EndsWith definitions scope (.stream slot stream) log
            (.ok reply, log')) ↔
          ∃ log', q.EndsWith definitions scope (.stream slot stream) log (.ok reply, log')) ∧
    (∀ middle,
      p.Fails definitions scope (.stream slot stream) log middle →
        (lookAhead p).EndsWith definitions scope (.stream slot stream) log (.ok .failure, middle) ∧
        (notFollowedBy p).EndsWith definitions scope (.stream slot stream) log
          (.ok (.success (.stream slot stream) .null), log) ∧
        ∀ reply log', (conditional p q r).EndsWith definitions scope (.stream slot stream) log
            (.ok reply, log') ↔
          r.EndsWith definitions scope (.stream slot stream) log (.ok reply, log')) ∧
    ((notFollowedBy (notFollowedBy p)).Succeeds definitions scope (.stream slot stream) log ↔
      (lookAhead p).Succeeds definitions scope (.stream slot stream) log) ∧
    ∀ reply log',
      (notFollowedBy p).EndsWith definitions scope (.stream slot stream) log (.ok reply, log') →
        (reply = .success (.stream slot stream) .null ∧ log' = log) ∨
          reply = .failure ∧ ∃ value, log' = log.add (unexpected stream value) := by
  refine ⟨fun reply middle ↦ succeeds_lookAhead_iff_not hp, fun value rest middle hgives ↦ ?_,
    fun middle hfails ↦ ?_, ?_, fun reply log' hends ↦ ?_⟩
  · refine ⟨?_, ?_, fun reply ↦ endsWith_conditional_of_gives hp q r hgives⟩
    · exact (endsWith_lookAhead hp).mpr (.inr ⟨value, rest, rfl, hgives⟩)
    · exact (fails_notFollowedBy hp).mpr ⟨value, rest, middle, rfl, hgives⟩
  · refine ⟨(fails_lookAhead hp).mpr hfails, ?_, fun reply log' ↦
      endsWith_conditional_of_fails hp q r hfails⟩
    exact (endsWith_notFollowedBy hp).mpr (.inl ⟨rfl, rfl, middle, hfails⟩)
  · rw [succeeds_notFollowedBy_notFollowedBy hp, succeeds_lookAhead hp]
  · rcases (endsWith_notFollowedBy hp).mp hends with
      ⟨hreply, hlog, -⟩ | ⟨hreply, value, -, -, hlog, -⟩
    · exact .inl ⟨hreply, hlog⟩
    · exact .inr ⟨hreply, value, hlog⟩

/-- A letter, in front of a text that does not go on as wanted and in front of another letter. -/
theorem complementary_predicates_letter :
    let letter : Grammar := annotate .info (literal (.text "a")) "a letter is next."
    let choice : Grammar := conditional letter (literal (.text "z")) (succeed .null)
    let start : Place := .fresh (.ofText "ab")
    let other : Place := .fresh (.ofText "ba")
    (lookAhead letter).EndsWith .none .top start .empty
        (.ok (.success start (.text "a")), .add .empty ⟨.info, ⟨0, 0⟩, "a letter is next."⟩) ∧
      (notFollowedBy letter).EndsWith .none .top start .empty
        (.ok .failure, .add .empty ⟨.error, ⟨0, 0⟩, "unexpected 'a'."⟩) ∧
      (∃ log', choice.EndsWith .none .top start .empty (.ok .failure, log')) ∧
      (notFollowedBy letter).EndsWith .none .top other .empty (.ok (.success other .null), .empty) ∧
      choice.EndsWith .none .top other .empty (.ok (.success other .null), .empty) := by
  intro letter choice start other
  have hletter : letter.Proper .none .top :=
    proper_of_succ fun _ ↦ Parse.proper_annotate _ _ (Parse.proper_literal _)
  obtain ⟨-, hgives, -⟩ := complementary_predicates hletter (literal (.text "z")) (succeed .null)
    none (.ofText "ab") .empty
  obtain ⟨-, -, hfails, -⟩ := complementary_predicates hletter (literal (.text "z")) (succeed .null)
    none (.ofText "ba") .empty
  have hstart := hgives (.text "a") _ _ ⟨_, endsWith_of_eval 3 .empty rfl, rfl⟩
  have hother := hfails _ (endsWith_of_eval 3 .empty rfl)
  refine ⟨hstart.1, hstart.2.1, (hstart.2.2 .failure).mpr ⟨_, endsWith_of_eval 3 .empty rfl⟩,
    hother.2.1, (hother.2.2 _ _).mpr (endsWith_succeed.mpr rfl)⟩

end Grammar

end DiagnosticParsing
