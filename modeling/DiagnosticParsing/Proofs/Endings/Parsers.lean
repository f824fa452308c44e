import DiagnosticParsing.Proofs.Endings
import DiagnosticParsing.Proofs.Factoring
import DiagnosticParsing.Proofs.ProperReplies
import DiagnosticParsing.Proofs.Sequencing

/-!
# How composed grammars end

Run with a log, a grammar *gives* a value with the rest of the input and the log behind it
(`Grammar.Gives`), or it *fails* with a log (`Grammar.Fails`), or it raises a fault, or it comes to
no end. How a composed grammar ends is told by how its parts do, one rule for each way of composing.
Bounds do not occur in these rules, and neither do marks: an alternative starts with the log that
was there before (`Grammar.endsWith_either`). And the messages from before make no difference to a
grammar, which puts its own behind them (`Grammar.endsWith_after`).
-/

set_option autoImplicit false

namespace DiagnosticParsing

theorem Run.Growing.succ {α : Type} {run : Nat → Run α} (hrun : Growing run) :
    Growing fun bound ↦ run (bound + 1) :=
  fun bound bound' hle ↦ hrun (bound + 1) (bound' + 1) (Nat.succ_le_succ hle)

theorem Outcome.ending?_after {α : Type} (earlier : Log) (outcome : Outcome α) :
    (outcome.after earlier).ending? = outcome.ending?.map (Prod.map id (earlier ++ ·)) := by
  cases outcome <;> rfl

namespace Grammar

open Run (ofExcept ofCall)

/-! ### Successes and failures -/

/-- Run at a place with this log, the grammar succeeds: with a value, the rest of the input, and the
log as it then is. -/
def Gives (definitions : Definitions) (scope : Scope) (p : Grammar) (place : Place) (log : Log)
    (value : Value) (rest : Place) (log' : Log) : Prop :=
  ∃ reply : Reply, p.EndsWith definitions scope place log (.ok reply, log') ∧
    reply.parts = .ok (rest, value)

/-- Run at a place with this log, the grammar fails, with the log as it then is. -/
def Fails (definitions : Definitions) (scope : Scope) (p : Grammar) (place : Place)
    (log log' : Log) : Prop :=
  p.EndsWith definitions scope place log (.ok .failure, log')

variable {definitions : Definitions} {scope : Scope} {p q : Grammar} {place rest rest' : Place}
  {log log' log'' : Log} {value value' : Value} {reply : Reply}

/-- There is one value, rest and log at most. -/
theorem Gives.unique (h : p.Gives definitions scope place log value rest log')
    (h' : p.Gives definitions scope place log value' rest' log'') :
    value = value' ∧ rest = rest' ∧ log' = log'' := by
  obtain ⟨reply, hends, hparts⟩ := h
  obtain ⟨reply', hends', hparts'⟩ := h'
  obtain ⟨hreply, hlog⟩ := Prod.mk.inj (hends.unique hends')
  rw [Except.ok.inj hreply, hparts'] at hparts
  obtain ⟨hrest, hvalue⟩ := Prod.mk.inj (Except.ok.inj hparts)
  exact ⟨hvalue.symm, hrest.symm, hlog⟩

theorem Gives.not_fails (h : p.Gives definitions scope place log value rest log') :
    ¬p.Fails definitions scope place log log'' := by
  intro hfails
  obtain ⟨reply, hends, hparts⟩ := h
  obtain ⟨hreply, -⟩ := Prod.mk.inj (hends.unique hfails)
  rw [Except.ok.inj hreply] at hparts
  exact nomatch hparts

/-- How a grammar that does not raise a fault can have ended, when its replies are proper. -/
theorem endsWith_ok (hp : p.Proper definitions scope) :
    p.EndsWith definitions scope place log (.ok reply, log') ↔
      (reply = .failure ∧ p.Fails definitions scope place log log') ∨
        ∃ rest value, reply = .success rest value ∧
          p.Gives definitions scope place log value rest log' := by
  constructor
  · intro h
    obtain ⟨bound, hbound⟩ := h
    have hproper : reply.Proper := by
      obtain ⟨final, hdone, -⟩ := Outcome.ending?_eq_ok.mp (hbound ⟨log, #[], ∅⟩ rfl)
      exact hp bound place _ reply final hdone
    cases reply with
    | failure => exact .inl ⟨rfl, bound, hbound⟩
    | success rest value => exact .inr ⟨rest, value, rfl, _, ⟨bound, hbound⟩, rfl⟩
    | malformed v => exact hproper.elim
  · rintro (⟨rfl, hfails⟩ | ⟨rest, value, rfl, hgives⟩)
    · exact hfails
    · obtain ⟨reply, ⟨bound, hbound⟩, hparts⟩ := hgives
      have hproper : reply.Proper := by
        obtain ⟨final, hdone, -⟩ := Outcome.ending?_eq_ok.mp (hbound ⟨log, #[], ∅⟩ rfl)
        exact hp bound place _ reply final hdone
      cases reply with
      | failure => exact nomatch hparts
      | malformed v => exact hproper.elim
      | success rest' value' =>
        obtain ⟨rfl, rfl⟩ := Prod.mk.inj (Except.ok.inj hparts)
        exact ⟨bound, hbound⟩

theorem endsWith_success (hp : p.Proper definitions scope) :
    p.EndsWith definitions scope place log (.ok (.success rest value), log') ↔
      p.Gives definitions scope place log value rest log' := by
  rw [endsWith_ok hp]
  constructor
  · rintro (⟨heq, -⟩ | ⟨rest', value', heq, hgives⟩)
    · exact nomatch heq
    · obtain ⟨rfl, rfl⟩ := Reply.success.inj heq
      exact hgives
  · exact fun hgives ↦ .inr ⟨rest, value, rfl, hgives⟩

/-- Grammars that come to the same ends give the same. -/
theorem SameEnds.gives (h : SameEnds definitions scope p definitions scope q) :
    p.Gives definitions scope place log value rest log' ↔
      q.Gives definitions scope place log value rest log' :=
  exists_congr fun reply ↦ and_congr_left' (h place log (.ok reply, log'))

/-- A grammar comes to the same end whatever has been logged before, and the messages from before
stay in front of its own. -/
theorem endsWith_after {ending : Except Fault Reply × Log} :
    p.EndsWith definitions scope place log ending ↔
      ∃ outcome messages, p.EndsWith definitions scope place .empty (outcome, messages) ∧
        ending = (outcome, log ++ messages) := by
  have hlog : (Journal.after log ⟨.empty, #[], ∅⟩).log = log := Log.append_empty log
  have hframed (bound : Nat) :
      (p.eval definitions bound scope place (Journal.after log ⟨.empty, #[], ∅⟩)).ending? =
        (p.eval definitions bound scope place ⟨.empty, #[], ∅⟩).ending?.map
          (Prod.map id (log ++ ·)) := by
    rw [framed_eval, Outcome.ending?_after]
  constructor
  · rintro ⟨bound, hbound⟩
    have hending := hbound _ hlog
    rw [hframed] at hending
    obtain ⟨⟨outcome, messages⟩, hempty, rfl⟩ := Option.map_eq_some_iff.mp hending
    exact ⟨outcome, messages, endsWith_of_eval bound ⟨.empty, #[], ∅⟩ hempty, rfl⟩
  · rintro ⟨outcome, messages, ⟨bound, hbound⟩, rfl⟩
    rw [← hlog]
    refine endsWith_of_eval bound _ ?_
    rw [hframed, hbound ⟨.empty, #[], ∅⟩ rfl, hlog]
    rfl

/-! ### One parser after another -/

section Sequences

variable {next : Nat → Place → Value → Run Reply} {first : Reply}

theorem growing_follow (hnext : ∀ rest value, Run.Growing fun bound ↦ next bound rest value)
    (first : Reply) : Run.Growing fun bound ↦ Parse.follow (next bound) first := by
  cases first with
  | failure => exact Run.growing_const (Run.approximates_pure _)
  | _ =>
    exact (Run.growing_const (Run.approximates_ofExcept _)).bind fun parts ↦
      hnext parts.1 parts.2

/-- What becomes of a reply that does not end in a fault. -/
theorem endsWith_follow (hnext : ∀ rest value, Run.Growing fun bound ↦ next bound rest value) :
    Run.EndsWith (fun bound ↦ Parse.follow (next bound) first) log (.ok reply, log') ↔
      (first = .failure ∧ reply = .failure ∧ log = log') ∨
        ∃ rest value, first.parts = .ok (rest, value) ∧
          Run.EndsWith (fun bound ↦ next bound rest value) log (.ok reply, log') := by
  have hparts (parts : Except Fault (Place × Value)) :
      Run.EndsWith (fun bound ↦ ofExcept parts >>= fun parts ↦ next bound parts.1 parts.2) log
          (.ok reply, log') ↔
        ∃ rest value, parts = .ok (rest, value) ∧
          Run.EndsWith (fun bound ↦ next bound rest value) log (.ok reply, log') := by
    rw [Run.endsWith_bind (Run.growing_const (Run.approximates_ofExcept parts))
      fun parts ↦ hnext parts.1 parts.2]
    rcases parts with fault | ⟨rest, value⟩ <;> simp [and_assoc]
  cases first with
  | failure => simp [Parse.follow, Reply.parts, eq_comm]
  | success rest value =>
    simp only [Parse.follow, reduceCtorEq, false_and, false_or]
    exact hparts _
  | malformed v =>
    simp only [Parse.follow, reduceCtorEq, false_and, false_or]
    exact hparts _

/-- It makes no difference to count the bound of a grammar from one. -/
theorem endsWith_eval_succ {ending : Except Fault Reply × Log} :
    p.EndsWith definitions scope place log ending ↔
      Run.EndsWith (fun bound ↦ p.eval definitions (bound + 1) scope place) log ending :=
  (Run.endsWith_succ (growing_eval definitions scope p place)).symm

theorem growing_andThen (hnext : ∀ rest value, Run.Growing fun bound ↦ next bound rest value) :
    Run.Growing fun bound ↦
      Parse.andThen (p.eval definitions (bound + 1) scope) (next bound) place :=
  (growing_eval definitions scope p place).succ.bind (growing_follow hnext)

/-- What goes on with the two parts of a reply fails as the grammar in front does, or ends as it
does behind what that one gave. -/
theorem endsWith_andThen (hnext : ∀ rest value, Run.Growing fun bound ↦ next bound rest value) :
    Run.EndsWith (fun bound ↦
        Parse.andThen (p.eval definitions (bound + 1) scope) (next bound) place)
        log (.ok reply, log') ↔
      (reply = .failure ∧ p.Fails definitions scope place log log') ∨
        ∃ value rest middle, p.Gives definitions scope place log value rest middle ∧
          Run.EndsWith (fun bound ↦ next bound rest value) middle (.ok reply, log') := by
  refine (Run.endsWith_bind (growing_eval definitions scope p place).succ
    (growing_follow hnext)).trans ?_
  simp only [← endsWith_eval_succ, endsWith_follow hnext]
  constructor
  · rintro (⟨fault, middle, -, heq⟩ | ⟨first, middle, hends, ⟨rfl, rfl, rfl⟩ | hparts⟩)
    · exact nomatch heq
    · exact .inl ⟨rfl, hends⟩
    · obtain ⟨rest, value, hparts, hlast⟩ := hparts
      exact .inr ⟨value, rest, middle, ⟨first, hends, hparts⟩, hlast⟩
  · rintro (⟨rfl, hfails⟩ | ⟨value, rest, middle, ⟨first, hends, hparts⟩, hlast⟩)
    · exact .inr ⟨.failure, log', hfails, .inl ⟨rfl, rfl, rfl⟩⟩
    · exact .inr ⟨first, middle, hends, .inr ⟨rest, value, hparts, hlast⟩⟩

end Sequences

theorem growing_pure (reply : Reply) : Run.Growing fun _ ↦ (pure reply : Run Reply) :=
  Run.growing_const (Run.approximates_pure reply)

theorem growing_ofCall_success (rest : Place) (call : Call Value) :
    Run.Growing fun _ ↦ do return Reply.success rest (← ofCall call) :=
  Run.growing_const ((Run.approximates_ofCall call).bind fun _ ↦ Run.approximates_pure _)

/-- The result of a call as the value of a success. -/
theorem endsWith_ofCall_success {call : Call Value} {ending : Except Fault Reply × Log} :
    Run.EndsWith (fun _ ↦ do return Reply.success rest (← ofCall call)) log ending ↔
      ending = (call.outcome.map (Reply.success rest), log) := by
  refine Run.endsWith_of_silent fun journal ↦ ?_
  rw [Run.bind_apply, ofCall]
  cases call.outcome <;> rfl

/-! ### The rules -/

/-- What a grammar gives, and how it fails, when all its replies are of its own making. -/
theorem fails_and_gives {failed : Prop} {given : Place → Value → Prop}
    (h : ∀ reply, p.EndsWith definitions scope place log (.ok reply, log') ↔
      (reply = .failure ∧ failed) ∨ ∃ rest value, reply = .success rest value ∧ given rest value) :
    (p.Fails definitions scope place log log' ↔ failed) ∧
      ∀ value rest, p.Gives definitions scope place log value rest log' ↔ given rest value := by
  constructor
  · simp [Fails, h]
  · intro value rest
    simp only [Gives, h]
    constructor
    · rintro ⟨reply, ⟨rfl, -⟩ | ⟨rest', value', rfl, hgiven⟩, hparts⟩
      · exact nomatch hparts
      · obtain ⟨rfl, rfl⟩ := Prod.mk.inj (Except.ok.inj hparts)
        exact hgiven
    · exact fun hgiven ↦ ⟨.success rest value, .inr ⟨rest, value, rfl, hgiven⟩, rfl⟩

theorem endsWith_succeed {v : Value} {ending : Except Fault Reply × Log} :
    (succeed v).EndsWith definitions scope place log ending ↔
      ending = (.ok (.success place v), log) :=
  endsWith_eval_succ.trans (Run.endsWith_pure _)

theorem gives_succeed {v : Value} :
    (succeed v).Gives definitions scope place log value rest log' ↔
      value = v ∧ rest = place ∧ log' = log := by
  simp only [Gives, endsWith_succeed]
  constructor
  · rintro ⟨reply, hends, hparts⟩
    obtain ⟨hreply, rfl⟩ := Prod.mk.inj hends
    obtain rfl := Except.ok.inj hreply
    obtain ⟨rfl, rfl⟩ := Prod.mk.inj (Except.ok.inj hparts)
    exact ⟨rfl, rfl, rfl⟩
  · rintro ⟨rfl, rfl, rfl⟩
    exact ⟨_, rfl, rfl⟩

theorem fails_and_gives_map (f : Value → Call Value) :
    ((map p f).Fails definitions scope place log log' ↔ p.Fails definitions scope place log log') ∧
      ∀ value' rest, (map p f).Gives definitions scope place log value' rest log' ↔
        ∃ value, p.Gives definitions scope place log value rest log' ∧
          (f value).outcome = .ok value' := by
  refine fails_and_gives fun reply ↦ endsWith_eval_succ.trans ((endsWith_andThen fun rest value ↦
    growing_ofCall_success rest (f value)).trans (or_congr_right ?_))
  simp only [endsWith_ofCall_success, Prod.mk.injEq]
  constructor
  · rintro ⟨value, rest, middle, hgives, hreply, rfl⟩
    cases houtcome : (f value).outcome with
    | ok value' =>
      rw [houtcome] at hreply
      exact ⟨rest, value', Except.ok.inj hreply, value, hgives, houtcome⟩
    | error fault =>
      rw [houtcome] at hreply
      exact nomatch hreply
  · rintro ⟨rest, value', rfl, value, hgives, houtcome⟩
    exact ⟨value, rest, log', hgives, by rw [houtcome]; rfl, rfl⟩

/-- A function that always returns adds no fault to those of a grammar whose replies are proper. -/
theorem endsWith_map_error {f : Value → Call Value} {fault : Fault}
    (hp : p.Proper definitions scope)
    (hf : ∀ value rest middle, p.Gives definitions scope place log value rest middle →
      ∃ mapped, (f value).outcome = .ok mapped) :
    (map p f).EndsWith definitions scope place log (.error fault, log') ↔
      p.EndsWith definitions scope place log (.error fault, log') := by
  have hnext (rest : Place) (value : Value) :
      Run.Growing fun _ ↦ do return Reply.success rest (← ofCall (f value)) :=
    growing_ofCall_success rest (f value)
  refine endsWith_eval_succ.trans ((Run.endsWith_bind
    (growing_eval definitions scope p place).succ (growing_follow hnext)).trans ?_)
  simp only [← endsWith_eval_succ]
  constructor
  · rintro (⟨fault', middle, hends, heq⟩ | ⟨reply, middle, hends, hlast⟩)
    · rwa [heq]
    · exfalso
      rcases (endsWith_ok hp).mp hends with ⟨rfl, -⟩ | ⟨rest, value, rfl, hgives⟩
      · exact nomatch (Prod.mk.inj ((Run.endsWith_pure _).mp hlast)).1
      · obtain ⟨mapped, hmapped⟩ := hf value rest middle hgives
        have hending := (Prod.mk.inj (endsWith_ofCall_success.mp hlast)).1
        rw [hmapped] at hending
        exact nomatch hending
  · exact fun hends ↦ .inl ⟨fault, log', hends, rfl⟩

/-- Two in sequence, with a value made of both. -/
theorem fails_and_gives_sequence {r : Grammar} (combine : Value → Value → Value)
    (hr : ∀ bound, r.eval definitions (bound + 1) scope =
      Parse.andThen (p.eval definitions (bound + 1) scope) fun middle first ↦
        Parse.andThen (q.eval definitions (bound + 1) scope)
          (fun rest second ↦ pure (.success rest (combine first second))) middle) :
    (r.Fails definitions scope place log log' ↔
      p.Fails definitions scope place log log' ∨
        ∃ first middle log₁, p.Gives definitions scope place log first middle log₁ ∧
          q.Fails definitions scope middle log₁ log') ∧
      ∀ value rest, r.Gives definitions scope place log value rest log' ↔
        ∃ first middle log₁ second, p.Gives definitions scope place log first middle log₁ ∧
          q.Gives definitions scope middle log₁ second rest log' ∧
            value = combine first second := by
  have hlast (first : Value) (rest : Place) (second : Value) :
      Run.Growing fun _ ↦ (pure (.success rest (combine first second)) : Run Reply) :=
    growing_pure _
  have hsecond (middle : Place) (first : Value) : Run.Growing fun bound ↦
      Parse.andThen (q.eval definitions (bound + 1) scope)
        (fun rest second ↦ pure (.success rest (combine first second))) middle :=
    growing_andThen (hlast first)
  refine fails_and_gives fun reply ↦ endsWith_eval_succ.trans ?_
  simp only [hr, endsWith_andThen hsecond, endsWith_andThen (hlast _), Run.endsWith_pure,
    Prod.mk.injEq, Except.ok.injEq]
  constructor
  · rintro (⟨rfl, hp⟩ | ⟨first, middle, log₁, hp, ⟨rfl, hq⟩ | ⟨second, rest, _, hq, rfl, rfl⟩⟩)
    · exact .inl ⟨rfl, .inl hp⟩
    · exact .inl ⟨rfl, .inr ⟨first, middle, log₁, hp, hq⟩⟩
    · exact .inr ⟨rest, _, rfl, first, middle, log₁, second, hp, hq, rfl⟩
  · rintro (⟨rfl, hp | ⟨first, middle, log₁, hp, hq⟩⟩ |
      ⟨rest, _, rfl, first, middle, log₁, second, hp, hq, rfl⟩)
    · exact .inl ⟨rfl, hp⟩
    · exact .inr ⟨first, middle, log₁, hp, .inl ⟨rfl, hq⟩⟩
    · exact .inr ⟨first, middle, log₁, hp, .inr ⟨second, rest, log', hq, rfl, rfl⟩⟩

theorem fails_map {f : Value → Call Value} :
    (map p f).Fails definitions scope place log log' ↔ p.Fails definitions scope place log log' :=
  (fails_and_gives_map f).1

theorem gives_map {f : Value → Call Value} :
    (map p f).Gives definitions scope place log value' rest log' ↔
      ∃ value, p.Gives definitions scope place log value rest log' ∧
        (f value).outcome = .ok value' :=
  (fails_and_gives_map f).2 value' rest

theorem fails_both :
    (both p q).Fails definitions scope place log log' ↔
      p.Fails definitions scope place log log' ∨
        ∃ first middle log₁, p.Gives definitions scope place log first middle log₁ ∧
          q.Fails definitions scope middle log₁ log' :=
  (fails_and_gives_sequence (fun first second ↦ .tuple [first, second]) fun _ ↦ rfl).1

theorem gives_both :
    (both p q).Gives definitions scope place log value rest log' ↔
      ∃ first middle log₁ second, p.Gives definitions scope place log first middle log₁ ∧
        q.Gives definitions scope middle log₁ second rest log' ∧
          value = .tuple [first, second] :=
  (fails_and_gives_sequence (fun first second ↦ .tuple [first, second]) fun _ ↦ rfl).2 value rest

section Proper

theorem fails_and_gives_left (hp : p.Proper definitions scope)
    (hq : q.Proper definitions scope) :
    ((left p q).Fails definitions scope place log log' ↔
      p.Fails definitions scope place log log' ∨
        ∃ first middle log₁, p.Gives definitions scope place log first middle log₁ ∧
          q.Fails definitions scope middle log₁ log') ∧
      ∀ value rest, (left p q).Gives definitions scope place log value rest log' ↔
        ∃ first middle log₁ second, p.Gives definitions scope place log first middle log₁ ∧
          q.Gives definitions scope middle log₁ second rest log' ∧ value = first :=
  fails_and_gives_sequence (fun first _ ↦ first) fun bound ↦
    (Parse.left_eq (hp (bound + 1)) (hq (bound + 1)) :)

theorem fails_left (hp : p.Proper definitions scope) (hq : q.Proper definitions scope) :
    (left p q).Fails definitions scope place log log' ↔
      p.Fails definitions scope place log log' ∨
        ∃ first middle log₁, p.Gives definitions scope place log first middle log₁ ∧
          q.Fails definitions scope middle log₁ log' :=
  (fails_and_gives_left hp hq).1

theorem gives_left (hp : p.Proper definitions scope) (hq : q.Proper definitions scope) :
    (left p q).Gives definitions scope place log value rest log' ↔
      ∃ middle log₁ second, p.Gives definitions scope place log value middle log₁ ∧
        q.Gives definitions scope middle log₁ second rest log' := by
  rw [(fails_and_gives_left hp hq).2]
  constructor
  · rintro ⟨_, middle, log₁, second, hfirst, hsecond, rfl⟩
    exact ⟨middle, log₁, second, hfirst, hsecond⟩
  · rintro ⟨middle, log₁, second, hfirst, hsecond⟩
    exact ⟨value, middle, log₁, second, hfirst, hsecond, rfl⟩

/-- Two in sequence, with the reply of the second. -/
theorem endsWith_right (hp : p.Proper definitions scope) :
    (right p q).EndsWith definitions scope place log (.ok reply, log') ↔
      (reply = .failure ∧ p.Fails definitions scope place log log') ∨
        ∃ first middle log₁, p.Gives definitions scope place log first middle log₁ ∧
          q.EndsWith definitions scope middle log₁ (.ok reply, log') := by
  have hq (middle : Place) (_ : Value) : Run.Growing fun bound ↦
      q.eval definitions (bound + 1) scope middle :=
    (growing_eval definitions scope q middle).succ
  have heval (bound : Nat) : (right p q).eval definitions (bound + 1) scope =
      Parse.andThen (p.eval definitions (bound + 1) scope) fun middle _ ↦
        q.eval definitions (bound + 1) scope middle :=
    Parse.right_eq (hp (bound + 1)) _
  rw [endsWith_eval_succ]
  simp only [heval, endsWith_andThen hq, ← endsWith_eval_succ]

theorem fails_right (hp : p.Proper definitions scope) :
    (right p q).Fails definitions scope place log log' ↔
      p.Fails definitions scope place log log' ∨
        ∃ first middle log₁, p.Gives definitions scope place log first middle log₁ ∧
          q.Fails definitions scope middle log₁ log' := by
  refine (endsWith_right hp).trans ?_
  simp only [true_and]
  rfl

theorem gives_right (hp : p.Proper definitions scope) :
    (right p q).Gives definitions scope place log value rest log' ↔
      ∃ first middle log₁, p.Gives definitions scope place log first middle log₁ ∧
        q.Gives definitions scope middle log₁ value rest log' := by
  simp only [Gives, endsWith_right hp]
  constructor
  · rintro ⟨reply, ⟨rfl, -⟩ | ⟨first, middle, log₁, hfirst, hsecond⟩, hparts⟩
    · exact nomatch hparts
    · exact ⟨first, middle, log₁, hfirst, reply, hsecond, hparts⟩
  · rintro ⟨first, middle, log₁, hfirst, reply, hsecond, hparts⟩
    exact ⟨reply, .inr ⟨first, middle, log₁, hfirst, hsecond⟩, hparts⟩

end Proper

/-! ### Alternatives -/

variable {ending : Except Fault Reply × Log}

/-- Where an alternative fails, the log is rolled back to the one it started with. -/
theorem rollback_log_of_failed {bound : Nat} {journal final : Journal}
    (hrun : p.eval definitions bound scope place journal = .done .failure final) :
    (final.rollback journal.log.mark).log = journal.log :=
  Parse.rollback_log_of_done (framed_eval definitions bound scope p) hrun

/-- An end of the first alternative, unless it is a failure, is one of both. -/
theorem endsWith_either_of_not_failed (hnotFailed : ∀ log', ending ≠ (.ok .failure, log'))
    (hp : p.EndsWith definitions scope place log ending) :
    (either p q).EndsWith definitions scope place log ending := by
  obtain ⟨bound, hbound⟩ := endsWith_eval_succ.mp hp
  refine endsWith_eval_succ.mpr ⟨bound, fun journal hlog ↦ ?_⟩
  have hending : (p.eval definitions (bound + 1) scope place journal).ending? = some ending :=
    hbound journal hlog
  have hnot (final : Journal) :
      p.eval definitions (bound + 1) scope place journal ≠ .done .failure final := by
    intro hrun
    rw [hrun] at hending
    exact hnotFailed final.log (Option.some.inj hending).symm
  exact (congrArg Outcome.ending? (Parse.either_of_not_failed hnot)).trans hending

/-- Where the first alternative fails, an end of the second one is one of both. -/
theorem endsWith_either_of_fails (hp : p.Fails definitions scope place log log')
    (hq : q.EndsWith definitions scope place log ending) :
    (either p q).EndsWith definitions scope place log ending := by
  have hgrowing (r : Grammar) := (growing_eval definitions scope r place).succ
  obtain ⟨bound, hbound⟩ := Run.EndsWith.ending? (endsWith_eval_succ.mp hp) (hgrowing p)
  obtain ⟨bound', hbound'⟩ := Run.EndsWith.ending? (endsWith_eval_succ.mp hq) (hgrowing q)
  refine endsWith_eval_succ.mpr ⟨max bound bound', fun journal hlog ↦ ?_⟩
  obtain ⟨final, hrun, -⟩ :=
    Outcome.ending?_eq_ok.mp (hbound _ (Nat.le_max_left bound bound') journal hlog)
  refine (congrArg Outcome.ending? (Parse.either_of_failed hrun)).trans ?_
  exact hbound' _ (Nat.le_max_right bound bound') _ ((rollback_log_of_failed hrun).trans hlog)

/-- An alternative ends as the first grammar does unless that one fails; then it ends as the second
one does with the log from before. -/
theorem endsWith_either :
    (either p q).EndsWith definitions scope place log ending ↔
      ((∀ log', ending ≠ (.ok .failure, log')) ∧ p.EndsWith definitions scope place log ending) ∨
        ∃ log', p.Fails definitions scope place log log' ∧
          q.EndsWith definitions scope place log ending := by
  constructor
  · intro h
    obtain ⟨bound, h⟩ := endsWith_eval_succ.mp h
    have hending : (Parse.either (p.eval definitions (bound + 1) scope)
        (q.eval definitions (bound + 1) scope) place ⟨log, #[], ∅⟩).ending? = some ending :=
      h ⟨log, #[], ∅⟩ rfl
    by_cases hfailed : ∃ final,
        p.eval definitions (bound + 1) scope place ⟨log, #[], ∅⟩ = .done .failure final
    · obtain ⟨final, hrun⟩ := hfailed
      have hfails : p.Fails definitions scope place log final.log := by
        refine endsWith_of_eval (bound + 1) ⟨log, #[], ∅⟩ ?_
        rw [hrun]
        rfl
      rw [Parse.either_of_failed hrun] at hending
      have hsecond := endsWith_of_eval (bound + 1) _ hending
      rw [rollback_log_of_failed hrun] at hsecond
      exact .inr ⟨final.log, hfails, hsecond⟩
    · rw [Parse.either_of_not_failed (not_exists.mp hfailed)] at hending
      refine .inl ⟨?_, endsWith_of_eval (bound + 1) ⟨log, #[], ∅⟩ hending⟩
      rintro log' rfl
      obtain ⟨final, hrun, -⟩ := Outcome.ending?_eq_ok.mp hending
      exact hfailed ⟨final, hrun⟩
  · rintro (⟨hnotFailed, hp⟩ | ⟨log', hp, hq⟩)
    · exact endsWith_either_of_not_failed hnotFailed hp
    · exact endsWith_either_of_fails hp hq

end Grammar

end DiagnosticParsing
