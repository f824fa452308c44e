import DiagnosticParsing.Grammar.Characters
import DiagnosticParsing.Proofs.Endings.Parsers
import DiagnosticParsing.Proofs.Rounds.Simulation

/-!
# Repetitions

A repetition is a loop, and it is what its recursive definition says: once and then any number of
times, or not at all (`Parse.many_succ`, `Parse.oneOrMore_eq_map`). The loop takes back what its
last attempt has logged; in the recursive definition every alternative does so, and finds nothing
but that last attempt to take back.

How a repetition ends is told by the successes of its parser one after another
(`Grammar.Successes`): it ends where the parser fails, and this is the only way for it to end
without a fault (`Grammar.endsWith_many`). It does not fail itself, its log is as it is behind the
last success, and no series of successes from the same start is longer. A repetition of at least
once fails as its first attempt does, with what that one has logged. The main result is
`Grammar.repetition_unfolds`.
-/

set_option autoImplicit false

namespace DiagnosticParsing

namespace Parse

open Run (ofExcept ofCall)

/-! ### The loop and the recursive definition -/

/-- What has been gathered before stays in front of what an attempt adds. -/
theorem attempt_append (p : Parse) (before : List Value) (place : Place) (values : List Value) :
    attempt p place (values ++ before) =
      (attempt p place values >>= fun found ↦ pure (found.map (Prod.map id (· ++ before)))) := by
  simp only [attempt, bind_assoc]
  refine bind_congr fun mark ↦ bind_congr fun reply ↦ ?_
  cases reply <;> simp

/-- The first value in front of the others. -/
theorem cons_tuple (first : Value) (values : List Value) :
    Function.cons.call (.tuple [first, .list values]) = .pure (.list (first :: values)) :=
  rfl

/-- A repetition behind a given value is one whose values are put behind that value. -/
theorem collect_singleton (p : Parse) (bound : Nat) (place : Place) (first : Value) :
    collect (rounds bound) p place [first] =
      andThen (many bound p) (fun rest values ↦ do
        return .success rest (← ofCall (Function.cons.call (.tuple [first, values])))) place := by
  have hrounds := rounds_map (· ++ [first]) (attempt_append p [first]) bound place []
  rw [List.nil_append] at hrounds
  rw [many_eq, andThen_apply]
  simp [collect, manyBy, hrounds, cons_tuple]

/-- At least once is once and then any number of times. -/
theorem oneOrMore_eq_map (bound : Nat) (p : Parse) :
    oneOrMore bound p = map (both p (many bound p)) Function.cons.call := by
  simp only [oneOrMore_eq, oneOrMoreBy, collect_singleton, map_both]

/-- Any number of times is at least once or not at all. -/
theorem many_succ (bound : Nat) (p : Parse) :
    many (bound + 1) p = either (oneOrMore bound p) (succeed (.list [])) := by
  funext place
  simp only [many, oneOrMore, repeatFrom, either, andThen_apply, succeed, bind_assoc]
  refine bind_congr fun mark ↦ bind_congr fun reply ↦ ?_
  cases reply with
  | failure => simp [follow]
  | success rest value => simp [repeatFrom_eq, collect]
  | malformed v => simp [follow, repeatFrom_eq, collect]

end Parse

namespace Grammar

variable {definitions : Definitions} {scope : Scope} {p q : Grammar} {place last last' : Place}
  {log log' log'' : Log} {values values' : List Value} {reply : Reply}

/-- At least once, and the recursive definition. -/
theorem eval_oneOrMore (definitions : Definitions) (scope : Scope) (p : Grammar) (bound : Nat) :
    (oneOrMore p).eval definitions bound scope =
      (map (both p (many p)) Function.cons.call).eval definitions bound scope := by
  cases bound with
  | zero => rfl
  | succ bound => exact Parse.oneOrMore_eq_map (bound + 1) (p.eval definitions (bound + 1) scope)

/-- Any number of times, and the recursive definition, which makes one attempt before the first
round of the loop in it. -/
theorem sameEnds_many (definitions : Definitions) (scope : Scope) (p : Grammar) :
    SameEnds definitions scope (many p) definitions scope
      (either (map (both p (many p)) Function.cons.call) (succeed (.list []))) := by
  have hunfolded (bound : Nat) :
      (either (map (both p (many p)) Function.cons.call) (succeed (.list []))).eval definitions
        (bound + 1) scope = Parse.many (bound + 2) (p.eval definitions (bound + 1) scope) := by
    rw [Parse.many_succ, Parse.oneOrMore_eq_map]
    rfl
  have hmany (bound : Nat) : (many p).eval definitions (bound + 1) scope =
      Parse.many (bound + 1) (p.eval definitions (bound + 1) scope) :=
    rfl
  refine .of_approximates (fun bound ↦ ?_) fun bound ↦ ?_
  · cases bound with
    | zero => exact ⟨0, approximates_zero _ _⟩
    | succ bound =>
      refine ⟨bound + 1, ?_⟩
      rw [hmany, hunfolded]
      exact Run.approximates_congruence.many (Run.withinBounds_of_le (Nat.le_succ (bound + 1)))
        (approximates_eval_of_le (Nat.le_refl (bound + 1)) scope p)
  · cases bound with
    | zero => exact ⟨0, approximates_zero _ _⟩
    | succ bound =>
      refine ⟨bound + 2, ?_⟩
      rw [hmany, hunfolded]
      exact Run.approximates_congruence.many (Run.withinBounds_of_le (Nat.le_refl (bound + 2)))
        (approximates_eval_of_le (Nat.le_succ (bound + 1)) scope p)

/-! ### Successes one after another -/

/-- The grammar succeeds at the place with the first value, then behind it with the second one, and
so on; behind the last value the input and the log are those given. -/
inductive Successes (definitions : Definitions) (scope : Scope) (p : Grammar) :
    Place → Log → List Value → Place → Log → Prop where
  /-- No success at all. -/
  | none (place : Place) (log : Log) : Successes definitions scope p place log [] place log
  /-- A success and those behind it. -/
  | next {place rest last : Place} {log middle log' : Log} {value : Value} {values : List Value}
      (hvalue : p.Gives definitions scope place log value rest middle)
      (hvalues : Successes definitions scope p rest middle values last log') :
      Successes definitions scope p place log (value :: values) last log'

/-- Where the grammar fails in the end, it has had all its successes: any others are the first of
them. -/
theorem Successes.isPrefix (h : Successes definitions scope p place log values last log')
    (hfails : p.Fails definitions scope last log' log'')
    {values' : List Value} {last' : Place} {log₁ : Log}
    (h' : Successes definitions scope p place log values' last' log₁) : values' <+: values := by
  induction h generalizing values' with
  | none place log =>
    cases h' with
    | none => exact List.nil_prefix
    | next hvalue _ => exact (hvalue.not_fails hfails).elim
  | next hvalue _ ih =>
    cases h' with
    | none => exact List.nil_prefix
    | next hvalue' hvalues' =>
      obtain ⟨rfl, rfl, rfl⟩ := hvalue.unique hvalue'
      exact List.prefix_cons_inj _ |>.mpr (ih hfails hvalues')

/-- A repetition that ends has had successes up to a place where its parser failed. -/
theorem ensures_repeatFrom (bound rounds : Nat) :
    ∀ (place : Place) (before : List Value) (journal : Journal),
      (Parse.repeatFrom (p.eval definitions bound scope) rounds place before).Ensures journal
        fun reply final ↦
          ∃ values last log', reply = .success last (.list (before.reverse ++ values)) ∧
            Successes definitions scope p place journal.log values last final.log ∧
            p.Fails definitions scope last final.log log' := by
  induction rounds with
  | zero => exact fun _ _ journal ↦ Run.ensures_unfinished journal _
  | succ rounds ih =>
    intro place before journal
    have hnext {reply : Reply} {rest : Place} {value : Value} {middle : Journal}
        (hends : p.EndsWith definitions scope place journal.log (.ok reply, middle.log))
        (hparts : reply.parts = .ok (rest, value)) :
        (Parse.repeatFrom (p.eval definitions bound scope) rounds rest (value :: before)).Ensures
          middle fun reply final ↦
            ∃ values last log', reply = .success last (.list (before.reverse ++ values)) ∧
              Successes definitions scope p place journal.log values last final.log ∧
              p.Fails definitions scope last final.log log' := by
      refine (ih rest (value :: before) middle).mono ?_
      rintro _ final ⟨values, last, log', rfl, hvalues, hfails⟩
      refine ⟨value :: values, last, log', ?_, .next ⟨_, hends, hparts⟩ hvalues, hfails⟩
      rw [List.reverse_cons, List.append_assoc, List.singleton_append]
    rw [Parse.repeatFrom, Run.ensures_mark_bind, Run.ensures_bind]
    intro reply middle hdone
    have hends := ensures_eval bound journal reply middle hdone
    cases reply with
    | failure =>
      have hlog := rollback_log_of_failed hdone
      simp only [Run.ensures_bind, Run.ensures_rollback, Run.ensures_pure]
      refine ⟨[], place, middle.log, ?_, ?_, ?_⟩
      · rw [List.append_nil]
      · rw [hlog]
        exact .none place journal.log
      · rw [hlog]
        exact hends
    | success rest value => exact hnext hends rfl
    | malformed v =>
      simp only [Run.ensures_bind, Run.ensures_ofExcept]
      exact fun parts hparts ↦ hnext hends hparts

/-- A repetition ends without a fault if its parser succeeds some number of times and then fails. It
has the values of the successes, and the log is as it was before the failure. -/
theorem endsWith_many :
    (many p).EndsWith definitions scope place log (.ok reply, log') ↔
      ∃ values last, reply = .success last (.list values) ∧
        Successes definitions scope p place log values last log' ∧
        ∃ log'', p.Fails definitions scope last log' log'' := by
  constructor
  · intro h
    obtain ⟨bound, h⟩ := endsWith_eval_succ.mp h
    obtain ⟨final, hrun, rfl⟩ := Outcome.ending?_eq_ok.mp (h ⟨log, #[], ∅⟩ rfl)
    obtain ⟨values, last, log'', hreply, hvalues, hfails⟩ :=
      ensures_repeatFrom (bound + 1) (bound + 1) place [] _ reply final hrun
    exact ⟨values, last, hreply, hvalues, log'', hfails⟩
  · rintro ⟨values, last, rfl, hvalues, log'', hfails⟩
    induction hvalues with
    | none place log =>
      rw [sameEnds_many definitions scope p place log, endsWith_either]
      exact .inr ⟨log'', fails_map.mpr (fails_both.mpr (.inl hfails)), endsWith_succeed.mpr rfl⟩
    | @next place rest last log middle log' value values hvalue hvalues ih =>
      have hmany : (many p).Gives definitions scope rest middle (.list values) last log' :=
        ⟨_, ih hfails, rfl⟩
      have hboth := gives_both.mpr ⟨value, rest, middle, _, hvalue, hmany, rfl⟩
      have hmap : (map (both p (many p)) Function.cons.call).Gives definitions scope place log
          (.list (value :: values)) last log' :=
        gives_map.mpr ⟨_, hboth, rfl⟩
      rw [sameEnds_many definitions scope p place log, endsWith_either]
      exact .inl ⟨fun _ ↦ nofun, (endsWith_success (proper_map _ _ _ _)).mpr hmap⟩

theorem gives_many {value : Value} :
    (many p).Gives definitions scope place log value last log' ↔
      ∃ values, value = .list values ∧ Successes definitions scope p place log values last log' ∧
        ∃ log'', p.Fails definitions scope last log' log'' := by
  simp only [Gives, endsWith_many]
  constructor
  · rintro ⟨_, ⟨values, _, rfl, hvalues, hfails⟩, hparts⟩
    obtain ⟨rfl, rfl⟩ := Prod.mk.inj (Except.ok.inj hparts)
    exact ⟨values, rfl, hvalues, hfails⟩
  · rintro ⟨values, rfl, hvalues, hfails⟩
    exact ⟨_, ⟨values, last, rfl, hvalues, hfails⟩, rfl⟩

theorem not_fails_many : ¬(many p).Fails definitions scope place log log' := by
  intro hfails
  obtain ⟨values, last, hreply, -⟩ := endsWith_many.mp hfails
  exact nomatch hreply

/-- A repetition behind a grammar adds no failure. -/
theorem fails_both_many :
    (both p (many q)).Fails definitions scope place log log' ↔
      p.Fails definitions scope place log log' := by
  rw [fails_both]
  constructor
  · rintro (hfails | ⟨first, middle, log₁, -, hfails⟩)
    · exact hfails
    · exact (not_fails_many hfails).elim
  · exact .inl

/-- Repetition is what its recursive definition says. Any number of times comes to the same ends as
once and then any number of times, or else the empty list; at least once comes to the same ends as
once and then any number of times. If a repetition ends without a fault, then with the values of the
longest series of successes, at a place where the parser fails. This is so for any grammar in any
scope. -/
theorem repetition_unfolds (definitions : Definitions) (scope : Scope) (p : Grammar) :
    SameEnds definitions scope (many p) definitions scope
        (either (map (both p (many p)) Function.cons.call) (succeed (.list []))) ∧
      SameEnds definitions scope (oneOrMore p) definitions scope
        (map (both p (many p)) Function.cons.call) ∧
      (∀ place log reply log',
        (many p).EndsWith definitions scope place log (.ok reply, log') ↔
          ∃ values last, reply = .success last (.list values) ∧
            Successes definitions scope p place log values last log' ∧
            (∃ log'', p.Fails definitions scope last log' log'') ∧
            ∀ values' last' log'', Successes definitions scope p place log values' last' log'' →
              values' <+: values) ∧
      ∀ place log log', (oneOrMore p).Fails definitions scope place log log' ↔
        p.Fails definitions scope place log log' := by
  have honce : SameEnds definitions scope (oneOrMore p) definitions scope
      (map (both p (many p)) Function.cons.call) :=
    .of_eval_eq (eval_oneOrMore definitions scope p)
  refine ⟨sameEnds_many definitions scope p, honce, fun place log reply log' ↦ ?_,
    fun place log log' ↦ ?_⟩
  · rw [endsWith_many]
    constructor
    · rintro ⟨values, last, hreply, hvalues, log'', hfails⟩
      exact ⟨values, last, hreply, hvalues, ⟨log'', hfails⟩, fun _ _ _ h ↦
        hvalues.isPrefix hfails h⟩
    · rintro ⟨values, last, hreply, hvalues, hfails, -⟩
      exact ⟨values, last, hreply, hvalues, hfails⟩
  · have hmap : (oneOrMore p).Fails definitions scope place log log' ↔
        (map (both p (many p)) Function.cons.call).Fails definitions scope place log log' :=
      honce place log _
    rw [hmap, fails_map, fails_both_many]

/-- Two digits in front of a letter, where the next attempt fails and leaves nothing. -/
theorem repetition_unfolds_digits :
    let start : Place := .fresh (.ofText "12a")
    let finish : Place := .fresh ⟨.text "12a".toList.toArray, 2, ⟨0, 2⟩⟩
    let digits : List Value := [.text "1", .text "2"]
    (either (map (both digit (many digit)) Function.cons.call) (succeed (.list []))).EndsWith .none
        .top start .empty (.ok (.success finish (.list digits)), .empty) ∧
      Successes .none .top digit start .empty digits finish .empty ∧
      ∃ log, digit.Fails .none .top finish .empty log ∧
        (oneOrMore digit).Fails .none .top finish .empty log := by
  intro start finish digits
  have hmany : (many digit).EndsWith .none .top start .empty
      (.ok (.success finish (.list digits)), .empty) :=
    endsWith_of_eval 5 .empty rfl
  obtain ⟨hunfolded, -, hends, honce⟩ := repetition_unfolds .none .top digit
  obtain ⟨values, last, hreply, hvalues, ⟨log, hfails⟩, -⟩ := (hends _ _ _ _).mp hmany
  obtain ⟨rfl, hlist⟩ := Reply.success.inj hreply
  obtain rfl : digits = values := Value.list.inj hlist
  exact ⟨(hunfolded _ _ _).mp hmany, hvalues, log, hfails, (honce _ _ _).mpr hfails⟩

end Grammar

end DiagnosticParsing
