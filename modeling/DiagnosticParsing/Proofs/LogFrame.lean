import DiagnosticParsing.Proofs.Execution

/-!
# Runs and the log before them

A run only ever adds to the log it is given. `Run.Framed` says so: putting earlier messages in front
of the log changes nothing in a run but puts the same messages in front of the log at its end. The
reply or the fault, the notes and the cells built are the same, so nothing that is decided depends
on what was logged before, and no rollback reaches back behind the start of the run.

A rollback taken on its own is not framed, for its mark counts messages from the front.
`Run.FramedFrom` is the property of the runs behind `Run.mark`: they are framed when the mark moves
with the messages put in front. Every grammar is framed (`Grammar.framed_eval`), by
`Grammar.Invariant`, and so is every run with its cells (`Grammar.framed_exec`), as entering a cell
is framed.
-/

set_option autoImplicit false

namespace DiagnosticParsing

/-! ### Earlier messages -/

/-- A log with further messages behind it. -/
instance : Append Log :=
  ⟨fun earlier log ↦ ⟨earlier.messages ++ log.messages⟩⟩

namespace Log

@[simp]
theorem toList_append (earlier log : Log) :
    (earlier ++ log).toList = earlier.toList ++ log.toList :=
  Array.toList_append

@[simp]
theorem mark_append (earlier log : Log) : (earlier ++ log).mark = earlier.mark + log.mark :=
  Array.size_append

theorem ext_toList {first second : Log} (h : first.toList = second.toList) : first = second := by
  cases first
  cases second
  exact congrArg Log.mk (Array.toList_inj.mp h)

@[simp]
theorem append_empty (log : Log) : log ++ empty = log := by
  apply ext_toList
  simp

theorem add_append (earlier log : Log) (message : Message) :
    (earlier ++ log).add message = earlier ++ log.add message := by
  apply ext_toList
  simp

/-- Rolling back behind earlier messages leaves them alone. -/
theorem rollback_append (earlier log : Log) (mark : Nat) :
    (earlier ++ log).rollback (earlier.mark + mark) = earlier ++ log.rollback mark := by
  apply ext_toList
  rw [toList_rollback, toList_append, toList_append, toList_rollback, ← length_toList,
    List.take_append, List.take_of_length_le (by omega)]
  simp

/-- Rolling back to the mark of earlier messages leaves these only. -/
theorem rollback_mark_append (earlier log : Log) :
    (earlier ++ log).rollback earlier.mark = earlier := by
  apply ext_toList
  rw [toList_rollback, toList_append, ← length_toList, List.take_left]

end Log

/-- The journal with earlier messages in front of its log. -/
def Journal.after (earlier : Log) (journal : Journal) : Journal :=
  { journal with log := earlier ++ journal.log }

/-- The outcome with earlier messages in front of the log it leaves. -/
def Outcome.after {α : Type} (earlier : Log) : Outcome α → Outcome α
  | .done result journal => .done result (journal.after earlier)
  | .faulted fault journal => .faulted fault (journal.after earlier)
  | .unfinished => .unfinished

/-- Earlier messages stand in front of a result only if there is one. -/
theorem Outcome.after_eq_done {α : Type} {earlier : Log} {outcome : Outcome α} {a : α}
    {final : Journal} (h : outcome.after earlier = .done a final) :
    ∃ final', outcome = .done a final' ∧ final = final'.after earlier := by
  cases outcome with
  | done b final' =>
    obtain ⟨rfl, rfl⟩ := Outcome.done.inj h
    exact ⟨final', rfl, rfl⟩
  | _ => simp [after] at h

/-! ### Framed runs -/

namespace Run

variable {α β : Type}

/-- Earlier messages in the log make no difference to a run and are still there at its end. -/
def Framed (run : Run α) : Prop :=
  ∀ earlier journal, run (journal.after earlier) = (run journal).after earlier

/-- Earlier messages in the log make no difference to a run that knows a mark behind them. -/
def FramedFrom (run : Nat → Run α) : Prop :=
  ∀ earlier mark journal,
    run (earlier.mark + mark) (journal.after earlier) = (run mark journal).after earlier

theorem framed_pure (a : α) : (pure a : Run α).Framed :=
  fun _ _ ↦ rfl

theorem framed_fault (f : Fault) : (fault f : Run α).Framed :=
  fun _ _ ↦ rfl

theorem framed_unfinished : (unfinished : Run α).Framed :=
  fun _ _ ↦ rfl

theorem framed_ofExcept (outcome : Except Fault α) : (ofExcept outcome).Framed := by
  intro earlier journal
  cases outcome <;> rfl

theorem framed_ofCall (call : Call α) : (ofCall call).Framed := by
  intro earlier journal
  simp only [ofCall]
  cases call.outcome <;> rfl

theorem framed_attempt (call : Call α) : (attempt call).Framed :=
  fun _ _ ↦ rfl

theorem framed_complain (message : Message) : (complain message).Framed := by
  intro earlier journal
  simp only [complain, Outcome.after, Journal.after, Journal.complain, Log.add_append]

theorem framed_note (n : Note) : (note n).Framed :=
  fun _ _ ↦ rfl

theorem framed_fetch (cell : Cell) : (fetch cell).Framed :=
  fun _ _ ↦ rfl

theorem framed_store (cell : Cell) (built : Built) : (store cell built).Framed :=
  fun _ _ ↦ rfl

theorem framed_stamp : stamp.Framed :=
  fun _ _ ↦ rfl

/-- A framed run is framed whatever mark is known beside it. -/
theorem Framed.withMark {run : Run α} (hrun : run.Framed) : FramedFrom fun _ ↦ run :=
  fun earlier _ journal ↦ hrun earlier journal

theorem framedFrom_rollback : FramedFrom rollback := by
  intro earlier mark journal
  simp only [rollback, Outcome.after, Journal.after, Journal.rollback, Log.rollback_append]

theorem FramedFrom.bind {run : Nat → Run α} {next : Nat → α → Run β} (hrun : FramedFrom run)
    (hnext : ∀ a, FramedFrom fun mark ↦ next mark a) :
    FramedFrom fun mark ↦ run mark >>= next mark := by
  intro earlier mark journal
  simp only [Bind.bind, Run.bind, hrun earlier mark journal]
  cases run mark journal with
  | done result final => exact hnext result earlier mark final
  | faulted fault final => rfl
  | unfinished => rfl

theorem Framed.bind {run : Run α} {next : α → Run β} (hrun : run.Framed)
    (hnext : ∀ a, (next a).Framed) : (run >>= next).Framed :=
  fun earlier journal ↦ hrun.withMark.bind (fun a ↦ (hnext a).withMark) earlier 0 journal

/-- What is done with a mark of the log is framed when it is framed from the mark. -/
theorem framed_mark_bind {next : Nat → Run α} (hnext : FramedFrom next) :
    (mark >>= next).Framed := by
  intro earlier journal
  have hmark : (journal.after earlier).log.mark = earlier.mark + journal.log.mark :=
    Log.mark_append earlier journal.log
  have hstep := hnext earlier journal.log.mark journal
  rw [← hmark] at hstep
  exact hstep

theorem framed_foldlM {step : β → α → Run β} (hstep : ∀ b a, (step b a).Framed) (items : List α) :
    ∀ start, (items.foldlM step start).Framed := by
  induction items with
  | nil => exact framed_pure
  | cons item rest ih =>
    intro start
    rw [List.foldlM_cons]
    exact (hstep start item).bind ih

end Run

/-! ### Framed parsers -/

namespace Parse

open Run

/-- Earlier messages in the log make no difference to a parser, wherever it starts. -/
def Framed (p : Parse) : Prop :=
  ∀ place, (p place).Framed

variable {p q r op : Parse}

theorem framed_giveUp (place : Place) (text : String) : (giveUp place text).Framed :=
  (framed_ofExcept _).bind fun _ ↦ (framed_complain _).bind fun _ ↦ framed_pure _

theorem framed_whenSuccess (reply : Reply) {next : Reply → Run Reply}
    (hnext : ∀ reply, (next reply).Framed) : (whenSuccess reply next).Framed := by
  cases reply with
  | failure => exact framed_pure _
  | success rest value => exact hnext _
  | malformed v => exact hnext _

theorem framed_andThen {next : Place → Value → Run Reply} (hp : Framed p)
    (hnext : ∀ rest value, (next rest value).Framed) : Framed (andThen p next) := by
  intro place
  refine (hp place).bind fun reply ↦ ?_
  cases reply with
  | failure => exact framed_pure _
  | success rest value => exact (framed_ofExcept _).bind fun _ ↦ hnext _ _
  | malformed v => exact (framed_ofExcept _).bind fun _ ↦ hnext _ _

theorem framed_eof : Framed eof := by
  intro place
  refine (framed_ofExcept _).bind fun stream ↦ ?_
  by_cases hempty : stream.isEmpty = true
  · rw [if_pos hempty]
    exact framed_pure _
  · rw [if_neg hempty]
    exact framed_giveUp _ _

theorem framed_element (test : Value → Except Fault Bool) (describe : Value → Except Fault String) :
    Framed (element test describe) := by
  intro place
  refine (framed_ofExcept _).bind fun stream ↦ (framed_ofExcept _).bind fun step ↦ ?_
  split
  · exact framed_giveUp _ _
  · refine (framed_ofExcept _).bind fun passed ↦ ?_
    cases passed with
    | true => exact framed_pure _
    | false => exact (framed_ofExcept _).bind fun _ ↦ framed_giveUp _ _

theorem framed_token (test describe : Value → Call Value) : Framed (token test describe) := by
  intro place
  refine (framed_ofExcept _).bind fun stream ↦ (framed_ofExcept _).bind fun step ↦ ?_
  split
  · exact framed_giveUp _ _
  · refine (framed_ofCall _).bind fun value ↦ ?_
    split
    · exact (framed_ofCall _).bind fun _ ↦ framed_giveUp _ _
    · exact framed_pure _

theorem framed_literal (v : Value) : Framed (literal v) := by
  intro place
  unfold literal
  split
  · refine (framed_ofExcept _).bind fun items ↦ (framed_ofExcept _).bind fun rest ↦ ?_
    cases rest with
    | some rest => exact framed_pure _
    | none => exact framed_giveUp _ _
  · split
    · refine (framed_ofExcept _).bind fun items ↦ ?_
      split
      · exact framed_pure _
      · exact framed_fault _
    · refine (framed_ofExcept _).bind fun items ↦ ?_
      split
      · exact framed_pure _
      · exact framed_fault _
    · exact framed_fault _

theorem framed_regex (pattern : Pattern) : Framed (regex pattern) := by
  intro place
  refine (framed_ofExcept _).bind fun stream ↦ (framed_ofExcept _).bind fun found ↦ ?_
  cases found with
  | none => exact framed_giveUp _ _
  | some found => exact (framed_ofExcept _).bind fun _ ↦ framed_pure _

theorem framed_map (f : Value → Call Value) (hp : Framed p) : Framed (map p f) :=
  framed_andThen hp fun _ _ ↦ (framed_ofCall _).bind fun _ ↦ framed_pure _

theorem framed_mapOption (f : Value → Call Value) (hp : Framed p) : Framed (mapOption p f) := by
  refine framed_andThen hp fun rest value ↦ (framed_ofCall _).bind fun mapped ↦ ?_
  split
  · exact framed_pure _
  · exact framed_pure _

theorem framed_mapResult (f : Value → Call Value) (hp : Framed p) : Framed (mapResult p f) := by
  intro place
  refine framed_andThen hp (fun rest value ↦ (framed_attempt _).bind fun outcome ↦ ?_) place
  cases outcome with
  | ok mapped => exact framed_pure _
  | error fault => exact framed_giveUp _ _

theorem framed_compose (hp : Framed p) (hq : Framed q) : Framed (compose p q) :=
  framed_andThen hp fun middle _ ↦
    framed_andThen hq (fun _ _ ↦ (framed_ofCall _).bind fun _ ↦ framed_pure _) middle

theorem framed_chooseNext (choose : Value → Call Unit) {next : Value → Parse} (hp : Framed p)
    (hnext : ∀ v, Framed (next v)) : Framed (chooseNext p choose next) :=
  framed_andThen hp fun rest value ↦ (framed_ofCall _).bind fun _ ↦ hnext value rest

theorem framed_both (hp : Framed p) (hq : Framed q) : Framed (both p q) :=
  framed_andThen hp fun middle _ ↦ framed_andThen hq (fun _ _ ↦ framed_pure _) middle

theorem framed_left (hp : Framed p) (hq : Framed q) : Framed (left p q) := by
  intro place
  refine (hp place).bind fun reply ↦ framed_whenSuccess reply fun first ↦ ?_
  refine (framed_ofExcept first.first).bind fun middle ↦ ?_
  refine (hq middle).bind fun reply ↦ framed_whenSuccess reply fun second ↦ ?_
  refine (framed_ofExcept second.first).bind fun rest ↦ ?_
  exact (framed_ofExcept first.second).bind fun value ↦ framed_pure _

theorem framed_right (hp : Framed p) (hq : Framed q) : Framed (right p q) := by
  intro place
  refine (hp place).bind fun reply ↦ framed_whenSuccess reply fun first ↦ ?_
  exact (framed_ofExcept first.first).bind fun middle ↦ hq middle

theorem framed_mid (hp : Framed p) (hq : Framed q) (hr : Framed r) : Framed (mid p q r) := by
  intro place
  refine (hp place).bind fun reply ↦ framed_whenSuccess reply fun first ↦ ?_
  refine (framed_ofExcept first.first).bind fun middle ↦ ?_
  refine (hq middle).bind fun reply ↦ framed_whenSuccess reply fun second ↦ ?_
  refine (framed_ofExcept second.first).bind fun last ↦ ?_
  refine (hr last).bind fun reply ↦ framed_whenSuccess reply fun third ↦ ?_
  refine (framed_ofExcept third.first).bind fun rest ↦ ?_
  exact (framed_ofExcept second.second).bind fun value ↦ framed_pure _

/-! ### Framed backtracking -/

theorem framed_either (hp : Framed p) (hq : Framed q) : Framed (either p q) := by
  intro place
  refine framed_mark_bind ((hp place).withMark.bind fun reply ↦ ?_)
  cases reply with
  | failure => exact framedFrom_rollback.bind fun _ ↦ (hq place).withMark
  | success rest value => exact (framed_pure _).withMark
  | malformed v => exact (framed_pure _).withMark

theorem framed_optional (hp : Framed p) : Framed (optional p) := by
  intro place
  refine framed_mark_bind ((hp place).withMark.bind fun reply ↦ ?_)
  cases reply with
  | failure => exact framedFrom_rollback.bind fun _ ↦ (framed_pure _).withMark
  | success rest value => exact (framed_pure _).withMark
  | malformed v => exact (framed_pure _).withMark

theorem framed_repeatFrom (hp : Framed p) (bound : Nat) :
    ∀ place values, (repeatFrom p bound place values).Framed := by
  induction bound with
  | zero => exact fun _ _ ↦ framed_unfinished
  | succ bound ih =>
    intro place values
    refine framed_mark_bind ((hp place).withMark.bind fun reply ↦ ?_)
    cases reply with
    | failure => exact framedFrom_rollback.bind fun _ ↦ (framed_pure _).withMark
    | success rest value => exact ((framed_ofExcept _).bind fun _ ↦ ih _ _).withMark
    | malformed v => exact ((framed_ofExcept _).bind fun _ ↦ ih _ _).withMark

theorem framed_countFrom (hp : Framed p) (n : Nat) :
    ∀ place values, (countFrom p n place values).Framed := by
  induction n with
  | zero => exact fun _ _ ↦ framed_pure _
  | succ n ih =>
    intro place values
    exact framed_andThen hp (fun rest value ↦ ih rest (value :: values)) place

/-- Giving up on an operator rolls back to the mark that was taken before it. -/
theorem framedFrom_noLink : FramedFrom fun mark ↦ do
    rollback mark
    return (none : Option (Place × Link)) :=
  framedFrom_rollback.bind fun _ ↦ (framed_pure _).withMark

theorem framedFrom_operand (hp : Framed p) (operator : Reply) : FramedFrom fun mark ↦ do
    match ← p (← ofExcept operator.first) with
    | .failure =>
      rollback mark
      return none
    | operand =>
      let f ← ofExcept operator.second
      let (rest, value) ← ofExcept operand.parts
      return some (rest, Link.mk f value) := by
  refine (framed_ofExcept _).withMark.bind fun middle ↦ (hp middle).withMark.bind fun reply ↦ ?_
  cases reply with
  | failure => exact framedFrom_noLink
  | success rest value =>
    exact ((framed_ofExcept _).bind fun _ ↦ (framed_ofExcept _).bind fun _ ↦
      framed_pure _).withMark
  | malformed v =>
    exact ((framed_ofExcept _).bind fun _ ↦ (framed_ofExcept _).bind fun _ ↦
      framed_pure _).withMark

theorem framed_link (hp : Framed p) (hop : Framed op) (place : Place) :
    (link p op place).Framed := by
  refine framed_mark_bind ((hop place).withMark.bind fun reply ↦ ?_)
  cases reply with
  | failure => exact framedFrom_noLink
  | success rest value => exact framedFrom_operand hp _
  | malformed v => exact framedFrom_operand hp _

theorem framed_chainLeftFrom (hp : Framed p) (hop : Framed op) (bound : Nat) :
    ∀ place combined, (chainLeftFrom p op bound place combined).Framed := by
  induction bound with
  | zero => exact fun _ _ ↦ framed_unfinished
  | succ bound ih =>
    intro place combined
    refine (framed_link hp hop place).bind fun found ↦ ?_
    cases found with
    | none => exact framed_pure _
    | some found => exact (framed_ofCall _).bind fun _ ↦ ih _ _

theorem framed_chainRightFrom (hp : Framed p) (hop : Framed op) (bound : Nat) :
    ∀ place last links, (chainRightFrom p op bound place last links).Framed := by
  induction bound with
  | zero => exact fun _ _ _ ↦ framed_unfinished
  | succ bound ih =>
    intro place last links
    refine (framed_link hp hop place).bind fun found ↦ ?_
    cases found with
    | none => exact (framed_foldlM (fun _ _ ↦ framed_ofCall _) _ _).bind fun _ ↦ framed_pure _
    | some found => exact ih _ _ _

theorem framed_lookAhead (hp : Framed p) : Framed (lookAhead p) := by
  intro place
  refine (hp place).bind fun reply ↦ framed_whenSuccess reply fun found ↦ ?_
  exact (framed_ofExcept found.second).bind fun value ↦ framed_pure _

theorem framed_notFollowedBy (hp : Framed p) : Framed (notFollowedBy p) := by
  intro place
  refine framed_mark_bind ((hp place).withMark.bind fun reply ↦
    framedFrom_rollback.bind fun _ ↦ ?_)
  cases reply with
  | failure => exact (framed_pure _).withMark
  | success rest value => exact ((framed_ofExcept _).bind fun _ ↦ framed_giveUp _ _).withMark
  | malformed v => exact ((framed_ofExcept _).bind fun _ ↦ framed_giveUp _ _).withMark

/-! ### Framed diagnostics and cells -/

theorem framed_annotate (severity : Severity) (text : String) (hp : Framed p) :
    Framed (annotate severity p text) := by
  intro place
  refine (framed_ofExcept place.position).bind fun position ↦ ?_
  exact (framed_complain ⟨severity, position, text⟩).bind fun _ ↦ hp place

theorem framed_label (name : String) (hp : Framed p) : Framed (label p name) := by
  intro place
  refine (hp place).bind fun reply ↦ ?_
  cases reply with
  | failure => exact framed_giveUp _ _
  | success rest value => exact framed_pure _
  | malformed v => exact framed_pure _

theorem framed_inspect (observe : Place → Reply → Call Unit) (hp : Framed p) :
    Framed (inspect p observe) := by
  intro place
  refine (hp place).bind fun reply ↦ ?_
  exact (framed_ofCall (observe place reply)).bind fun _ ↦ framed_pure reply

theorem framed_recover (default : Value) (hp : Framed p) : Framed (recover p default) := by
  intro place
  refine (hp place).bind fun reply ↦ ?_
  cases reply with
  | failure => exact framed_pure _
  | success rest value => exact framed_pure _
  | malformed v => exact framed_pure _

theorem framed_trace (name : String) (hp : Framed p) : Framed (trace name p) := by
  intro place
  have hmatched : ∀ reply : Reply, Run.Framed do
      let value ← ofExcept reply.second
      let rest ← ofExcept reply.first
      Run.note (.matched name value (← ofExcept rest.position))
      return reply := by
    intro reply
    refine (framed_ofExcept reply.second).bind fun value ↦ ?_
    refine (framed_ofExcept reply.first).bind fun rest ↦ ?_
    refine (framed_ofExcept rest.position).bind fun finish ↦ ?_
    exact (framed_note _).bind fun _ ↦ framed_pure reply
  refine (framed_ofExcept place.position).bind fun start ↦ ?_
  refine (framed_ofExcept place.preview).bind fun preview ↦ (framed_note _).bind fun _ ↦ ?_
  refine (hp place).bind fun reply ↦ ?_
  cases reply with
  | failure => exact (framed_note _).bind fun _ ↦ framed_pure _
  | success rest value => exact hmatched _
  | malformed v => exact hmatched _

end Parse

/-! ### Framed grammars -/

namespace Grammar

/-- Whatever a grammar is built from, it keeps parsers framed. -/
theorem framed_invariant : Invariant (fun _ ↦ True) Parse.Framed where
  unfinished := fun _ ↦ Run.framed_unfinished
  succeed := fun _ _ _ ↦ Run.framed_pure _
  empty := fun _ _ ↦ Run.framed_pure _
  eof := fun _ ↦ Parse.framed_eof
  element := fun test describe _ ↦ Parse.framed_element test describe
  token := fun test describe _ ↦ Parse.framed_token test describe
  literal := fun v _ ↦ Parse.framed_literal v
  regex := fun pattern _ ↦ Parse.framed_regex pattern
  raise := fun fault _ ↦ Run.framed_fault fault
  reply := fun _ _ _ ↦ Run.framed_pure _
  map := fun _ _ f _ hp ↦ Parse.framed_map f hp
  mapOption := fun _ _ f _ hp ↦ Parse.framed_mapOption f hp
  mapResult := fun _ _ f _ hp ↦ Parse.framed_mapResult f hp
  compose := fun _ _ hp hq ↦ Parse.framed_compose hp hq
  chooseNext := fun _ choose _ hp hnext ↦ Parse.framed_chooseNext choose hp hnext
  both := fun _ _ hp hq ↦ Parse.framed_both hp hq
  left := fun _ _ hp hq ↦ Parse.framed_left hp hq
  right := fun _ _ hp hq ↦ Parse.framed_right hp hq
  mid := fun _ _ _ hp hq hr ↦ Parse.framed_mid hp hq hr
  either := fun _ _ hp hq ↦ Parse.framed_either hp hq
  many := fun bound _ hp place ↦ Parse.framed_repeatFrom hp bound place []
  oneOrMore := fun bound _ hp ↦
    Parse.framed_andThen hp fun rest first ↦ Parse.framed_repeatFrom hp bound rest [first]
  optional := fun _ hp ↦ Parse.framed_optional hp
  optionalEmpty := Parse.framed_optional fun _ ↦ Run.framed_pure _
  count := fun n _ hp place ↦ Parse.framed_countFrom hp n place []
  chainLeft := fun bound _ _ hp hop ↦
    Parse.framed_andThen hp (Parse.framed_chainLeftFrom hp hop bound)
  chainRight := fun bound _ _ hp hop ↦
    Parse.framed_andThen hp fun rest first ↦ Parse.framed_chainRightFrom hp hop bound rest first []
  lookAhead := fun _ hp ↦ Parse.framed_lookAhead hp
  notFollowedBy := fun _ hp ↦ Parse.framed_notFollowedBy hp
  annotate := fun severity _ _ text _ hp ↦ Parse.framed_annotate severity text hp
  label := fun _ _ name _ hp ↦ Parse.framed_label name hp
  inspect := fun _ _ observe _ hp ↦ Parse.framed_inspect observe hp
  recover := fun _ _ default _ hp ↦ Parse.framed_recover default hp
  trace := fun name _ hp ↦ Parse.framed_trace name hp

/-- Earlier messages in the log make no difference to a grammar, in any scope and within any
bound. -/
theorem framed_eval (definitions : Definitions) (bound : Nat) (scope : Scope) (p : Grammar) :
    Parse.Framed (p.eval definitions bound scope) :=
  framed_invariant.eval_of_forall (fun _ ↦ trivial) definitions bound scope p

/-! ### Framed runs of cells -/

end Grammar

namespace World

variable (world : World) (fuel : Nat)

theorem framed_current (parser : Closure) : (world.current fuel parser).Framed := by
  intro earlier journal
  rw [world.current_apply, world.current_apply]
  rfl

theorem framed_force (cell : Closure) (label : Nat) (name : String) :
    (world.force fuel cell label name).Framed := by
  refine (Run.framed_fetch _).bind fun found ↦ ?_
  cases found with
  | some built => exact Run.framed_pure _
  | none =>
    refine (Run.framed_note _).bind fun _ ↦ ?_
    cases Operand.deferred (world.callback cell.scope cell.grammar) with
    | error fault => exact Run.framed_fault fault
    | ok p =>
      refine (Run.framed_note _).bind fun _ ↦ (world.framed_current fuel _).bind fun entry ↦ ?_
      exact (Run.framed_store _ _).bind fun _ ↦ Run.framed_pure _

theorem framed_first (cell : Closure) (label : Nat) (name : String) :
    (world.first fuel cell label name).Framed :=
  (Run.framed_note _).bind fun _ ↦ (world.framed_force fuel cell label name).bind fun parser ↦
    world.framed_current fuel parser

theorem framed_visit (cell : Closure) (label : Nat) (name : String) :
    (world.visit fuel cell label name).Framed := by
  refine (Run.framed_fetch _).bind fun found ↦ ?_
  cases found with
  | some built => exact (Run.framed_note _).bind fun _ ↦ Run.framed_pure _
  | none => exact world.framed_first fuel cell label name

theorem framed_preserves : world.Preserves (fun _ ↦ True) fun p _ ↦ Parse.Framed p where
  stamp := fun _ hparse place ↦ Run.framed_stamp.bind fun stamp ↦ hparse stamp place
  cell := by
    intro fuel cell label name found hfound _ hcell enter henter place
    have hframed : found.Framed := by
      rcases hfound with rfl | rfl
      · exact world.framed_visit fuel cell label name
      · exact world.framed_first fuel cell label name
    refine hframed.bind fun entry ↦ henter entry.2 entry.1 ⟨?_, ?_⟩ place
    · exact Scope.everywhere_of_forall (fun _ ↦ trivial) _
    · exact Grammar.everywhere_of_forall (fun _ ↦ trivial) _

end World

namespace Grammar

/-- Earlier messages in the log make no difference to a run, whatever the world and the bound. -/
theorem framed_exec (world : World) (bound passed : Nat) (closure : Closure) :
    Parse.Framed (world.exec bound passed closure) := by
  have hall {q : Grammar} : q.Everywhere fun _ ↦ True :=
    everywhere_of_forall (fun _ ↦ trivial) q
  exact framed_invariant.hereditary.exec (fun _ _ _ ↦ hall) world.framed_preserves bound passed
    closure ⟨Scope.everywhere_of_forall (fun _ ↦ trivial) _, hall⟩

theorem framed_runWithin (world : World) (bound : Nat) (p : Grammar) (place : Place) :
    (p.runWithin world bound place).Framed :=
  (framed_exec world bound 0 ⟨.top, p⟩ place).bind fun _ ↦ Run.framed_ofExcept _

/-- A log from before a run stays in front of what the run logs, and the run is otherwise the one
with an empty log: it has the same reply or fault, leaves the same notes and builds the same cells.
This holds of what a grammar means in any scope and within any bound, and of whole runs, whatever
the callbacks of cells come to. -/
theorem run_with_log (definitions : Definitions) (p : Grammar) (place : Place) (log : Log)
    (notes : Array Note) (memory : Memory) :
    (∀ bound scope, p.eval definitions bound scope place ⟨log, notes, memory⟩ =
        (p.eval definitions bound scope place ⟨.empty, notes, memory⟩).after log) ∧
      (∀ world bound, p.runWithin world bound place ⟨log, notes, memory⟩ =
        (p.runWithin world bound place ⟨.empty, notes, memory⟩).after log) ∧
      p.run definitions place ⟨log, notes, memory⟩ =
        (p.run definitions place ⟨.empty, notes, memory⟩).after log := by
  have hjournal : Journal.after log ⟨.empty, notes, memory⟩ = ⟨log, notes, memory⟩ := by
    rw [Journal.after, Log.append_empty]
  have hrun (world : World) (bound : Nat) := framed_runWithin world bound p place
  refine ⟨fun bound scope ↦ ?_, fun world bound ↦ ?_, ?_⟩
  · rw [← framed_eval definitions bound scope p place, hjournal]
  · rw [← hrun world bound, hjournal]
  · rw [run, ← hrun definitions.world ampleBound, hjournal]

end Grammar

end DiagnosticParsing
