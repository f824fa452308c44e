import DiagnosticParsing.Proofs.Ensures
import DiagnosticParsing.Proofs.Invariant

/-!
# What a parser adds to the log

A `Discipline` says which messages a parser may leave behind when it failed, and which when it did
not. It accepts silence after a success and a single error after a failure, and the messages of one
success in front of whatever else it accepts. Every parser obeys a discipline
(`Discipline.Obeyed`) that permits the few constructors that log, or fail, in a way of their own
(`Discipline.Permits`); this is `Discipline.invariant`. Backtracking is what the proof is about:
a parser that goes on after a failed attempt has taken back all that the attempt logged and nothing
else, so that `Run.AddsFrom` counts messages from the mark.

Two disciplines are defined in `DiagnosticParsing.Proofs.Explanation`. Under one the last message of
a failure is an error. Under the other a failure leaves exactly one error and anything else leaves
nothing.
-/

set_option autoImplicit false

namespace DiagnosticParsing

/-! ### Messages added by a run -/

namespace Run

variable {α β : Type}

/-- Whenever a run ends with a result, it has added accepted messages to the log, whatever the log
held before. -/
def Adds (run : Run α) (accept : α → List Message → Prop) : Prop :=
  ∀ journal, run.Ensures journal fun result final ↦
    ∃ added, final.log.toList = journal.log.toList ++ added ∧ accept result added

/-- The same for a run that started behind a mark, counting from the mark: the messages `added` were
logged since it was taken. -/
def AddsFrom (added : List Message) (run : Nat → Run α) (accept : α → List Message → Prop) : Prop :=
  ∀ earlier journal, journal.log.toList = earlier ++ added →
    (run earlier.length).Ensures journal fun result final ↦
      ∃ more, final.log.toList = earlier ++ more ∧ accept result more

/-- A run that adds nothing. -/
def Silent (run : Run α) : Prop :=
  ∀ journal, run.Ensures journal fun _ final ↦ final.log = journal.log

theorem silent_ofExcept (outcome : Except Fault α) : (ofExcept outcome).Silent := by
  intro journal
  simp

theorem silent_ofCall (call : Call α) : (ofCall call).Silent := by
  intro journal
  simp [Journal.noteAll]

theorem silent_attempt (call : Call α) : (attempt call).Silent := by
  intro journal
  simp [Journal.noteAll]

theorem silent_note (n : Note) : (note n).Silent := by
  intro journal
  simp [Journal.note]

theorem silent_pure (a : α) : (pure a : Run α).Silent := by
  intro journal
  simp

theorem silent_foldlM {step : β → α → Run β} (hstep : ∀ b a, (step b a).Silent) (items : List α) :
    ∀ start, (items.foldlM step start).Silent := by
  induction items with
  | nil => exact silent_pure
  | cons item rest ih =>
    intro start journal
    rw [List.foldlM_cons, ensures_bind]
    refine (hstep start item journal).mono fun next middle hmiddle ↦ ?_
    rw [← hmiddle]
    exact ih next middle

theorem adds_pure {a : α} {accept : α → List Message → Prop} (h : accept a []) :
    (pure a : Run α).Adds accept := by
  intro journal
  rw [ensures_pure]
  exact ⟨[], (List.append_nil _).symm, h⟩

theorem adds_fault (f : Fault) (accept : α → List Message → Prop) : (fault f : Run α).Adds accept :=
  fun journal ↦ ensures_fault f journal _

theorem adds_unfinished (accept : α → List Message → Prop) : (unfinished : Run α).Adds accept :=
  fun journal ↦ ensures_unfinished journal _

theorem adds_complain (message : Message) :
    (complain message).Adds fun _ added ↦ added = [message] := by
  intro journal
  rw [ensures_complain]
  exact ⟨[message], Log.toList_add journal.log message, rfl⟩

theorem Adds.mono {run : Run α} {accept weaker : α → List Message → Prop} (hrun : run.Adds accept)
    (hweaker : ∀ a added, accept a added → weaker a added) : run.Adds weaker := by
  intro journal
  refine (hrun journal).mono fun a final hfinal ↦ ?_
  obtain ⟨added, hlog, haccept⟩ := hfinal
  exact ⟨added, hlog, hweaker a added haccept⟩

/-- Messages of two runs, one behind the other. -/
theorem Adds.bind {run : Run α} {next : α → Run β} {accept : α → List Message → Prop}
    {target : β → List Message → Prop} (hrun : run.Adds accept)
    (hnext : ∀ a added, accept a added → (next a).Adds fun b more ↦ target b (added ++ more)) :
    (run >>= next).Adds target := by
  intro journal
  rw [ensures_bind]
  refine (hrun journal).mono fun a middle hmiddle ↦ ?_
  obtain ⟨added, hlog, haccept⟩ := hmiddle
  refine (hnext a added haccept middle).mono fun b final hfinal ↦ ?_
  obtain ⟨more, hmore, htarget⟩ := hfinal
  exact ⟨added ++ more, by rw [hmore, hlog, List.append_assoc], htarget⟩

/-- A silent run in front changes nothing. -/
theorem Silent.bind {run : Run α} {next : α → Run β} {target : β → List Message → Prop}
    (hrun : run.Silent) (hnext : ∀ a, (next a).Adds target) : (run >>= next).Adds target := by
  intro journal
  rw [ensures_bind]
  refine (hrun journal).mono fun a middle hmiddle ↦ ?_
  rw [← hmiddle]
  exact hnext a middle

/-! ### Messages counted from a mark -/

/-- A mark is taken where nothing has been added yet. -/
theorem adds_mark_bind {next : Nat → Run α} {target : α → List Message → Prop}
    (hnext : AddsFrom [] next target) : (mark >>= next).Adds target := by
  intro journal
  rw [ensures_mark_bind]
  exact hnext journal.log.toList journal (List.append_nil _).symm

/-- A run that does not roll back adds its messages behind the ones since the mark. -/
theorem Adds.fromMark {run : Run α} {added : List Message} {target : α → List Message → Prop}
    (hrun : run.Adds fun a more ↦ target a (added ++ more)) :
    AddsFrom added (fun _ ↦ run) target := by
  intro earlier journal hlog
  refine (hrun journal).mono fun a final hfinal ↦ ?_
  obtain ⟨more, hmore, htarget⟩ := hfinal
  exact ⟨added ++ more, by rw [hmore, hlog, List.append_assoc], htarget⟩

/-- A rollback leaves none of the messages since the mark. -/
theorem addsFrom_rollback_bind {next : Unit → Run α} {added : List Message}
    {target : α → List Message → Prop} (hnext : (next ()).Adds target) :
    AddsFrom added (fun mark ↦ rollback mark >>= next) target := by
  intro earlier journal hlog
  rw [ensures_bind, ensures_rollback]
  have hback : (journal.rollback earlier.length).log.toList = earlier := by
    rw [Journal.rollback, Log.toList_rollback, hlog, List.take_left]
  have hrest := hnext (journal.rollback earlier.length)
  rwa [hback] at hrest

theorem Adds.bindFrom {run : Run α} {next : Nat → α → Run β} {added : List Message}
    {accept : α → List Message → Prop} {target : β → List Message → Prop} (hrun : run.Adds accept)
    (hnext : ∀ a more, accept a more → AddsFrom (added ++ more) (fun mark ↦ next mark a) target) :
    AddsFrom added (fun mark ↦ run >>= next mark) target := by
  intro earlier journal hlog
  rw [ensures_bind]
  refine (hrun journal).mono fun a middle hmiddle ↦ ?_
  obtain ⟨more, hmore, haccept⟩ := hmiddle
  exact hnext a more haccept earlier middle (by rw [hmore, hlog, List.append_assoc])

theorem Silent.bindFrom {run : Run α} {next : Nat → α → Run β} {added : List Message}
    {target : β → List Message → Prop} (hrun : run.Silent)
    (hnext : ∀ a, AddsFrom added (fun mark ↦ next mark a) target) :
    AddsFrom added (fun mark ↦ run >>= next mark) target := by
  intro earlier journal hlog
  rw [ensures_bind]
  refine (hrun journal).mono fun a middle hmiddle ↦ ?_
  exact hnext a earlier middle (by rw [hmiddle, hlog])

end Run

/-! ### Disciplines -/

/-- Whether a reply is a failure. -/
def Reply.failed : Reply → Bool
  | .failure => true
  | _ => false

/-- Which messages a parser may add to the log, when it failed and when it did not. -/
structure Discipline where
  /-- Whether messages are accepted of a parser that failed or did not fail. -/
  accepts : (failed : Bool) → List Message → Prop
  /-- A parser that did not fail may be silent. -/
  silence : accepts false []
  /-- A parser that failed may have said why. -/
  complaint : ∀ message : Message, message.severity = .error → accepts true [message]
  /-- What is accepted of a parser that did not fail may stand in front of what comes next. -/
  append : ∀ failed added more, accepts false added → accepts failed more →
    accepts failed (added ++ more)

namespace Discipline

variable (discipline : Discipline)

/-- Whether messages are accepted of a parser with a reply. -/
def ofReply (reply : Reply) (added : List Message) : Prop :=
  discipline.accepts reply.failed added

/-- The constructor of a grammar respects the discipline. Only those that fail without a message,
log at will or keep what a failure has logged can be in conflict with one. -/
def Permits : Grammar → Prop
  | .empty => discipline.accepts true []
  | .reply answer => discipline.ofReply answer []
  | .mapOption _ _ => ∀ added, discipline.accepts false added → discipline.accepts true added
  | .annotate severity _ _ => ∀ failed added (message : Message), message.severity = severity →
      discipline.accepts failed added → discipline.accepts failed (message :: added)
  | .label _ _ => ∀ added (message : Message), message.severity = .error →
      discipline.accepts true added → discipline.accepts true (added ++ [message])
  | .recover _ _ => ∀ added, discipline.accepts true added → discipline.accepts false added
  | _ => True

/-- Wherever a parser starts, it adds only what the discipline accepts. -/
def Obeyed (p : Parse) : Prop :=
  ∀ place, (p place).Adds discipline.ofReply

end Discipline

/-! ### Parsers under a discipline -/

namespace Parse

open Run

variable {discipline : Discipline} {p q r op : Parse}

/-- What a run adds is accepted behind the messages of a parser that did not fail. -/
theorem adds_behind {run : Run Reply} {added : List Message}
    (hadded : discipline.accepts false added) (hrun : run.Adds discipline.ofReply) :
    run.Adds fun reply more ↦ discipline.ofReply reply (added ++ more) :=
  hrun.mono fun reply more hmore ↦ discipline.append reply.failed added more hadded hmore

/-- Nothing is added behind the messages of a parser. -/
theorem adds_reply {reply : Reply} {added : List Message}
    (hadded : discipline.accepts reply.failed added) :
    (pure reply : Run Reply).Adds fun reply more ↦ discipline.ofReply reply (added ++ more) :=
  adds_pure (by rwa [List.append_nil])

theorem adds_success (rest : Place) (value : Value) :
    (pure (.success rest value) : Run Reply).Adds discipline.ofReply :=
  adds_pure discipline.silence

/-- Giving up adds one error. -/
theorem adds_complaint (place : Place) (text : String) :
    (giveUp place text).Adds fun reply added ↦
      reply = .failure ∧ ∃ message : Message, message.severity = .error ∧ added = [message] := by
  refine (silent_ofExcept _).bind fun position ↦
    (adds_complain ⟨.error, position, text⟩).bind fun _ added hadded ↦ ?_
  exact adds_pure ⟨rfl, _, rfl, by rw [hadded, List.append_nil]⟩

theorem adds_giveUp (place : Place) (text : String) :
    (giveUp place text).Adds discipline.ofReply := by
  refine (adds_complaint place text).mono fun reply added h ↦ ?_
  obtain ⟨rfl, message, hseverity, rfl⟩ := h
  exact discipline.complaint message hseverity

theorem adds_whenSuccess {reply : Reply} {next : Reply → Run Reply} {added : List Message}
    (hadded : discipline.ofReply reply added)
    (hnext : ∀ reply, (next reply).Adds discipline.ofReply) :
    (whenSuccess reply next).Adds fun reply more ↦ discipline.ofReply reply (added ++ more) := by
  cases reply with
  | failure => exact adds_reply hadded
  | success rest value => exact adds_behind hadded (hnext _)
  | malformed v => exact adds_behind hadded (hnext _)

theorem obeyed_andThen {next : Place → Value → Run Reply} (hp : discipline.Obeyed p)
    (hnext : ∀ rest value, (next rest value).Adds discipline.ofReply) :
    discipline.Obeyed (andThen p next) := by
  intro place
  refine (hp place).bind fun reply added hadded ↦ ?_
  cases reply with
  | failure => exact adds_reply hadded
  | success rest value =>
    exact adds_behind hadded ((silent_ofExcept _).bind fun _ ↦ hnext _ _)
  | malformed v =>
    exact adds_behind hadded ((silent_ofExcept _).bind fun _ ↦ hnext _ _)

theorem obeyed_eof : discipline.Obeyed eof := by
  intro place
  refine (silent_ofExcept _).bind fun stream ↦ ?_
  split
  · exact adds_success _ _
  · exact adds_giveUp _ _

theorem obeyed_element (test : Value → Except Fault Bool)
    (describe : Value → Except Fault String) : discipline.Obeyed (element test describe) := by
  intro place
  refine (silent_ofExcept _).bind fun stream ↦ (silent_ofExcept _).bind fun step ↦ ?_
  split
  · exact adds_giveUp _ _
  · refine (silent_ofExcept _).bind fun passed ↦ ?_
    cases passed with
    | true => exact adds_success _ _
    | false => exact (silent_ofExcept _).bind fun _ ↦ adds_giveUp _ _

theorem obeyed_token (test describe : Value → Call Value) :
    discipline.Obeyed (token test describe) := by
  intro place
  refine (silent_ofExcept _).bind fun stream ↦ (silent_ofExcept _).bind fun step ↦ ?_
  split
  · exact adds_giveUp _ _
  · refine (silent_ofCall _).bind fun value ↦ ?_
    split
    · exact (silent_ofCall _).bind fun _ ↦ adds_giveUp _ _
    · exact adds_success _ _

theorem obeyed_literal (v : Value) : discipline.Obeyed (literal v) := by
  intro place
  unfold literal
  split
  · refine (silent_ofExcept _).bind fun items ↦ (silent_ofExcept _).bind fun rest ↦ ?_
    cases rest with
    | some rest => exact adds_success _ _
    | none => exact adds_giveUp _ _
  · split
    · refine (silent_ofExcept _).bind fun items ↦ ?_
      split
      · exact adds_success _ _
      · exact adds_fault _ _
    · refine (silent_ofExcept _).bind fun items ↦ ?_
      split
      · exact adds_success _ _
      · exact adds_fault _ _
    · exact adds_fault _ _

theorem obeyed_regex (pattern : Pattern) : discipline.Obeyed (regex pattern) := by
  intro place
  refine (silent_ofExcept _).bind fun stream ↦ (silent_ofExcept _).bind fun found ↦ ?_
  cases found with
  | none => exact adds_giveUp _ _
  | some found => exact (silent_ofExcept _).bind fun _ ↦ adds_success _ _

theorem obeyed_map (f : Value → Call Value) (hp : discipline.Obeyed p) :
    discipline.Obeyed (map p f) :=
  obeyed_andThen hp fun _ _ ↦ (silent_ofCall _).bind fun _ ↦ adds_success _ _

/-- A value rejected without a message: the parser failed after a success. -/
theorem obeyed_mapOption (f : Value → Call Value)
    (hpermits : ∀ added, discipline.accepts false added → discipline.accepts true added)
    (hp : discipline.Obeyed p) : discipline.Obeyed (mapOption p f) := by
  refine obeyed_andThen hp fun rest value ↦ (silent_ofCall _).bind fun mapped ↦ ?_
  split
  · exact adds_pure (hpermits [] discipline.silence)
  · exact adds_success _ _

theorem obeyed_mapResult (f : Value → Call Value) (hp : discipline.Obeyed p) :
    discipline.Obeyed (mapResult p f) := by
  intro place
  refine obeyed_andThen hp (fun rest value ↦ (silent_attempt _).bind fun outcome ↦ ?_) place
  cases outcome with
  | ok mapped => exact adds_success _ _
  | error fault => exact adds_giveUp _ _

theorem obeyed_compose (hp : discipline.Obeyed p) (hq : discipline.Obeyed q) :
    discipline.Obeyed (compose p q) :=
  obeyed_andThen hp fun middle _ ↦
    obeyed_andThen hq (fun _ _ ↦ (silent_ofCall _).bind fun _ ↦ adds_success _ _) middle

theorem obeyed_chooseNext (choose : Value → Call Unit) {next : Value → Parse}
    (hp : discipline.Obeyed p) (hnext : ∀ v, discipline.Obeyed (next v)) :
    discipline.Obeyed (chooseNext p choose next) :=
  obeyed_andThen hp fun rest value ↦ (silent_ofCall _).bind fun _ ↦ hnext value rest

theorem obeyed_both (hp : discipline.Obeyed p) (hq : discipline.Obeyed q) :
    discipline.Obeyed (both p q) :=
  obeyed_andThen hp fun middle _ ↦ obeyed_andThen hq (fun _ _ ↦ adds_success _ _) middle

theorem obeyed_left (hp : discipline.Obeyed p) (hq : discipline.Obeyed q) :
    discipline.Obeyed (left p q) := by
  intro place
  refine (hp place).bind fun reply added hadded ↦ adds_whenSuccess hadded fun first ↦ ?_
  refine (silent_ofExcept _).bind fun middle ↦ (hq middle).bind fun reply added hadded ↦
    adds_whenSuccess hadded fun second ↦ ?_
  exact (silent_ofExcept _).bind fun _ ↦ (silent_ofExcept _).bind fun _ ↦ adds_success _ _

theorem obeyed_right (hp : discipline.Obeyed p) (hq : discipline.Obeyed q) :
    discipline.Obeyed (right p q) := by
  intro place
  refine (hp place).bind fun reply added hadded ↦ adds_whenSuccess hadded fun first ↦ ?_
  exact (silent_ofExcept _).bind fun middle ↦ hq middle

theorem obeyed_mid (hp : discipline.Obeyed p) (hq : discipline.Obeyed q)
    (hr : discipline.Obeyed r) : discipline.Obeyed (mid p q r) := by
  intro place
  refine (hp place).bind fun reply added hadded ↦ adds_whenSuccess hadded fun first ↦ ?_
  refine (silent_ofExcept _).bind fun middle ↦ (hq middle).bind fun reply added hadded ↦
    adds_whenSuccess hadded fun second ↦ ?_
  refine (silent_ofExcept _).bind fun last ↦ (hr last).bind fun reply added hadded ↦
    adds_whenSuccess hadded fun third ↦ ?_
  exact (silent_ofExcept _).bind fun _ ↦ (silent_ofExcept _).bind fun _ ↦ adds_success _ _

/-! ### Backtracking under a discipline -/

theorem obeyed_either (hp : discipline.Obeyed p) (hq : discipline.Obeyed q) :
    discipline.Obeyed (either p q) := by
  intro place
  refine adds_mark_bind ((hp place).bindFrom fun reply added hadded ↦ ?_)
  cases reply with
  | failure => exact addsFrom_rollback_bind (hq place)
  | success rest value => exact (adds_reply hadded).fromMark
  | malformed v => exact (adds_reply hadded).fromMark

theorem obeyed_optional (hp : discipline.Obeyed p) : discipline.Obeyed (optional p) := by
  intro place
  refine adds_mark_bind ((hp place).bindFrom fun reply added hadded ↦ ?_)
  cases reply with
  | failure => exact addsFrom_rollback_bind (adds_success _ _)
  | success rest value => exact (adds_reply hadded).fromMark
  | malformed v => exact (adds_reply hadded).fromMark

/-- A silent failure does no harm where a failure is taken back. -/
theorem obeyed_optional_empty : discipline.Obeyed (optional empty) := by
  intro place
  have hempty : (empty place).Adds fun reply _ ↦ reply = .failure := adds_pure rfl
  refine adds_mark_bind (hempty.bindFrom fun reply added hreply ↦ ?_)
  rw [hreply]
  exact addsFrom_rollback_bind (adds_success _ _)

theorem adds_repeatFrom (hp : discipline.Obeyed p) (bound : Nat) :
    ∀ place values, (repeatFrom p bound place values).Adds discipline.ofReply := by
  induction bound with
  | zero => exact fun _ _ ↦ adds_unfinished _
  | succ bound ih =>
    intro place values
    refine adds_mark_bind ((hp place).bindFrom fun reply added hadded ↦ ?_)
    cases reply with
    | failure => exact addsFrom_rollback_bind (adds_success _ _)
    | success rest value =>
      exact (adds_behind hadded ((silent_ofExcept _).bind fun _ ↦ ih _ _)).fromMark
    | malformed v =>
      exact (adds_behind hadded ((silent_ofExcept _).bind fun _ ↦ ih _ _)).fromMark

theorem adds_countFrom (hp : discipline.Obeyed p) (n : Nat) :
    ∀ place values, (countFrom p n place values).Adds discipline.ofReply := by
  induction n with
  | zero => exact fun _ _ ↦ adds_success _ _
  | succ n ih =>
    intro place values
    exact obeyed_andThen hp (fun rest value ↦ ih rest (value :: values)) place

/-- What an operator is given up with. -/
theorem addsFrom_noLink (added : List Message) :
    AddsFrom added (fun mark ↦ do
      rollback mark
      return (none : Option (Place × Link))) fun _ added ↦ discipline.accepts false added :=
  addsFrom_rollback_bind (adds_pure discipline.silence)

theorem addsFrom_linked (operator operand : Reply) {added more : List Message}
    (hadded : discipline.accepts false added) (hmore : discipline.accepts false more) :
    AddsFrom (added ++ more) (fun _ ↦ do
      let f ← ofExcept operator.second
      let (rest, value) ← ofExcept operand.parts
      return some (rest, Link.mk f value)) fun _ all ↦ discipline.accepts false all := by
  refine Adds.fromMark ((silent_ofExcept _).bind fun _ ↦ (silent_ofExcept _).bind fun _ ↦ ?_)
  refine adds_pure ?_
  rw [List.append_nil]
  exact discipline.append false added more hadded hmore

theorem addsFrom_operand (hp : discipline.Obeyed p) (operator : Reply) {added : List Message}
    (hadded : discipline.accepts false added) :
    AddsFrom added (fun mark ↦ do
      match ← p (← ofExcept operator.first) with
      | .failure =>
        rollback mark
        return none
      | operand =>
        let f ← ofExcept operator.second
        let (rest, value) ← ofExcept operand.parts
        return some (rest, Link.mk f value)) fun _ added ↦ discipline.accepts false added := by
  refine (silent_ofExcept _).bindFrom fun middle ↦ (hp middle).bindFrom fun reply more hmore ↦ ?_
  cases reply with
  | failure => exact addsFrom_noLink _
  | success rest value => exact addsFrom_linked operator _ hadded hmore
  | malformed v => exact addsFrom_linked operator _ hadded hmore

/-- An operator with its operand adds what two successes may add, and nothing at all unless both
succeed. -/
theorem adds_link (hp : discipline.Obeyed p) (hop : discipline.Obeyed op) (place : Place) :
    (link p op place).Adds fun _ added ↦ discipline.accepts false added := by
  refine adds_mark_bind ((hop place).bindFrom fun reply added hadded ↦ ?_)
  cases reply with
  | failure => exact addsFrom_noLink _
  | success rest value => exact addsFrom_operand hp _ hadded
  | malformed v => exact addsFrom_operand hp _ hadded

theorem adds_chainLeftFrom (hp : discipline.Obeyed p) (hop : discipline.Obeyed op) (bound : Nat) :
    ∀ place combined, (chainLeftFrom p op bound place combined).Adds discipline.ofReply := by
  induction bound with
  | zero => exact fun _ _ ↦ adds_unfinished _
  | succ bound ih =>
    intro place combined
    refine (adds_link hp hop place).bind fun found added hadded ↦ ?_
    cases found with
    | none => exact adds_reply hadded
    | some found => exact adds_behind hadded ((silent_ofCall _).bind fun _ ↦ ih _ _)

theorem adds_chainRightFrom (hp : discipline.Obeyed p) (hop : discipline.Obeyed op) (bound : Nat) :
    ∀ place last links, (chainRightFrom p op bound place last links).Adds discipline.ofReply := by
  induction bound with
  | zero => exact fun _ _ _ ↦ adds_unfinished _
  | succ bound ih =>
    intro place last links
    refine (adds_link hp hop place).bind fun found added hadded ↦ ?_
    cases found with
    | none =>
      exact (silent_foldlM (fun _ _ ↦ silent_ofCall _) _ _).bind fun _ ↦ adds_reply hadded
    | some found => exact adds_behind hadded (ih _ _ _)

theorem obeyed_lookAhead (hp : discipline.Obeyed p) : discipline.Obeyed (lookAhead p) := by
  intro place
  refine (hp place).bind fun reply added hadded ↦ adds_whenSuccess hadded fun first ↦ ?_
  exact (silent_ofExcept _).bind fun _ ↦ adds_success _ _

theorem obeyed_notFollowedBy (hp : discipline.Obeyed p) :
    discipline.Obeyed (notFollowedBy p) := by
  intro place
  refine adds_mark_bind ((hp place).bindFrom fun reply added _ ↦ addsFrom_rollback_bind ?_)
  cases reply with
  | failure => exact adds_success _ _
  | success rest value => exact (silent_ofExcept _).bind fun _ ↦ adds_giveUp _ _
  | malformed v => exact (silent_ofExcept _).bind fun _ ↦ adds_giveUp _ _

/-! ### Diagnostics and cells under a discipline -/

theorem obeyed_annotate (severity : Severity) (text : String)
    (hpermits : ∀ failed added (message : Message), message.severity = severity →
      discipline.accepts failed added → discipline.accepts failed (message :: added))
    (hp : discipline.Obeyed p) : discipline.Obeyed (annotate severity p text) := by
  intro place
  refine (silent_ofExcept _).bind fun position ↦
    (adds_complain ⟨severity, position, text⟩).bind fun _ added hadded ↦ ?_
  refine (hp place).mono fun reply more hmore ↦ ?_
  rw [hadded]
  exact hpermits reply.failed more _ rfl hmore

theorem obeyed_label (name : String)
    (hpermits : ∀ added (message : Message), message.severity = .error →
      discipline.accepts true added → discipline.accepts true (added ++ [message]))
    (hp : discipline.Obeyed p) : discipline.Obeyed (label p name) := by
  intro place
  refine (hp place).bind fun reply added hadded ↦ ?_
  cases reply with
  | failure =>
    refine (adds_complaint place _).mono fun reply more hmore ↦ ?_
    obtain ⟨rfl, message, hseverity, rfl⟩ := hmore
    exact hpermits added message hseverity hadded
  | success rest value => exact adds_reply hadded
  | malformed v => exact adds_reply hadded

theorem obeyed_inspect (observe : Place → Reply → Call Unit) (hp : discipline.Obeyed p) :
    discipline.Obeyed (inspect p observe) := by
  intro place
  refine (hp place).bind fun reply added hadded ↦ ?_
  exact (silent_ofCall _).bind fun _ ↦ adds_reply hadded

/-- What a failure has logged stays although the parser goes on. -/
theorem obeyed_recover (default : Value)
    (hpermits : ∀ added, discipline.accepts true added → discipline.accepts false added)
    (hp : discipline.Obeyed p) : discipline.Obeyed (recover p default) := by
  intro place
  refine (hp place).bind fun reply added hadded ↦ ?_
  cases reply with
  | failure => exact adds_reply (hpermits added hadded)
  | success rest value => exact adds_reply hadded
  | malformed v => exact adds_reply hadded

theorem obeyed_trace (name : String) (hp : discipline.Obeyed p) :
    discipline.Obeyed (trace name p) := by
  intro place
  refine (silent_ofExcept _).bind fun start ↦ (silent_ofExcept _).bind fun preview ↦
    (silent_note _).bind fun _ ↦ (hp place).bind fun reply added hadded ↦ ?_
  have hmatched : ∀ reply : Reply, discipline.accepts reply.failed added → Run.Adds (do
      let value ← ofExcept reply.second
      let rest ← ofExcept reply.first
      Run.note (.matched name value (← ofExcept rest.position))
      return reply) fun reply more ↦ discipline.ofReply reply (added ++ more) :=
    fun reply hreply ↦ (silent_ofExcept _).bind fun _ ↦ (silent_ofExcept _).bind fun _ ↦
      (silent_ofExcept _).bind fun _ ↦ (silent_note _).bind fun _ ↦ adds_reply hreply
  cases reply with
  | failure => exact (silent_note _).bind fun _ ↦ adds_reply hadded
  | success rest value => exact hmatched _ hadded
  | malformed v => exact hmatched _ hadded

end Parse

/-! ### Grammars under a discipline -/

namespace Discipline

/-- A discipline that permits every allowed constructor is obeyed by every parser built from
them. -/
theorem invariant (discipline : Discipline) {allowed : Grammar → Prop}
    (hpermits : ∀ p, allowed p → discipline.Permits p) :
    Grammar.Invariant allowed discipline.Obeyed where
  unfinished := fun _ ↦ Run.adds_unfinished _
  succeed := fun v _ place ↦ Parse.adds_success place v
  empty := fun h _ ↦ Run.adds_pure (hpermits _ h)
  eof := fun _ ↦ Parse.obeyed_eof
  element := fun test describe _ ↦ Parse.obeyed_element test describe
  token := fun test describe _ ↦ Parse.obeyed_token test describe
  literal := fun v _ ↦ Parse.obeyed_literal v
  regex := fun pattern _ ↦ Parse.obeyed_regex pattern
  raise := fun fault _ ↦ Run.adds_fault fault _
  reply := fun _ h _ ↦ Run.adds_pure (hpermits _ h)
  map := fun _ _ f _ hp ↦ Parse.obeyed_map f hp
  mapOption := fun _ _ f h hp ↦ Parse.obeyed_mapOption f (hpermits _ h) hp
  mapResult := fun _ _ f _ hp ↦ Parse.obeyed_mapResult f hp
  compose := fun _ _ hp hq ↦ Parse.obeyed_compose hp hq
  chooseNext := fun _ choose _ hp hnext ↦ Parse.obeyed_chooseNext choose hp hnext
  both := fun _ _ hp hq ↦ Parse.obeyed_both hp hq
  left := fun _ _ hp hq ↦ Parse.obeyed_left hp hq
  right := fun _ _ hp hq ↦ Parse.obeyed_right hp hq
  mid := fun _ _ _ hp hq hr ↦ Parse.obeyed_mid hp hq hr
  either := fun _ _ hp hq ↦ Parse.obeyed_either hp hq
  many := fun bound _ hp place ↦ Parse.adds_repeatFrom hp bound place []
  oneOrMore := fun bound _ hp ↦
    Parse.obeyed_andThen hp fun rest first ↦ Parse.adds_repeatFrom hp bound rest [first]
  optional := fun _ hp ↦ Parse.obeyed_optional hp
  optionalEmpty := Parse.obeyed_optional_empty
  count := fun n _ hp place ↦ Parse.adds_countFrom hp n place []
  chainLeft := fun bound _ _ hp hop ↦
    Parse.obeyed_andThen hp (Parse.adds_chainLeftFrom hp hop bound)
  chainRight := fun bound _ _ hp hop ↦
    Parse.obeyed_andThen hp fun rest first ↦ Parse.adds_chainRightFrom hp hop bound rest first []
  lookAhead := fun _ hp ↦ Parse.obeyed_lookAhead hp
  notFollowedBy := fun _ hp ↦ Parse.obeyed_notFollowedBy hp
  annotate := fun severity _ _ text h hp ↦ Parse.obeyed_annotate severity text (hpermits _ h) hp
  label := fun _ _ name h hp ↦ Parse.obeyed_label name (hpermits _ h) hp
  inspect := fun _ _ observe _ hp ↦ Parse.obeyed_inspect observe hp
  recover := fun _ _ default h hp ↦ Parse.obeyed_recover default (hpermits _ h) hp
  trace := fun name _ hp ↦ Parse.obeyed_trace name hp

end Discipline

end DiagnosticParsing
