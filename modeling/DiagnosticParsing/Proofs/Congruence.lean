import DiagnosticParsing.Proofs.Invariant
import DiagnosticParsing.Proofs.Rounds

/-!
# Relations between runs that parsers inherit

A relation between runs is a *congruence* (`Run.Congruence`) when sequencing keeps it and when each
primitive run is related to itself. Two parsers that are built in the same way from related parts
are then related themselves, and there is one law for each way of building a parser. They are
collected in `Run.Congruence.preserved` and `Run.Congruence.preserve`.

What is left open is what sets two parsers apart. What a run does with the memory of the cells is
not among the primitives, so that the sides may treat the cells differently. The bounds of a
repetition may differ as well (`Run.WithinBounds`), in a relation in which a run that is cut short
is related to every other one. And which notes count as ordinary is up to the relation: the
functions that a user supplies must report ordinary notes only (`Grammar.ReportsOnly`).
-/

set_option autoImplicit false

namespace DiagnosticParsing

/-! ### What functions report -/

/-- A call reports ordinary notes only. -/
def Call.ReportsOnly {α : Type} (ordinary : Note → Prop) (call : Call α) : Prop :=
  ∀ note ∈ call.notes, ordinary note

/-- A call that reports nothing reports ordinary notes only. -/
theorem Call.reportsOnly_of_nil {α : Type} {call : Call α} (ordinary : Note → Prop)
    (h : call.notes = []) : call.ReportsOnly ordinary := by
  intro note hnote
  rw [h] at hnote
  exact absurd hnote List.not_mem_nil

theorem Call.ReportsOnly.bind {α β : Type} {ordinary : Note → Prop} {call : Call α}
    {next : α → Call β} (hcall : call.ReportsOnly ordinary)
    (hnext : ∀ a, (next a).ReportsOnly ordinary) : (call.bind next).ReportsOnly ordinary := by
  unfold Call.bind
  rcases call.outcome with f | a
  · exact hcall
  · exact List.forall_mem_append.mpr ⟨hcall, hnext a⟩

theorem Call.ReportsOnly.reporting {α : Type} {ordinary : Note → Prop} {call : Call α}
    (hcall : call.ReportsOnly ordinary) {note : Note} (hnote : ordinary note) :
    (call.reporting note).ReportsOnly ordinary :=
  List.forall_mem_cons.mpr ⟨hnote, hcall⟩

/-- The functions that are values report, at most, that they were applied. -/
theorem Function.reportsOnly_call {ordinary : Note → Prop}
    (happlied : ∀ id x, ordinary (.applied id x)) (f : Function) (x : Value) :
    (f.call x).ReportsOnly ordinary := by
  cases f with
  | andThen f g =>
    exact (reportsOnly_call happlied f x).bind (reportsOnly_call happlied g)
  | applied g y => exact Call.reportsOnly_of_nil ordinary (Operation.notes_call g y x)
  | composed f g =>
    exact (Call.reportsOnly_of_nil ordinary (Value.notes_apply g x)).bind fun y ↦
      Call.reportsOnly_of_nil ordinary (Value.notes_apply f y)
  | reporting id f => exact (reportsOnly_call happlied f x).reporting (happlied id x)
  | upper | negate | toHex | lookup =>
    refine Call.reportsOnly_of_nil ordinary ?_
    unfold Function.call
    split <;> rfl
  | _ => exact Call.reportsOnly_of_nil ordinary rfl

/-- The functions given to the constructor itself report ordinary notes only. -/
def Grammar.ReportsOnly (ordinary : Note → Prop) : Grammar → Prop
  | .token test describe =>
    ∀ x, (test x).ReportsOnly ordinary ∧ (describe x).ReportsOnly ordinary
  | .map _ f | .mapOption _ f | .mapResult _ f => ∀ x, (f x).ReportsOnly ordinary
  | .bind _ choose _ => ∀ x, (choose x).ReportsOnly ordinary
  | .inspect _ observe => ∀ place reply, (observe place reply).ReportsOnly ordinary
  | _ => True

/-- Where all notes are ordinary, functions may report what they like. -/
theorem Grammar.reportsOnly_any (p : Grammar) : p.ReportsOnly fun _ ↦ True := by
  cases p <;> simp [ReportsOnly, Call.ReportsOnly]

/-- A relation between runs that sequencing keeps and in which the primitive runs are related to
themselves, as far as the notes which they leave are ordinary. -/
structure Run.Congruence (ordinary : Note → Prop) (related : ∀ ⦃α : Type⦄, Run α → Run α → Prop) :
    Prop where
  result : ∀ {α : Type} (a : α), related (pure a : Run α) (pure a)
  fault : ∀ {α : Type} (f : Fault), related (Run.fault f : Run α) (Run.fault f)
  unfinished : ∀ {α : Type}, related (Run.unfinished : Run α) Run.unfinished
  sequence : ∀ {α β : Type} {run run' : Run α} {next next' : α → Run β}, related run run' →
    (∀ a, related (next a) (next' a)) → related (run >>= next) (run' >>= next')
  call : ∀ {α : Type} (call : Call α), call.ReportsOnly ordinary →
    related (ofCall call) (ofCall call)
  attempt : ∀ {α : Type} (call : Call α), call.ReportsOnly ordinary →
    related (Run.attempt call) (Run.attempt call)
  mark : related Run.mark Run.mark
  rollback : ∀ mark, related (Run.rollback mark) (Run.rollback mark)
  complain : ∀ message, related (Run.complain message) (Run.complain message)
  note : ∀ n, ordinary n → related (Run.note n) (Run.note n)

/-- The rounds of one repetition are bounded like those of another one, or more tightly where a run
that is cut short is related to every other one. -/
def Run.WithinBounds (related : ∀ ⦃α : Type⦄, Run α → Run α → Prop) (bound bound' : Nat) : Prop :=
  bound = bound' ∨ bound ≤ bound' ∧ ∀ ⦃α : Type⦄ (run : Run α), related Run.unfinished run

/-- The runs of two parsers are related at every place. -/
def Parse.Related (related : ∀ ⦃α : Type⦄, Run α → Run α → Prop) (p p' : Parse) : Prop :=
  ∀ place, related (p place) (p' place)

namespace Run.Congruence

open Parse (Related)

variable {ordinary : Note → Prop} {related : ∀ ⦃α : Type⦄, Run α → Run α → Prop} {α β σ : Type}
  {p p' q q' r r' op op' : Parse} {bound bound' : Nat}

/-! ### Runs -/

theorem ofExcept (congruence : Congruence ordinary related) (outcome : Except Fault α) :
    related (ofExcept outcome) (Run.ofExcept outcome) := by
  cases outcome with
  | error f => exact congruence.fault f
  | ok a => exact congruence.result a

/-- What is computed without a journal is handed on to both sides. -/
theorem ofExcept_bind (congruence : Congruence ordinary related) (outcome : Except Fault α)
    {next next' : α → Run β} (hnext : ∀ a, related (next a) (next' a)) :
    related (Run.ofExcept outcome >>= next) (Run.ofExcept outcome >>= next') :=
  congruence.sequence (congruence.ofExcept outcome) hnext

/-- A function that reports nothing is called. -/
theorem quietCall (congruence : Congruence ordinary related) {call : Call α}
    (h : call.notes = []) : related (ofCall call) (ofCall call) :=
  congruence.call call (Call.reportsOnly_of_nil ordinary h)

theorem foldlM (congruence : Congruence ordinary related) {step step' : β → α → Run β}
    (hstep : ∀ b a, related (step b a) (step' b a)) (items : List α) :
    ∀ start, related (items.foldlM step start) (items.foldlM step' start) := by
  induction items with
  | nil => exact congruence.result
  | cons item rest ih =>
    intro start
    rw [List.foldlM_cons, List.foldlM_cons]
    exact congruence.sequence (hstep start item) ih

theorem giveUp (congruence : Congruence ordinary related) (place : Place) (text : String) :
    related (Parse.giveUp place text) (Parse.giveUp place text) :=
  congruence.ofExcept_bind place.position fun _ ↦
    congruence.sequence (congruence.complain _) fun _ ↦ congruence.result _

theorem whenSuccess (congruence : Congruence ordinary related) (reply : Reply)
    {next next' : Reply → Run Reply} (hnext : ∀ reply, related (next reply) (next' reply)) :
    related (Parse.whenSuccess reply next) (Parse.whenSuccess reply next') := by
  cases reply with
  | failure => exact congruence.result _
  | _ => exact hnext _

theorem andThen (congruence : Congruence ordinary related)
    {next next' : Place → Value → Run Reply} (hp : Related related p p')
    (hnext : ∀ rest value, related (next rest value) (next' rest value)) :
    Related related (Parse.andThen p next) (Parse.andThen p' next') := by
  intro place
  refine congruence.sequence (hp place) fun reply ↦ ?_
  cases reply with
  | failure => exact congruence.result _
  | _ => exact congruence.ofExcept_bind _ fun parts ↦ hnext parts.1 parts.2

/-- What is done with a reply unless it is a failure. -/
theorem onSuccess (congruence : Congruence ordinary related) (hp : Related related p p')
    (place : Place) {next next' : Reply → Run Reply}
    (hnext : ∀ reply, related (next reply) (next' reply)) :
    related (p place >>= fun reply ↦ Parse.whenSuccess reply next)
      (p' place >>= fun reply ↦ Parse.whenSuccess reply next') :=
  congruence.sequence (hp place) fun reply ↦ congruence.whenSuccess reply hnext

/-! ### Parsers without parts -/

theorem succeed (congruence : Congruence ordinary related) (v : Value) :
    Related related (Parse.succeed v) (Parse.succeed v) :=
  fun _ ↦ congruence.result _

theorem empty (congruence : Congruence ordinary related) :
    Related related Parse.empty Parse.empty :=
  fun _ ↦ congruence.result _

theorem raise (congruence : Congruence ordinary related) (f : Fault) :
    Related related (Parse.raise f) (Parse.raise f) :=
  fun _ ↦ congruence.fault f

theorem reply (congruence : Congruence ordinary related) (answer : Reply) :
    Related related (Parse.reply answer) (Parse.reply answer) :=
  fun _ ↦ congruence.result _

theorem eof (congruence : Congruence ordinary related) : Related related Parse.eof Parse.eof := by
  intro place
  refine congruence.ofExcept_bind _ fun stream ↦ ?_
  by_cases hempty : stream.isEmpty = true
  · rw [if_pos hempty]
    exact congruence.result _
  · rw [if_neg hempty]
    exact congruence.giveUp place _

theorem element (congruence : Congruence ordinary related) (test : Value → Except Fault Bool)
    (describe : Value → Except Fault String) :
    Related related (Parse.element test describe) (Parse.element test describe) := by
  intro place
  refine congruence.ofExcept_bind _ fun stream ↦ congruence.ofExcept_bind _ fun step ↦ ?_
  split
  · exact congruence.giveUp place _
  · refine congruence.ofExcept_bind _ fun passed ↦ ?_
    cases passed with
    | true => exact congruence.result _
    | false => exact congruence.ofExcept_bind _ fun _ ↦ congruence.giveUp place _

theorem token (congruence : Congruence ordinary related) {test describe : Value → Call Value}
    (hcalls : ∀ x, (test x).ReportsOnly ordinary ∧ (describe x).ReportsOnly ordinary) :
    Related related (Parse.token test describe) (Parse.token test describe) := by
  intro place
  refine congruence.ofExcept_bind _ fun stream ↦ congruence.ofExcept_bind _ fun step ↦ ?_
  split
  · exact congruence.giveUp place _
  · refine congruence.sequence (congruence.call _ (hcalls _).1) fun value ↦ ?_
    split
    · exact congruence.sequence (congruence.call _ (hcalls _).2) fun _ ↦
        congruence.giveUp place _
    · exact congruence.result _

/-- Where a literal is run on something that is no stream, only an empty one succeeds. -/
theorem literalStray (congruence : Congruence ordinary related) (expected : Value) (place : Place)
    (f : Fault) :
    related
      (do
        let items ← Run.ofExcept expected.elements
        if items.isEmpty then
          return Reply.success place expected
        Run.fault f)
      (do
        let items ← Run.ofExcept expected.elements
        if items.isEmpty then
          return Reply.success place expected
        Run.fault f) := by
  refine congruence.ofExcept_bind _ fun items ↦ ?_
  by_cases hempty : items.isEmpty = true
  · rw [if_pos hempty]
    exact congruence.result _
  · rw [if_neg hempty]
    exact congruence.fault f

theorem literal (congruence : Congruence ordinary related) (expected : Value) :
    Related related (Parse.literal expected) (Parse.literal expected) := by
  intro place
  unfold Parse.literal
  split
  · refine congruence.ofExcept_bind _ fun items ↦ congruence.ofExcept_bind _ fun found ↦ ?_
    cases found with
    | none => exact congruence.giveUp _ _
    | some rest => exact congruence.result _
  · split
    · exact congruence.literalStray expected _ _
    · exact congruence.literalStray expected _ _
    · exact congruence.fault _

theorem regex (congruence : Congruence ordinary related) (pattern : Pattern) :
    Related related (Parse.regex pattern) (Parse.regex pattern) := by
  intro place
  refine congruence.ofExcept_bind _ fun stream ↦ congruence.ofExcept_bind _ fun found ↦ ?_
  cases found with
  | none => exact congruence.giveUp place _
  | some found => exact congruence.ofExcept_bind _ fun _ ↦ congruence.result _

/-! ### Values -/

theorem map (congruence : Congruence ordinary related) {f : Value → Call Value}
    (hf : ∀ x, (f x).ReportsOnly ordinary) (hp : Related related p p') :
    Related related (Parse.map p f) (Parse.map p' f) :=
  congruence.andThen hp fun _ value ↦
    congruence.sequence (congruence.call _ (hf value)) fun _ ↦ congruence.result _

theorem mapOption (congruence : Congruence ordinary related) {f : Value → Call Value}
    (hf : ∀ x, (f x).ReportsOnly ordinary) (hp : Related related p p') :
    Related related (Parse.mapOption p f) (Parse.mapOption p' f) := by
  refine congruence.andThen hp fun rest value ↦ ?_
  refine congruence.sequence (congruence.call _ (hf value)) fun mapped ↦ ?_
  split
  · exact congruence.result _
  · exact congruence.result _

theorem mapResult (congruence : Congruence ordinary related) {f : Value → Call Value}
    (hf : ∀ x, (f x).ReportsOnly ordinary) (hp : Related related p p') :
    Related related (Parse.mapResult p f) (Parse.mapResult p' f) := by
  intro place
  refine congruence.andThen hp (fun rest value ↦ ?_) place
  refine congruence.sequence (congruence.attempt _ (hf value)) fun outcome ↦ ?_
  cases outcome with
  | error fault => exact congruence.giveUp place _
  | ok mapped => exact congruence.result _

theorem compose (congruence : Congruence ordinary related) (hp : Related related p p')
    (hq : Related related q q') : Related related (Parse.compose p q) (Parse.compose p' q') :=
  congruence.andThen hp fun middle f ↦ congruence.andThen hq (fun _ value ↦
    congruence.sequence (congruence.quietCall (Value.notes_apply f value)) fun _ ↦
      congruence.result _) middle

theorem chooseNext (congruence : Congruence ordinary related) {choose : Value → Call Unit}
    {next next' : Value → Parse} (hchoose : ∀ x, (choose x).ReportsOnly ordinary)
    (hp : Related related p p') (hnext : ∀ v, Related related (next v) (next' v)) :
    Related related (Parse.chooseNext p choose next) (Parse.chooseNext p' choose next') :=
  congruence.andThen hp fun rest value ↦
    congruence.sequence (congruence.call _ (hchoose value)) fun _ ↦ hnext value rest

/-! ### One parser after another -/

theorem both (congruence : Congruence ordinary related) (hp : Related related p p')
    (hq : Related related q q') : Related related (Parse.both p q) (Parse.both p' q') :=
  congruence.andThen hp fun middle _ ↦
    congruence.andThen hq (fun _ _ ↦ congruence.result _) middle

theorem left (congruence : Congruence ordinary related) (hp : Related related p p')
    (hq : Related related q q') : Related related (Parse.left p q) (Parse.left p' q') := by
  intro place
  refine congruence.onSuccess hp place fun first ↦ ?_
  refine congruence.ofExcept_bind first.first fun middle ↦ ?_
  refine congruence.onSuccess hq middle fun second ↦ ?_
  refine congruence.ofExcept_bind second.first fun rest ↦ ?_
  exact congruence.ofExcept_bind first.second fun value ↦ congruence.result _

theorem right (congruence : Congruence ordinary related) (hp : Related related p p')
    (hq : Related related q q') : Related related (Parse.right p q) (Parse.right p' q') := by
  intro place
  refine congruence.onSuccess hp place fun first ↦ ?_
  exact congruence.ofExcept_bind first.first fun middle ↦ hq middle

theorem mid (congruence : Congruence ordinary related) (hp : Related related p p')
    (hq : Related related q q') (hr : Related related r r') :
    Related related (Parse.mid p q r) (Parse.mid p' q' r') := by
  intro place
  refine congruence.onSuccess hp place fun first ↦ ?_
  refine congruence.ofExcept_bind first.first fun middle ↦ ?_
  refine congruence.onSuccess hq middle fun second ↦ ?_
  refine congruence.ofExcept_bind second.first fun last ↦ ?_
  refine congruence.onSuccess hr last fun third ↦ ?_
  refine congruence.ofExcept_bind third.first fun rest ↦ ?_
  exact congruence.ofExcept_bind second.second fun value ↦ congruence.result _

theorem countFrom (congruence : Congruence ordinary related) (hp : Related related p p') (n : Nat) :
    ∀ place values,
      related (Parse.countFrom p n place values) (Parse.countFrom p' n place values) := by
  induction n with
  | zero => exact fun _ _ ↦ congruence.result _
  | succ n ih =>
    exact fun place values ↦
      congruence.andThen hp (fun rest value ↦ ih rest (value :: values)) place

theorem count (congruence : Congruence ordinary related) (n : Nat) (hp : Related related p p') :
    Related related (Parse.count n p) (Parse.count n p') :=
  fun place ↦ congruence.countFrom hp n place []

/-! ### Alternatives -/

theorem either (congruence : Congruence ordinary related) (hp : Related related p p')
    (hq : Related related q q') : Related related (Parse.either p q) (Parse.either p' q') := by
  intro place
  refine congruence.sequence congruence.mark fun mark ↦ ?_
  refine congruence.sequence (hp place) fun reply ↦ ?_
  cases reply with
  | failure => exact congruence.sequence (congruence.rollback mark) fun _ ↦ hq place
  | _ => exact congruence.result _

theorem optional (congruence : Congruence ordinary related) (hp : Related related p p') :
    Related related (Parse.optional p) (Parse.optional p') := by
  intro place
  refine congruence.sequence congruence.mark fun mark ↦ ?_
  refine congruence.sequence (hp place) fun reply ↦ ?_
  cases reply with
  | failure => exact congruence.sequence (congruence.rollback mark) fun _ ↦ congruence.result _
  | _ => exact congruence.result _

/-! ### Repetition and chains -/

theorem rounds (congruence : Congruence ordinary related) {round round' : Parse.Round σ}
    (hround : ∀ place gathered, related (round place gathered) (round' place gathered)) :
    ∀ {bound bound' : Nat}, WithinBounds related bound bound' → ∀ place gathered,
      related (Parse.rounds bound round place gathered)
        (Parse.rounds bound' round' place gathered) := by
  intro bound
  induction bound with
  | zero =>
    intro bound' hbounds place gathered
    rcases hbounds with rfl | ⟨-, hcut⟩
    · exact congruence.unfinished
    · exact hcut _
  | succ bound ih =>
    intro bound' hbounds place gathered
    cases bound' with
    | zero =>
      unfold WithinBounds at hbounds
      omega
    | succ bound' =>
      refine congruence.sequence (hround place gathered) fun found ↦ ?_
      cases found with
      | none => exact congruence.result _
      | some found =>
        exact ih (hbounds.imp Nat.succ.inj fun h ↦ ⟨Nat.le_of_succ_le_succ h.1, h.2⟩)
          found.1 found.2

theorem attemptRound (congruence : Congruence ordinary related) (hp : Related related p p')
    (place : Place) (values : List Value) :
    related (Parse.attempt p place values) (Parse.attempt p' place values) := by
  refine congruence.sequence congruence.mark fun mark ↦ ?_
  refine congruence.sequence (hp place) fun reply ↦ ?_
  cases reply with
  | failure => exact congruence.sequence (congruence.rollback mark) fun _ ↦ congruence.result _
  | _ => exact congruence.ofExcept_bind _ fun _ ↦ congruence.result _

theorem collect (congruence : Congruence ordinary related)
    (hbounds : WithinBounds related bound bound') (hp : Related related p p') (place : Place)
    (values : List Value) :
    related (Parse.collect (Parse.rounds bound) p place values)
      (Parse.collect (Parse.rounds bound') p' place values) :=
  congruence.sequence (congruence.rounds (congruence.attemptRound hp) hbounds place values)
    fun _ ↦ congruence.result _

theorem many (congruence : Congruence ordinary related)
    (hbounds : WithinBounds related bound bound') (hp : Related related p p') :
    Related related (Parse.many bound p) (Parse.many bound' p') := by
  rw [Parse.many_eq, Parse.many_eq]
  exact fun place ↦ congruence.collect hbounds hp place []

theorem oneOrMore (congruence : Congruence ordinary related)
    (hbounds : WithinBounds related bound bound') (hp : Related related p p') :
    Related related (Parse.oneOrMore bound p) (Parse.oneOrMore bound' p') := by
  rw [Parse.oneOrMore_eq, Parse.oneOrMore_eq]
  exact congruence.andThen hp fun rest first ↦ congruence.collect hbounds hp rest [first]

theorem link (congruence : Congruence ordinary related) (hp : Related related p p')
    (hop : Related related op op') (place : Place) :
    related (Parse.link p op place) (Parse.link p' op' place) := by
  refine congruence.sequence congruence.mark fun mark ↦
    congruence.sequence (hop place) fun operator ↦ ?_
  cases operator with
  | failure => exact congruence.sequence (congruence.rollback mark) fun _ ↦ congruence.result _
  | _ =>
    refine congruence.ofExcept_bind _ fun middle ↦ congruence.sequence (hp middle) fun operand ↦ ?_
    cases operand with
    | failure => exact congruence.sequence (congruence.rollback mark) fun _ ↦ congruence.result _
    | _ =>
      exact congruence.ofExcept_bind _ fun _ ↦ congruence.ofExcept_bind _ fun _ ↦
        congruence.result _

/-- A value that is an operator is applied to two operands. -/
theorem application (congruence : Congruence ordinary related) (operator x y : Value) :
    related (ofCall (operator.apply₂ x y)) (ofCall (operator.apply₂ x y)) :=
  congruence.quietCall (Value.notes_apply₂ operator x y)

theorem combine (congruence : Congruence ordinary related) (hp : Related related p p')
    (hop : Related related op op') (place : Place) (combined : Value) :
    related (Parse.combine p op place combined) (Parse.combine p' op' place combined) := by
  refine congruence.sequence (congruence.link hp hop place) fun found ↦ ?_
  cases found with
  | none => exact congruence.result _
  | some found =>
    exact congruence.sequence (congruence.application _ _ _) fun _ ↦ congruence.result _

theorem gather (congruence : Congruence ordinary related) (hp : Related related p p')
    (hop : Related related op op') (place : Place) (gathered : Value × List Parse.Link) :
    related (Parse.gather p op place gathered) (Parse.gather p' op' place gathered) := by
  refine congruence.sequence (congruence.link hp hop place) fun found ↦ ?_
  cases found with
  | none => exact congruence.result _
  | some found => exact congruence.result _

theorem chainLeft (congruence : Congruence ordinary related)
    (hbounds : WithinBounds related bound bound') (hp : Related related p p')
    (hop : Related related op op') :
    Related related (Parse.chainLeft bound p op) (Parse.chainLeft bound' p' op') := by
  rw [Parse.chainLeft_eq, Parse.chainLeft_eq]
  refine congruence.andThen hp fun rest first ↦ ?_
  have hrounds := congruence.rounds (congruence.combine hp hop) hbounds rest first
  exact congruence.sequence hrounds fun _ ↦ congruence.result _

theorem chainRight (congruence : Congruence ordinary related)
    (hbounds : WithinBounds related bound bound') (hp : Related related p p')
    (hop : Related related op op') :
    Related related (Parse.chainRight bound p op) (Parse.chainRight bound' p' op') := by
  rw [Parse.chainRight_eq, Parse.chainRight_eq]
  refine congruence.andThen hp fun rest first ↦ ?_
  have hrounds := congruence.rounds (congruence.gather hp hop) hbounds rest (first, [])
  refine congruence.sequence hrounds fun gathered ↦ ?_
  have hfold := congruence.foldlM (fun combined (pending : Parse.Link) ↦
    congruence.application pending.operator pending.operand combined) gathered.2.2 gathered.2.1
  exact congruence.sequence hfold fun _ ↦ congruence.result _

/-! ### Looking without consuming -/

theorem lookAhead (congruence : Congruence ordinary related) (hp : Related related p p') :
    Related related (Parse.lookAhead p) (Parse.lookAhead p') := by
  intro place
  refine congruence.onSuccess hp place fun reply ↦ ?_
  exact congruence.ofExcept_bind reply.second fun _ ↦ congruence.result _

theorem notFollowedBy (congruence : Congruence ordinary related) (hp : Related related p p') :
    Related related (Parse.notFollowedBy p) (Parse.notFollowedBy p') := by
  intro place
  refine congruence.sequence congruence.mark fun mark ↦ congruence.sequence (hp place) fun reply ↦
    congruence.sequence (congruence.rollback mark) fun _ ↦ ?_
  cases reply with
  | failure => exact congruence.result _
  | _ => exact congruence.ofExcept_bind _ fun _ ↦ congruence.giveUp place _

/-! ### Diagnostics -/

theorem annotate (congruence : Congruence ordinary related) (severity : Severity) (text : String)
    (hp : Related related p p') :
    Related related (Parse.annotate severity p text) (Parse.annotate severity p' text) := by
  intro place
  refine congruence.ofExcept_bind place.position fun position ↦ ?_
  exact congruence.sequence (congruence.complain _) fun _ ↦ hp place

theorem label (congruence : Congruence ordinary related) (name : String)
    (hp : Related related p p') : Related related (Parse.label p name) (Parse.label p' name) := by
  intro place
  refine congruence.sequence (hp place) fun reply ↦ ?_
  cases reply with
  | failure => exact congruence.giveUp place _
  | _ => exact congruence.result _

theorem inspect (congruence : Congruence ordinary related) {observe : Place → Reply → Call Unit}
    (hobserve : ∀ place reply, (observe place reply).ReportsOnly ordinary)
    (hp : Related related p p') :
    Related related (Parse.inspect p observe) (Parse.inspect p' observe) := by
  intro place
  refine congruence.sequence (hp place) fun reply ↦ ?_
  exact congruence.sequence (congruence.call _ (hobserve place reply)) fun _ ↦ congruence.result _

theorem recover (congruence : Congruence ordinary related) (default : Value)
    (hp : Related related p p') :
    Related related (Parse.recover p default) (Parse.recover p' default) := by
  intro place
  refine congruence.sequence (hp place) fun reply ↦ ?_
  cases reply with
  | failure => exact congruence.result _
  | _ => exact congruence.result _

/-- Assumes: the notes around a traced parser are ordinary. -/
theorem trace (congruence : Congruence ordinary related) {name : String}
    (hentered : ∀ start rest, ordinary (.entered name start rest))
    (hmatched : ∀ value finish, ordinary (.matched name value finish))
    (hbacktracked : ∀ start, ordinary (.backtracked name start)) (hp : Related related p p') :
    Related related (Parse.trace name p) (Parse.trace name p') := by
  intro place
  refine congruence.ofExcept_bind place.position fun start ↦ ?_
  refine congruence.ofExcept_bind place.preview fun rest ↦ ?_
  refine congruence.sequence (congruence.note _ (hentered start rest)) fun _ ↦ ?_
  refine congruence.sequence (hp place) fun reply ↦ ?_
  cases reply with
  | failure =>
    exact congruence.sequence (congruence.note _ (hbacktracked start)) fun _ ↦ congruence.result _
  | _ =>
    refine congruence.ofExcept_bind _ fun value ↦ congruence.ofExcept_bind _ fun rest ↦ ?_
    refine congruence.ofExcept_bind rest.position fun finish ↦ ?_
    exact congruence.sequence (congruence.note _ (hmatched value finish)) fun _ ↦
      congruence.result _

/-- Where all notes are ordinary, so are those of a trace. -/
theorem trace_any (congruence : Congruence (fun _ ↦ True) related) (name : String)
    (hp : Related related p p') : Related related (Parse.trace name p) (Parse.trace name p') :=
  congruence.trace (fun _ _ ↦ trivial) (fun _ _ ↦ trivial) (fun _ ↦ trivial) hp

/-! ### Grammars -/

/-- The ordinary constructors keep the relation between parsers. -/
theorem preserved (congruence : Congruence ordinary related) :
    Grammar.Preserved (Grammar.ReportsOnly ordinary) (Related related) where
  succeed := fun v _ ↦ congruence.succeed v
  empty := fun _ ↦ congruence.empty
  eof := fun _ ↦ congruence.eof
  element := fun test describe _ ↦ congruence.element test describe
  token := fun _ _ hcalls ↦ congruence.token hcalls
  literal := fun v _ ↦ congruence.literal v
  regex := fun pattern _ ↦ congruence.regex pattern
  raise := congruence.raise
  reply := fun answer _ ↦ congruence.reply answer
  map := fun _ _ hf hp ↦ congruence.map hf hp
  mapOption := fun _ _ hf hp ↦ congruence.mapOption hf hp
  mapResult := fun _ _ hf hp ↦ congruence.mapResult hf hp
  compose := fun _ _ _ hp hq ↦ congruence.compose hp hq
  chooseNext := fun _ _ _ hchoose hp hnext ↦ congruence.chooseNext hchoose hp hnext
  both := fun _ _ _ hp hq ↦ congruence.both hp hq
  left := fun _ _ _ hp hq ↦ congruence.left hp hq
  right := fun _ _ _ hp hq ↦ congruence.right hp hq
  mid := fun _ _ _ _ hp hq hr ↦ congruence.mid hp hq hr
  either := fun _ _ _ hp hq ↦ congruence.either hp hq
  optional := fun _ _ hp ↦ congruence.optional hp
  optionalEmpty := fun _ ↦ congruence.optional congruence.empty
  count := fun n _ _ hp ↦ congruence.count n hp
  lookAhead := fun _ _ hp ↦ congruence.lookAhead hp
  notFollowedBy := fun _ _ hp ↦ congruence.notFollowedBy hp

/-- So do repetitions and diagnostics. Assumes: tracing keeps the relation. -/
theorem preserve (congruence : Congruence ordinary related)
    (hbounds : WithinBounds related bound bound')
    (htrace : ∀ {p p' : Parse} name, Related related p p' →
      Related related (Parse.trace name p) (Parse.trace name p')) :
    Operations.Preserve (Grammar.ReportsOnly ordinary) (Related related)
      (.standard (.within bound)) (.standard (.within bound')) where
  many := fun _ _ hp ↦ congruence.many hbounds hp
  oneOrMore := fun _ _ hp ↦ congruence.oneOrMore hbounds hp
  chainLeft := fun _ _ _ hp hop ↦ congruence.chainLeft hbounds hp hop
  chainRight := fun _ _ _ hp hop ↦ congruence.chainRight hbounds hp hop
  annotate := fun severity _ text _ hp ↦ congruence.annotate severity text hp
  label := fun _ name _ hp ↦ congruence.label name hp
  inspect := fun _ _ hobserve hp ↦ congruence.inspect hobserve hp
  recover := fun _ default _ hp ↦ congruence.recover default hp
  trace := fun name _ _ hp ↦ htrace name hp

/-- Every grammar whose functions report ordinary notes only is related to itself. Assumes: tracing
keeps the relation. -/
theorem hereditary (congruence : Congruence ordinary related)
    (htrace : ∀ {p p' : Parse} name, Related related p p' →
      Related related (Parse.trace name p) (Parse.trace name p')) :
    Grammar.Hereditary (Grammar.ReportsOnly ordinary) (Related related) where
  unfinished := fun _ ↦ congruence.unfinished
  preserved := congruence.preserved
  preserve := fun _ ↦ congruence.preserve (.inl rfl) htrace

end Run.Congruence

end DiagnosticParsing
