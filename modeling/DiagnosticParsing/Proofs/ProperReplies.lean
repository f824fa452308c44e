import DiagnosticParsing.Proofs.Ensures
import DiagnosticParsing.Proofs.Invariant
import DiagnosticParsing.Proofs.Rounds
import DiagnosticParsing.Proofs.Sequencing

/-!
# Proper replies

A parse function written by hand can answer with a value that is no reply. Whatever takes such an
answer apart may do so in its own way: by unpacking its two parts, by asking for one of them, or not
at all. A *proper* parser never gives such an answer (`Parse.Proper`), and then these ways are the
same (`Parse.left_eq`, `Parse.right_eq`).

All grammars are proper in which no part is a parse function that answers improperly
(`Grammar.proper_of_everywhere`). What runs its parts and makes a reply of its own is proper
whatever the parts are; so is a parser that goes on with the two parts of a reply and then makes its
own (`Parse.proper_andThen`).
-/

set_option autoImplicit false

namespace DiagnosticParsing

/-- A failure, or a success; not an answer that is no reply. -/
def Reply.Proper : Reply → Prop
  | .malformed _ => False
  | _ => True

/-! ### Proper runs -/

namespace Run

variable {α : Type}

/-- Whenever the run ends with a reply, it is a proper one. -/
def Proper (run : Run Reply) : Prop :=
  ∀ journal, run.Ensures journal fun reply _ ↦ reply.Proper

theorem proper_pure {reply : Reply} (h : reply.Proper) : (pure reply : Run Reply).Proper :=
  fun journal ↦ (ensures_pure reply journal _).mpr h

theorem proper_fault (f : Fault) : (fault f : Run Reply).Proper :=
  fun journal ↦ ensures_fault f journal _

theorem proper_unfinished : (unfinished : Run Reply).Proper :=
  fun journal ↦ ensures_unfinished journal _

/-- What comes last makes the reply. -/
theorem proper_bind {run : Run α} {next : α → Run Reply} (hnext : ∀ a, (next a).Proper) :
    (run >>= next).Proper :=
  fun journal ↦ (ensures_bind run next journal _).mpr fun a final _ ↦ hnext a final

/-- What comes last is told a proper reply. -/
theorem Proper.bind {run : Run Reply} {next : Reply → Run Reply} (hrun : run.Proper)
    (hnext : ∀ reply, reply.Proper → (next reply).Proper) : (run >>= next).Proper :=
  fun journal ↦ (ensures_bind run next journal _).mpr fun reply final hdone ↦
    hnext reply (hrun journal reply final hdone) final

/-- What follows a proper run needs to be looked at on proper replies only. -/
theorem Proper.bind_congr {run : Run Reply} {next next' : Reply → Run α} (hrun : run.Proper)
    (hnext : ∀ reply, reply.Proper → next reply = next' reply) :
    (run >>= next) = (run >>= next') := by
  ext journal
  refine bind_congr_of_ensures (hrun journal) fun reply final hreply ↦ ?_
  rw [hnext reply hreply]

end Run

/-! ### Proper parsers -/

namespace Parse

open Run

/-- Wherever it starts, the parser ends with proper replies only. -/
def Proper (p : Parse) : Prop :=
  ∀ place, (p place).Proper

variable {p q r op : Parse}

theorem proper_failure : (pure .failure : Run Reply).Proper :=
  proper_pure trivial

theorem proper_success (rest : Place) (value : Value) :
    (pure (.success rest value) : Run Reply).Proper :=
  proper_pure trivial

theorem proper_giveUp (place : Place) (text : String) : (giveUp place text).Proper :=
  proper_bind fun _ ↦ proper_bind fun _ ↦ proper_failure

theorem proper_whenSuccess (reply : Reply) {next : Reply → Run Reply}
    (hnext : ∀ reply, (next reply).Proper) : (whenSuccess reply next).Proper := by
  cases reply with
  | failure => exact proper_failure
  | _ => exact hnext _

theorem proper_andThen {next : Place → Value → Run Reply}
    (hnext : ∀ rest value, (next rest value).Proper) : Proper (andThen p next) := by
  intro place
  refine proper_bind fun reply ↦ ?_
  cases reply with
  | failure => exact proper_failure
  | _ => exact proper_bind fun parts ↦ hnext parts.1 parts.2

theorem proper_eof : Proper eof := by
  intro place
  refine proper_bind fun stream ↦ ?_
  split
  · exact proper_success place .null
  · exact proper_giveUp place _

theorem proper_element (test : Value → Except Fault Bool)
    (describe : Value → Except Fault String) : Proper (element test describe) := by
  intro place
  refine proper_bind fun stream ↦ proper_bind fun step ↦ ?_
  split
  · exact proper_giveUp place _
  · refine proper_bind fun passed ↦ ?_
    split
    · exact proper_success _ _
    · exact proper_bind fun _ ↦ proper_giveUp place _

theorem proper_token (test describe : Value → Call Value) : Proper (token test describe) := by
  intro place
  refine proper_bind fun stream ↦ proper_bind fun step ↦ ?_
  split
  · exact proper_giveUp place _
  · refine proper_bind fun value ↦ ?_
    split
    · exact proper_bind fun _ ↦ proper_giveUp place _
    · exact proper_success _ _

theorem proper_literal (v : Value) : Proper (literal v) := by
  intro place
  unfold literal
  split
  · refine proper_bind fun items ↦ proper_bind fun rest ↦ ?_
    cases rest with
    | some rest => exact proper_success _ _
    | none => exact proper_giveUp _ _
  · split
    · refine proper_bind fun items ↦ ?_
      split
      · exact proper_success _ _
      · exact proper_fault _
    · refine proper_bind fun items ↦ ?_
      split
      · exact proper_success _ _
      · exact proper_fault _
    · exact proper_fault _

theorem proper_regex (pattern : Pattern) : Proper (regex pattern) := by
  intro place
  refine proper_bind fun stream ↦ proper_bind fun found ↦ ?_
  cases found with
  | none => exact proper_giveUp place _
  | some found => exact proper_bind fun _ ↦ proper_success _ _

theorem proper_map (p : Parse) (f : Value → Call Value) : Proper (map p f) :=
  proper_andThen fun rest _ ↦ proper_bind fun mapped ↦ proper_success rest mapped

theorem proper_mapOption (p : Parse) (f : Value → Call Value) : Proper (mapOption p f) := by
  refine proper_andThen fun rest value ↦ proper_bind fun mapped ↦ ?_
  split
  · exact proper_failure
  · exact proper_success rest _

theorem proper_mapResult (p : Parse) (f : Value → Call Value) : Proper (mapResult p f) := by
  intro place
  refine proper_andThen (fun rest value ↦ proper_bind fun outcome ↦ ?_) place
  cases outcome with
  | ok mapped => exact proper_success rest mapped
  | error fault => exact proper_giveUp place _

theorem proper_compose (p q : Parse) : Proper (compose p q) :=
  proper_andThen fun middle _ ↦
    proper_andThen (fun rest _ ↦ proper_bind fun applied ↦ proper_success rest applied) middle

theorem proper_chooseNext (p : Parse) (choose : Value → Call Unit) {next : Value → Parse}
    (hnext : ∀ v, Proper (next v)) : Proper (chooseNext p choose next) :=
  proper_andThen fun rest value ↦ proper_bind fun _ ↦ hnext value rest

theorem proper_both (p q : Parse) : Proper (both p q) :=
  proper_andThen fun middle _ ↦ proper_andThen (fun rest _ ↦ proper_success rest _) middle

theorem proper_left (p q : Parse) : Proper (left p q) := by
  intro place
  refine proper_bind fun reply ↦ proper_whenSuccess reply fun first ↦ proper_bind fun middle ↦ ?_
  refine proper_bind fun reply ↦ proper_whenSuccess reply fun second ↦ proper_bind fun rest ↦ ?_
  exact proper_bind fun value ↦ proper_success rest value

theorem proper_right (p : Parse) (hq : Proper q) : Proper (right p q) :=
  fun _ ↦ proper_bind fun reply ↦ proper_whenSuccess reply fun _ ↦ proper_bind fun middle ↦
    hq middle

theorem proper_mid (p q r : Parse) : Proper (mid p q r) := by
  intro place
  refine proper_bind fun reply ↦ proper_whenSuccess reply fun first ↦ proper_bind fun middle ↦ ?_
  refine proper_bind fun reply ↦ proper_whenSuccess reply fun second ↦ proper_bind fun last ↦ ?_
  refine proper_bind fun reply ↦ proper_whenSuccess reply fun third ↦ proper_bind fun rest ↦ ?_
  exact proper_bind fun value ↦ proper_success rest value

theorem proper_either (hp : Proper p) (hq : Proper q) : Proper (either p q) := by
  intro place
  refine proper_bind fun mark ↦ (hp place).bind fun reply hreply ↦ ?_
  cases reply with
  | failure => exact proper_bind fun _ ↦ hq place
  | _ => exact proper_pure hreply

theorem proper_optional (hp : Proper p) : Proper (optional p) := by
  intro place
  refine proper_bind fun mark ↦ (hp place).bind fun reply hreply ↦ ?_
  cases reply with
  | failure => exact proper_bind fun _ ↦ proper_success place .null
  | _ => exact proper_pure hreply

theorem proper_many (bound : Nat) (p : Parse) : Proper (many bound p) := by
  rw [many_eq]
  exact fun _ ↦ proper_bind fun _ ↦ proper_success _ _

theorem proper_oneOrMore (bound : Nat) (p : Parse) : Proper (oneOrMore bound p) := by
  rw [oneOrMore_eq]
  exact proper_andThen fun _ _ ↦ proper_bind fun _ ↦ proper_success _ _

theorem proper_countFrom (p : Parse) (n : Nat) :
    ∀ place values, (countFrom p n place values).Proper := by
  induction n with
  | zero => exact fun place _ ↦ proper_success place _
  | succ n ih =>
    exact fun place values ↦ proper_andThen (fun rest value ↦ ih rest (value :: values)) place

theorem proper_chainLeft (bound : Nat) (p op : Parse) : Proper (chainLeft bound p op) := by
  rw [chainLeft_eq]
  exact proper_andThen fun _ _ ↦ proper_bind fun _ ↦ proper_success _ _

theorem proper_chainRight (bound : Nat) (p op : Parse) : Proper (chainRight bound p op) := by
  rw [chainRight_eq]
  exact proper_andThen fun _ _ ↦ proper_bind fun _ ↦ proper_bind fun _ ↦ proper_success _ _

theorem proper_lookAhead (p : Parse) : Proper (lookAhead p) :=
  fun place ↦ proper_bind fun reply ↦ proper_whenSuccess reply fun _ ↦
    proper_bind fun value ↦ proper_success place value

theorem proper_notFollowedBy (p : Parse) : Proper (notFollowedBy p) := by
  intro place
  refine proper_bind fun mark ↦ proper_bind fun reply ↦ proper_bind fun _ ↦ ?_
  cases reply with
  | failure => exact proper_success place .null
  | _ => exact proper_bind fun _ ↦ proper_giveUp place _

theorem proper_annotate (severity : Severity) (text : String) (hp : Proper p) :
    Proper (annotate severity p text) :=
  fun place ↦ proper_bind fun _ ↦ proper_bind fun _ ↦ hp place

theorem proper_label (name : String) (hp : Proper p) : Proper (label p name) := by
  intro place
  refine (hp place).bind fun reply hreply ↦ ?_
  cases reply with
  | failure => exact proper_giveUp place _
  | _ => exact proper_pure hreply

theorem proper_inspect (observe : Place → Reply → Call Unit) (hp : Proper p) :
    Proper (inspect p observe) :=
  fun place ↦ (hp place).bind fun _ hreply ↦ proper_bind fun _ ↦ proper_pure hreply

theorem proper_recover (default : Value) (hp : Proper p) : Proper (recover p default) := by
  intro place
  refine (hp place).bind fun reply hreply ↦ ?_
  cases reply with
  | failure => exact proper_success place default
  | _ => exact proper_pure hreply

theorem proper_trace (name : String) (hp : Proper p) : Proper (trace name p) := by
  intro place
  refine proper_bind fun start ↦ proper_bind fun preview ↦ proper_bind fun _ ↦ ?_
  refine (hp place).bind fun reply hreply ↦ ?_
  cases reply with
  | failure => exact proper_bind fun _ ↦ proper_failure
  | _ =>
    exact proper_bind fun _ ↦ proper_bind fun _ ↦ proper_bind fun _ ↦ proper_bind fun _ ↦
      proper_pure hreply

/-! ### Taking proper replies apart -/

/-- A proper parser loses nothing when its replies are unpacked and made anew. -/
theorem andThen_success (hp : Proper p) :
    andThen p (fun rest value ↦ return .success rest value) = p := by
  funext place
  have hreply : (p place >>= fun reply ↦ pure reply) = p place :=
    Run.bind_pure (p place)
  rw [← hreply]
  refine (hp place).bind_congr fun reply hreply ↦ ?_
  cases reply with
  | malformed v => exact hreply.elim
  | _ => rfl

/-- A sequence that keeps the first value unpacks proper replies. -/
theorem left_eq (hp : Proper p) (hq : Proper q) :
    left p q = andThen p fun middle first ↦
      andThen q (fun rest _ ↦ return .success rest first) middle := by
  funext place
  refine (hp place).bind_congr fun reply hreply ↦ ?_
  cases reply with
  | failure => rfl
  | malformed v => exact hreply.elim
  | success middle first =>
    refine (hq middle).bind_congr fun reply hreply ↦ ?_
    cases reply with
    | malformed v => exact hreply.elim
    | _ => rfl

/-- A sequence that keeps the second value unpacks the first reply, when that is proper. -/
theorem right_eq (hp : Proper p) (q : Parse) : right p q = andThen p fun middle _ ↦ q middle := by
  funext place
  refine (hp place).bind_congr fun reply hreply ↦ ?_
  cases reply with
  | malformed v => exact hreply.elim
  | _ => rfl

/-- Looking ahead unpacks proper replies. -/
theorem lookAhead_eq (hp : Proper p) (place : Place) :
    lookAhead p place = andThen p (fun _ value ↦ return .success place value) place := by
  refine (hp place).bind_congr fun reply hreply ↦ ?_
  cases reply with
  | malformed v => exact hreply.elim
  | _ => rfl

end Parse

/-! ### Proper grammars -/

namespace Grammar

/-- The grammar is no parse function that gives an answer which is no reply. -/
def AnswersProperly : Grammar → Prop
  | .reply answer => answer.Proper
  | _ => True

/-- Whatever a grammar is built from, it keeps parsers proper. -/
theorem proper_invariant : Invariant AnswersProperly Parse.Proper where
  unfinished := fun _ ↦ Run.proper_unfinished
  succeed := fun v _ place ↦ Parse.proper_success place v
  empty := fun _ _ ↦ Parse.proper_failure
  eof := fun _ ↦ Parse.proper_eof
  element := fun test describe _ ↦ Parse.proper_element test describe
  token := fun test describe _ ↦ Parse.proper_token test describe
  literal := fun v _ ↦ Parse.proper_literal v
  regex := fun pattern _ ↦ Parse.proper_regex pattern
  raise := fun fault _ ↦ Run.proper_fault fault
  reply := fun _ hanswer _ ↦ Run.proper_pure hanswer
  map := fun _ p f _ _ ↦ Parse.proper_map p f
  mapOption := fun _ p f _ _ ↦ Parse.proper_mapOption p f
  mapResult := fun _ p f _ _ ↦ Parse.proper_mapResult p f
  compose := fun p q _ _ ↦ Parse.proper_compose p q
  chooseNext := fun p choose _ _ hnext ↦ Parse.proper_chooseNext p choose hnext
  both := fun p q _ _ ↦ Parse.proper_both p q
  left := fun p q _ _ ↦ Parse.proper_left p q
  right := fun p _ _ hq ↦ Parse.proper_right p hq
  mid := fun p q r _ _ _ ↦ Parse.proper_mid p q r
  either := fun _ _ hp hq ↦ Parse.proper_either hp hq
  many := fun bound p _ ↦ Parse.proper_many bound p
  oneOrMore := fun bound p _ ↦ Parse.proper_oneOrMore bound p
  optional := fun _ hp ↦ Parse.proper_optional hp
  optionalEmpty := Parse.proper_optional fun _ ↦ Parse.proper_failure
  count := fun n p _ place ↦ Parse.proper_countFrom p n place []
  chainLeft := fun bound p op _ _ ↦ Parse.proper_chainLeft bound p op
  chainRight := fun bound p op _ _ ↦ Parse.proper_chainRight bound p op
  lookAhead := fun p _ ↦ Parse.proper_lookAhead p
  notFollowedBy := fun p _ ↦ Parse.proper_notFollowedBy p
  annotate := fun severity _ _ text _ hp ↦ Parse.proper_annotate severity text hp
  label := fun _ _ name _ hp ↦ Parse.proper_label name hp
  inspect := fun _ _ observe _ hp ↦ Parse.proper_inspect observe hp
  recover := fun _ _ default _ hp ↦ Parse.proper_recover default hp
  trace := fun name _ hp ↦ Parse.proper_trace name hp

/-- In this scope the grammar ends with proper replies only, whatever the bound. -/
def Proper (definitions : Definitions) (scope : Scope) (p : Grammar) : Prop :=
  ∀ bound, Parse.Proper (p.eval definitions bound scope)

/-- A grammar is proper if no parse function in it, in a definition or in a cell around it gives an
answer that is no reply. -/
theorem proper_of_everywhere {definitions : Definitions} {scope : Scope} {p : Grammar}
    (hdefinitions : definitions.Everywhere AnswersProperly)
    (hscope : scope.Everywhere AnswersProperly) (hp : p.Everywhere AnswersProperly) :
    p.Proper definitions scope :=
  fun bound ↦ proper_invariant.eval hdefinitions bound scope p hscope hp

/-- Without a bound nothing is replied. -/
theorem proper_of_succ {definitions : Definitions} {scope : Scope} {p : Grammar}
    (h : ∀ bound, Parse.Proper (p.eval definitions (bound + 1) scope)) :
    p.Proper definitions scope := by
  intro bound
  cases bound with
  | zero => exact fun _ ↦ Run.proper_unfinished
  | succ bound => exact h bound

theorem proper_map (definitions : Definitions) (scope : Scope) (p : Grammar)
    (f : Value → Call Value) : (map p f).Proper definitions scope :=
  proper_of_succ fun _ ↦ Parse.proper_map _ f

theorem proper_eof (definitions : Definitions) (scope : Scope) : eof.Proper definitions scope :=
  proper_of_succ fun _ ↦ Parse.proper_eof

theorem proper_left (definitions : Definitions) (scope : Scope) (p q : Grammar) :
    (left p q).Proper definitions scope :=
  proper_of_succ fun _ ↦ Parse.proper_left _ _

theorem proper_many (definitions : Definitions) (scope : Scope) (p : Grammar) :
    (many p).Proper definitions scope :=
  proper_of_succ fun bound ↦ Parse.proper_many (bound + 1) _

end Grammar

end DiagnosticParsing
