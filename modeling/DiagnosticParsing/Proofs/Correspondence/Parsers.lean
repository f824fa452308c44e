import DiagnosticParsing.Proofs.Correspondence
import DiagnosticParsing.Proofs.Invariant
import DiagnosticParsing.Proofs.Rounds

/-!
# Parsers side by side

Two parsers are related by a correspondence when they end alike on places that go together
(`Correspondence.Related`): both fail, or both succeed with the same value at places that go
together, or both raise the same fault, and the messages that they add go together. Every way of
building a parser keeps this, one law for each, so that a correspondence relates every grammar to
itself (`Correspondence.hereditary`).

Nothing is said here about patterns, which see the whole input, and an observer has to come to the
same on both sides (`related_inspect`). Repetitions are related when the ways of repeating are
(`Correspondence.Repetitions`), which leaves open how often either side may go round.
-/

set_option autoImplicit false

namespace DiagnosticParsing.Correspondence

open Parse Run

variable (c : Correspondence)

/-- On places that go together two parsers end alike. -/
def Related (p p' : Parse) : Prop :=
  ∀ {place place' : Place}, place.Related c.streams place' →
    c.Runs (p place) (p' place') (Reply.Related c.streams)

variable {c} {p p' q q' r r' op op' : Parse} {α β : Type} {accept : α → β → Prop}
  {place place' : Place}

theorem runs_failure :
    c.Runs (pure .failure) (pure .failure) (Reply.Related c.streams) :=
  runs_pure .failure

theorem runs_success (value : Value) (hplace : place.Related c.streams place') :
    c.Runs (pure (.success place value)) (pure (.success place' value))
      (Reply.Related c.streams) :=
  runs_pure (.success value hplace)

/-- Both sides give up with the same words. -/
theorem runs_giveUp (hplace : place.Related c.streams place') (text : String) :
    c.Runs (giveUp place text) (giveUp place' text) (Reply.Related c.streams) := by
  cases hplace with
  | stream slot hstreams =>
    exact (runs_complain (c.message hstreams .error text)).bind fun _ _ _ ↦ runs_failure

/-- What follows two parsers is run on two failures, or on two successes that go together. -/
theorem Related.bind (hp : c.Related p p') {next next' : Reply → Run Reply}
    (hplace : place.Related c.streams place')
    (hfailure : c.Runs (next .failure) (next' .failure) (Reply.Related c.streams))
    (hsuccess : ∀ {rest rest'}, rest.Related c.streams rest' → ∀ value,
      c.Runs (next (.success rest value)) (next' (.success rest' value))
        (Reply.Related c.streams)) :
    c.Runs (p place >>= next) (p' place' >>= next') (Reply.Related c.streams) := by
  refine (hp hplace).bind fun reply reply' hreply ↦ ?_
  cases hreply with
  | failure => exact hfailure
  | success value hrest => exact hsuccess hrest value

/-- The same behind a mark that both sides have taken. -/
theorem Related.bindFrom (hp : c.Related p p') {next : Nat → Reply → Run α}
    {next' : Nat → Reply → Run β} (hplace : place.Related c.streams place')
    (hfailure : c.RunsFrom (fun mark ↦ next mark .failure) (fun mark ↦ next' mark .failure) accept)
    (hsuccess : ∀ {rest rest'}, rest.Related c.streams rest' → ∀ value,
      c.RunsFrom (fun mark ↦ next mark (.success rest value))
        (fun mark ↦ next' mark (.success rest' value)) accept) :
    c.RunsFrom (fun mark ↦ p place >>= next mark) (fun mark ↦ p' place' >>= next' mark)
      accept := by
  refine (hp hplace).fromMark.bind fun reply reply' hreply ↦ ?_
  cases hreply with
  | failure => exact hfailure
  | success value hrest => exact hsuccess hrest value

theorem related_andThen {next next' : Place → Value → Run Reply} (hp : c.Related p p')
    (hnext : ∀ value, c.Related (next · value) (next' · value)) :
    c.Related (andThen p next) (andThen p' next') :=
  fun hplace ↦ hp.bind hplace runs_failure fun hrest value ↦ hnext value hrest

/-! ### Elements -/

theorem related_succeed (v : Value) : c.Related (succeed v) (succeed v) :=
  fun hplace ↦ runs_success v hplace

theorem related_empty : c.Related empty empty :=
  fun _ ↦ runs_failure

theorem related_raise (fault : Fault) : c.Related (raise fault) (raise fault) :=
  fun _ ↦ runs_fault fault

theorem related_unfinished (hendless : c.endless) :
    c.Related (fun _ ↦ Run.unfinished) fun _ ↦ Run.unfinished :=
  fun _ ↦ runs_unfinished hendless

theorem related_eof : c.Related eof eof := by
  intro place place' hplace
  cases hplace with
  | @stream slot s s' hstreams =>
    have hplace := Place.Related.stream slot hstreams
    simp only [eof, Place.stream?, ofExcept_ok_bind, c.isEmpty_eq hstreams]
    by_cases hempty : s'.isEmpty = true
    · rw [if_pos hempty, if_pos hempty]
      exact runs_success _ hplace
    · rw [if_neg hempty, if_neg hempty]
      exact runs_giveUp hplace _

theorem related_element (test : Value → Except Fault Bool)
    (describe : Value → Except Fault String) :
    c.Related (element test describe) (element test describe) := by
  intro place place' hplace
  cases hplace with
  | @stream slot s s' hstreams =>
    have hplace := Place.Related.stream slot hstreams
    simp only [element, Place.stream?, ofExcept_ok_bind]
    rcases c.next hstreams with ⟨fault, hnext, hnext'⟩ | ⟨found, rest, rest', hnext, hnext', hrest⟩
    · rw [hnext, hnext']
      exact runs_fault fault
    rw [hnext, hnext', ofExcept_ok_bind, ofExcept_ok_bind]
    have htested : c.Runs (do
        if ← ofExcept (test found) then
          return .success (.fresh rest) found
        giveUp (.stream slot s) (← ofExcept (describe found))) (do
        if ← ofExcept (test found) then
          return .success (.fresh rest') found
        giveUp (.stream slot s') (← ofExcept (describe found))) (Reply.Related c.streams) := by
      refine (runs_ofExcept (test found)).bind_same fun passed ↦ ?_
      cases passed with
      | true => exact runs_success _ (.stream none hrest)
      | false => exact (runs_ofExcept (describe found)).bind_same fun text ↦ runs_giveUp hplace text
    cases found with
    | null => exact runs_giveUp hplace _
    | _ => exact htested

/-- What a token parser does with an element that it has found. -/
theorem runs_tested (hplace : place.Related c.streams place') {rest rest' : Stream}
    (hrest : c.streams rest rest') (test describe : Value → Call Value) (found : Value) :
    c.Runs (do
      match ← ofCall (test found) with
      | .null =>
        let shown ← ofCall (describe found)
        giveUp place ("unexpected " ++ shown.display ++ ".")
      | value => return .success (.fresh rest) value) (do
      match ← ofCall (test found) with
      | .null =>
        let shown ← ofCall (describe found)
        giveUp place' ("unexpected " ++ shown.display ++ ".")
      | value => return .success (.fresh rest') value) (Reply.Related c.streams) := by
  refine (runs_ofCall (test found)).bind_same fun value ↦ ?_
  cases value with
  | null => exact (runs_ofCall (describe found)).bind_same fun shown ↦ runs_giveUp hplace _
  | _ => exact runs_success _ (.stream none hrest)

theorem related_token (test describe : Value → Call Value) :
    c.Related (token test describe) (token test describe) := by
  intro place place' hplace
  cases hplace with
  | @stream slot s s' hstreams =>
    have hplace := Place.Related.stream slot hstreams
    simp only [token, Place.stream?, ofExcept_ok_bind]
    rcases c.next hstreams with ⟨fault, hnext, hnext'⟩ | ⟨found, rest, rest', hnext, hnext', hrest⟩
    · rw [hnext, hnext']
      exact runs_fault fault
    · rw [hnext, hnext', ofExcept_ok_bind, ofExcept_ok_bind]
      cases found with
      | null => exact runs_giveUp hplace _
      | _ => exact runs_tested hplace hrest test describe _

/-- Streams that go together hold the same elements of a literal. -/
theorem expectAll_related (items : List Value) :
    ∀ {s s' : Stream}, c.streams s s' →
      (∃ fault, expectAll items s = .error fault ∧ expectAll items s' = .error fault) ∨
        (expectAll items s = .ok none ∧ expectAll items s' = .ok none) ∨
          ∃ rest rest', expectAll items s = .ok (some rest) ∧
            expectAll items s' = .ok (some rest') ∧ c.streams rest rest' := by
  induction items with
  | nil => exact fun hstreams ↦ .inr (.inr ⟨_, _, rfl, rfl, hstreams⟩)
  | cons item items ih =>
    intro s s' hstreams
    simp only [expectAll]
    rcases c.next hstreams with ⟨fault, hnext, hnext'⟩ | ⟨found, rest, rest', hnext, hnext', hrest⟩
    · rw [hnext, hnext']
      exact .inl ⟨fault, rfl, rfl⟩
    · rw [hnext, hnext']
      simp only [Bind.bind, Except.bind]
      by_cases hsame : found.same item = true
      · rw [if_pos hsame, if_pos hsame]
        exact ih hrest
      · rw [if_neg hsame, if_neg hsame]
        exact .inr (.inl ⟨rfl, rfl⟩)

theorem related_literal (v : Value) : c.Related (literal v) (literal v) := by
  intro place place' hplace
  cases hplace with
  | stream slot hstreams =>
    refine (runs_ofExcept v.elements).bind_same fun items ↦ ?_
    rcases expectAll_related items hstreams with ⟨fault, hall, hall'⟩ | ⟨hall, hall'⟩ |
      ⟨rest, rest', hall, hall', hrest⟩
    · rw [hall, hall']
      exact runs_fault fault
    · rw [hall, hall']
      exact runs_giveUp (.stream slot hstreams) _
    · rw [hall, hall']
      exact runs_success v (.stream none hrest)

/-- Streams that go together do so after any number of steps. -/
theorem advance_related (count : Nat) :
    ∀ {s s' : Stream}, c.streams s s' →
      (∃ fault, s.advance count = .error fault ∧ s'.advance count = .error fault) ∨
        ∃ rest rest', s.advance count = .ok rest ∧ s'.advance count = .ok rest' ∧
          c.streams rest rest' := by
  induction count with
  | zero => exact fun hstreams ↦ .inr ⟨_, _, rfl, rfl, hstreams⟩
  | succ count ih =>
    intro s s' hstreams
    simp only [Stream.advance]
    rcases c.next hstreams with ⟨fault, hnext, hnext'⟩ | ⟨found, rest, rest', hnext, hnext', hrest⟩
    · rw [hnext, hnext']
      exact .inl ⟨fault, rfl, rfl⟩
    · rw [hnext, hnext']
      exact ih hrest

/-- A pattern sees the whole input, which has to be the same on both sides. -/
theorem related_regex (hstreams : ∀ {s s' : Stream}, c.streams s s' → s = s') (pattern : Pattern) :
    c.Related (regex pattern) (regex pattern) := by
  intro place place' hplace
  cases hplace with
  | @stream slot s s' hrelated =>
    obtain rfl := hstreams hrelated
    simp only [regex, Place.stream?, ofExcept_ok_bind]
    refine (runs_ofExcept (pattern.find s.buffer.1 s.buffer.2)).bind_same fun found ↦ ?_
    cases found with
    | none => exact runs_giveUp (.stream slot hrelated) _
    | some found =>
      rcases advance_related (found.stop - s.buffer.2) hrelated with ⟨fault, hadvance, -⟩ |
        ⟨rest, rest', hadvance, hadvance', hrest⟩
      · simp only [hadvance]
        exact runs_fault fault
      · obtain rfl : rest = rest' := by rw [hadvance] at hadvance'; exact Except.ok.inj hadvance'
        simp only [hadvance, ofExcept_ok_bind]
        exact runs_success _ (.stream none hrest)

/-! ### Values -/

theorem related_map (f : Value → Call Value) (hp : c.Related p p') :
    c.Related (map p f) (map p' f) := by
  intro place place' hplace
  refine related_andThen hp (fun value rest rest' hrest ↦ ?_) hplace
  exact (runs_ofCall (f value)).bind_same fun mapped ↦ runs_success mapped hrest

theorem related_mapOption (f : Value → Call Value) (hp : c.Related p p') :
    c.Related (mapOption p f) (mapOption p' f) := by
  intro place place' hplace
  refine related_andThen hp (fun value rest rest' hrest ↦ ?_) hplace
  refine (runs_ofCall (f value)).bind_same fun mapped ↦ ?_
  cases mapped with
  | null => exact runs_failure
  | _ => exact runs_success _ hrest

theorem related_mapResult (f : Value → Call Value) (hp : c.Related p p') :
    c.Related (mapResult p f) (mapResult p' f) := by
  intro place place' hplace
  refine related_andThen hp (fun value rest rest' hrest ↦ ?_) hplace
  refine (runs_attempt (f value)).bind_same fun outcome ↦ ?_
  cases outcome with
  | ok mapped => exact runs_success mapped hrest
  | error fault => exact runs_giveUp hplace _

theorem related_compose (hp : c.Related p p') (hq : c.Related q q') :
    c.Related (compose p q) (compose p' q') := by
  intro place place' hplace
  refine related_andThen hp (fun f middle middle' hmiddle ↦ ?_) hplace
  refine related_andThen hq (fun value rest rest' hrest ↦ ?_) hmiddle
  exact (runs_ofCall (f.apply value)).bind_same fun result ↦ runs_success result hrest

theorem related_chooseNext (choose : Value → Call Unit) {next next' : Value → Parse}
    (hp : c.Related p p') (hnext : ∀ v, c.Related (next v) (next' v)) :
    c.Related (chooseNext p choose next) (chooseNext p' choose next') := by
  intro place place' hplace
  refine related_andThen hp (fun value rest rest' hrest ↦ ?_) hplace
  exact (runs_ofCall (choose value)).bind_same fun _ ↦ hnext value hrest

/-! ### One parser after another -/

theorem related_both (hp : c.Related p p') (hq : c.Related q q') :
    c.Related (both p q) (both p' q') := by
  intro place place' hplace
  refine related_andThen hp (fun first middle middle' hmiddle ↦ ?_) hplace
  exact related_andThen hq (fun second _ _ hrest ↦ runs_success (.tuple [first, second]) hrest)
    hmiddle

theorem related_left (hp : c.Related p p') (hq : c.Related q q') :
    c.Related (left p q) (left p' q') := by
  intro place place' hplace
  refine hp.bind hplace runs_failure fun hmiddle value ↦ ?_
  exact hq.bind hmiddle runs_failure fun hrest _ ↦ runs_success value hrest

theorem related_right (hp : c.Related p p') (hq : c.Related q q') :
    c.Related (right p q) (right p' q') :=
  fun hplace ↦ hp.bind hplace runs_failure fun hmiddle _ ↦ hq hmiddle

theorem related_mid (hp : c.Related p p') (hq : c.Related q q') (hr : c.Related r r') :
    c.Related (mid p q r) (mid p' q' r') := by
  intro place place' hplace
  refine hp.bind hplace runs_failure fun hmiddle _ ↦ ?_
  refine hq.bind hmiddle runs_failure fun hlast value ↦ ?_
  exact hr.bind hlast runs_failure fun hrest _ ↦ runs_success value hrest

theorem related_countFrom (hp : c.Related p p') (n : Nat) :
    ∀ values, c.Related (countFrom p n · values) (countFrom p' n · values) := by
  induction n with
  | zero => exact fun _ _ _ hplace ↦ runs_success _ hplace
  | succ n ih => exact fun values ↦ related_andThen hp fun value ↦ ih (value :: values)

/-! ### Alternatives -/

theorem related_either (hp : c.Related p p') (hq : c.Related q q') :
    c.Related (either p q) (either p' q') :=
  fun hplace ↦ runs_mark_bind (hp.bindFrom hplace
    (runsFrom_rollback.bind fun _ _ _ ↦ (hq hplace).fromMark)
    fun hrest value ↦ (runs_success value hrest).fromMark)

theorem related_optional (hp : c.Related p p') : c.Related (optional p) (optional p') :=
  fun hplace ↦ runs_mark_bind (hp.bindFrom hplace
    (runsFrom_rollback.bind fun _ _ _ ↦ (runs_success .null hplace).fromMark)
    fun hrest value ↦ (runs_success value hrest).fromMark)

/-! ### Repetition and chains -/

/-- Two rounds both give up, or go on at places that go together with the same gathered. -/
inductive Onwards (streams : Stream → Stream → Prop) {σ : Type} :
    Option (Place × σ) → Option (Place × σ) → Prop
  | stop : Onwards streams none none
  | goOn {rest rest' : Place} (gathered : σ) (hrest : rest.Related streams rest') :
    Onwards streams (some (rest, gathered)) (some (rest', gathered))

/-- Two rounds end alike on places that go together, whatever has been gathered. -/
def RoundsRelated {σ : Type} (round round' : Round σ) : Prop :=
  ∀ {place place' : Place}, place.Related c.streams place' → ∀ gathered,
    c.Runs (round place gathered) (round' place' gathered) (Onwards c.streams)

/-- Two ways of repeating end alike on rounds that do. -/
def Repetitions (repetition repetition' : Repetition) : Prop :=
  ∀ {σ : Type} {round round' : Round σ}, c.RoundsRelated round round' →
    ∀ {place place' : Place}, place.Related c.streams place' → ∀ gathered,
      c.Runs (repetition round place gathered) (repetition' round' place' gathered)
        fun result result' ↦ result.1.Related c.streams result'.1 ∧ result.2 = result'.2

variable {repetition repetition' : Repetition}

/-- As many rounds on one side as on the other. -/
theorem repetitions_rounds (hendless : c.endless) (bound : Nat) :
    c.Repetitions (rounds bound) (rounds bound) := by
  intro σ round round' hround
  induction bound with
  | zero => exact fun _ _ ↦ runs_unfinished hendless
  | succ bound ih =>
    intro place place' hplace gathered
    refine (hround hplace gathered).bind fun found found' hfound ↦ ?_
    cases hfound with
    | stop => exact runs_pure ⟨hplace, rfl⟩
    | goOn more hrest => exact ih hrest more

theorem roundsRelated_attempt (hp : c.Related p p') : c.RoundsRelated (attempt p) (attempt p') := by
  intro place place' hplace values
  refine runs_mark_bind (hp.bindFrom hplace ?_ fun hrest value ↦ ?_)
  · exact runsFrom_rollback.bind fun _ _ _ ↦ (runs_pure .stop).fromMark
  · exact (runs_pure (.goOn (value :: values) hrest)).fromMark

/-- An operator and its operand are read on both sides, or what they logged is taken back on
both. -/
theorem runs_link (hp : c.Related p p') (hop : c.Related op op')
    (hplace : place.Related c.streams place') :
    c.Runs (link p op place) (link p' op' place') (Onwards c.streams) := by
  have hgiveUp : c.RunsFrom (fun mark ↦ do
      rollback mark
      return (none : Option (Place × Link))) (fun mark ↦ do
      rollback mark
      return none) (Onwards c.streams) :=
    runsFrom_rollback.bind fun _ _ _ ↦ (runs_pure .stop).fromMark
  refine runs_mark_bind (hop.bindFrom hplace hgiveUp fun hmiddle f ↦ ?_)
  exact hp.bindFrom hmiddle hgiveUp fun hrest value ↦
    (runs_pure (.goOn (Link.mk f value) hrest)).fromMark

theorem roundsRelated_combine (hp : c.Related p p') (hop : c.Related op op') :
    c.RoundsRelated (combine p op) (combine p' op') := by
  intro place place' hplace combined
  refine (runs_link hp hop hplace).bind fun found found' hfound ↦ ?_
  cases hfound with
  | stop => exact runs_pure .stop
  | goOn next hrest =>
    exact (runs_ofCall (next.operator.apply₂ combined next.operand)).bind_same fun combined ↦
      runs_pure (.goOn combined hrest)

theorem roundsRelated_gather (hp : c.Related p p') (hop : c.Related op op') :
    c.RoundsRelated (gather p op) (gather p' op') := by
  intro place place' hplace gathered
  refine (runs_link hp hop hplace).bind fun found found' hfound ↦ ?_
  cases hfound with
  | stop => exact runs_pure .stop
  | goOn next hrest => exact runs_pure (.goOn _ hrest)

theorem related_collect (hrepetition : c.Repetitions repetition repetition')
    (hp : c.Related p p') (values : List Value) :
    c.Related (collect repetition p · values) (collect repetition' p' · values) := by
  intro place place' hplace
  refine (hrepetition (roundsRelated_attempt hp) hplace values).bind ?_
  rintro ⟨rest, values⟩ ⟨rest', _⟩ ⟨hrest, rfl⟩
  exact runs_success _ hrest

theorem related_foldLeft (hrepetition : c.Repetitions repetition repetition')
    (hp : c.Related p p') (hop : c.Related op op') (first : Value) :
    c.Related (foldLeft repetition p op · first) (foldLeft repetition' p' op' · first) := by
  intro place place' hplace
  refine (hrepetition (roundsRelated_combine hp hop) hplace first).bind ?_
  rintro ⟨rest, combined⟩ ⟨rest', _⟩ ⟨hrest, rfl⟩
  exact runs_success combined hrest

theorem related_foldRight (hrepetition : c.Repetitions repetition repetition')
    (hp : c.Related p p') (hop : c.Related op op') (last : Value) (links : List Link) :
    c.Related (foldRight repetition p op · last links)
      (foldRight repetition' p' op' · last links) := by
  intro place place' hplace
  refine (hrepetition (roundsRelated_gather hp hop) hplace (last, links)).bind ?_
  rintro ⟨rest, last, links⟩ ⟨rest', _⟩ ⟨hrest, rfl⟩
  refine (runs_foldlM (fun _ _ ↦ runs_ofCall _) links last).bind_same fun combined ↦ ?_
  exact runs_success combined hrest

theorem related_manyBy (hrepetition : c.Repetitions repetition repetition')
    (hp : c.Related p p') : c.Related (manyBy repetition p) (manyBy repetition' p') :=
  related_collect hrepetition hp []

theorem related_oneOrMoreBy (hrepetition : c.Repetitions repetition repetition')
    (hp : c.Related p p') : c.Related (oneOrMoreBy repetition p) (oneOrMoreBy repetition' p') :=
  related_andThen hp fun first ↦ related_collect hrepetition hp [first]

theorem related_chainLeftBy (hrepetition : c.Repetitions repetition repetition')
    (hp : c.Related p p') (hop : c.Related op op') :
    c.Related (chainLeftBy repetition p op) (chainLeftBy repetition' p' op') :=
  related_andThen hp fun first ↦ related_foldLeft hrepetition hp hop first

theorem related_chainRightBy (hrepetition : c.Repetitions repetition repetition')
    (hp : c.Related p p') (hop : c.Related op op') :
    c.Related (chainRightBy repetition p op) (chainRightBy repetition' p' op') :=
  related_andThen hp fun first ↦ related_foldRight hrepetition hp hop first []

/-! ### Looking without consuming -/

theorem related_lookAhead (hp : c.Related p p') : c.Related (lookAhead p) (lookAhead p') :=
  fun hplace ↦ hp.bind hplace runs_failure fun _ value ↦ runs_success value hplace

theorem related_notFollowedBy (hp : c.Related p p') :
    c.Related (notFollowedBy p) (notFollowedBy p') := by
  intro place place' hplace
  refine runs_mark_bind (hp.bindFrom hplace ?_ fun _ value ↦ ?_)
  · exact runsFrom_rollback.bind fun _ _ _ ↦ (runs_success .null hplace).fromMark
  · exact runsFrom_rollback.bind fun _ _ _ ↦ (runs_giveUp hplace _).fromMark

/-! ### Diagnostics -/

theorem related_annotate (severity : Severity) (text : String) (hp : c.Related p p') :
    c.Related (annotate severity p text) (annotate severity p' text) := by
  intro place place' hplace
  cases hplace with
  | stream slot hstreams =>
    exact (runs_complain (c.message hstreams severity text)).bind fun _ _ _ ↦
      hp (.stream slot hstreams)

theorem related_label (name : String) (hp : c.Related p p') :
    c.Related (label p name) (label p' name) :=
  fun hplace ↦ hp.bind hplace (runs_giveUp hplace _) fun hrest value ↦ runs_success value hrest

/-- Two observers that come to the same on both sides. -/
theorem related_inspect {observe observe' : Place → Reply → Call Unit}
    (hobserve : ∀ {place place' reply reply'}, place.Related c.streams place' →
      reply.Related c.streams reply' →
        (observe place reply).outcome = (observe' place' reply').outcome)
    (hp : c.Related p p') : c.Related (inspect p observe) (inspect p' observe') := by
  intro place place' hplace
  refine (hp hplace).bind fun reply reply' hreply ↦ ?_
  exact (runs_ofCall_of_eq (hobserve hplace hreply)).bind_same fun _ ↦ runs_pure hreply

theorem related_recover (default : Value) (hp : c.Related p p') :
    c.Related (recover p default) (recover p' default) :=
  fun hplace ↦ hp.bind hplace (runs_success default hplace) fun hrest value ↦
    runs_success value hrest

/-- On a stream nothing that a trace asks for is lacking. -/
theorem related_trace (name : String) (hp : c.Related p p') :
    c.Related (trace name p) (trace name p') := by
  intro place place' hplace
  cases hplace with
  | stream slot hstreams =>
    simp only [trace, Place.position, Place.preview, Place.stream?, Except.map, ofExcept_ok_bind]
    refine (runs_note _ _).bind fun _ _ _ ↦ ?_
    refine hp.bind (.stream slot hstreams) ?_ fun hrest value ↦ ?_
    · exact (runs_note _ _).bind fun _ _ _ ↦ runs_failure
    · cases hrest with
      | stream slot hrest =>
        exact (runs_note _ _).bind fun _ _ _ ↦ runs_success value (.stream slot hrest)

/-! ### Grammars -/

section Grammars

variable {allowed : Grammar → Prop}

/-- An observer comes to the same on what goes together. -/
def Indifferent (c : Correspondence) (observe : Place → Reply → Call Unit) : Prop :=
  ∀ {place place' : Place} {reply reply' : Reply}, place.Related c.streams place' →
    reply.Related c.streams reply' →
      (observe place reply).outcome = (observe place' reply').outcome

/-- Where streams go together only with themselves, every observer comes to the same. -/
theorem indifferent_of_eq (hstreams : ∀ {s s' : Stream}, c.streams s s' → s = s')
    (observe : Place → Reply → Call Unit) : c.Indifferent observe := by
  intro place place' reply reply' hplace hreply
  rw [hplace.eq hstreams, hreply.eq hstreams]

/-- The ordinary constructors keep parsers related. Assumes: what is allowed of patterns and of
replies given by hand is related to itself. -/
theorem preserved
    (hregex : ∀ pattern, allowed (.regex pattern) → c.Related (regex pattern) (regex pattern))
    (hreply : ∀ answer, allowed (.reply answer) → c.Related (reply answer) (reply answer)) :
    Grammar.Preserved allowed c.Related where
  succeed := fun v _ ↦ related_succeed v
  empty := fun _ ↦ related_empty
  eof := fun _ ↦ related_eof
  element := fun test describe _ ↦ related_element test describe
  token := fun test describe _ ↦ related_token test describe
  literal := fun v _ ↦ related_literal v
  regex := hregex
  raise := related_raise
  reply := hreply
  map := fun _ f _ hp ↦ related_map f hp
  mapOption := fun _ f _ hp ↦ related_mapOption f hp
  mapResult := fun _ f _ hp ↦ related_mapResult f hp
  compose := fun _ _ _ hp hq ↦ related_compose hp hq
  chooseNext := fun _ choose _ _ hp hnext ↦ related_chooseNext choose hp hnext
  both := fun _ _ _ hp hq ↦ related_both hp hq
  left := fun _ _ _ hp hq ↦ related_left hp hq
  right := fun _ _ _ hp hq ↦ related_right hp hq
  mid := fun _ _ _ _ hp hq hr ↦ related_mid hp hq hr
  either := fun _ _ _ hp hq ↦ related_either hp hq
  optional := fun _ _ hp ↦ related_optional hp
  optionalEmpty := fun _ ↦ related_optional related_empty
  count := fun n _ _ hp ↦ related_countFrom hp n []
  lookAhead := fun _ _ hp ↦ related_lookAhead hp
  notFollowedBy := fun _ _ hp ↦ related_notFollowedBy hp

/-- Repetitions and diagnostics keep parsers related. Assumes: the ways of going round end alike,
and observers come to the same on both sides. -/
theorem preserve (hrepetition : c.Repetitions repetition repetition')
    (hinspect : ∀ part observe, allowed (.inspect part observe) → c.Indifferent observe) :
    Operations.Preserve allowed c.Related (.standard (.going repetition))
      (.standard (.going repetition')) where
  many := fun _ _ hp ↦ related_manyBy hrepetition hp
  oneOrMore := fun _ _ hp ↦ related_oneOrMoreBy hrepetition hp
  chainLeft := fun _ _ _ hp hop ↦ related_chainLeftBy hrepetition hp hop
  chainRight := fun _ _ _ hp hop ↦ related_chainRightBy hrepetition hp hop
  annotate := fun severity _ text _ hp ↦ related_annotate severity text hp
  label := fun _ name _ hp ↦ related_label name hp
  inspect := fun part observe hallowed hp ↦ related_inspect (hinspect part observe hallowed) hp
  recover := fun _ default _ hp ↦ related_recover default hp
  trace := fun name _ _ hp ↦ related_trace name hp

/-- A correspondence relates every grammar to itself. Assumes: runs that are cut short go together,
and so do the runs of what is allowed of patterns, of replies given by hand and of observers. -/
theorem hereditary (hendless : c.endless)
    (hregex : ∀ pattern, allowed (.regex pattern) → c.Related (regex pattern) (regex pattern))
    (hreply : ∀ answer, allowed (.reply answer) → c.Related (reply answer) (reply answer))
    (hinspect : ∀ part observe, allowed (.inspect part observe) → c.Indifferent observe) :
    Grammar.Hereditary allowed c.Related where
  unfinished := related_unfinished hendless
  preserved := preserved hregex hreply
  preserve := fun bound ↦ by
    rw [Loops.within_eq]
    exact preserve (repetitions_rounds hendless bound) hinspect

end Grammars

end DiagnosticParsing.Correspondence
