import DiagnosticParsing.Grammar.Characters
import DiagnosticParsing.Grammar.Observers
import DiagnosticParsing.Proofs.Correspondence.Parsers
import DiagnosticParsing.Proofs.Invariant

/-!
# Diagnostics never steer a parse

`p.erase drops` is the grammar `p` without the diagnostics that `drops` selects: annotations,
labels, observers and traces give way to what they stand around, and a recovery becomes a plain
alternative between its parser and its value. Definitions and scopes are erased along with the
grammar (`Definitions.erase`, `Scope.erase`), so that no part of it escapes by being deferred.

A grammar and what is left of it end alike on every stream, and the messages of the second are among
those of the first, in the same order. The two are compared by `Correspondence.erasure`, in which
messages of the first side may be missing on the second. The constructors that stay follow the laws
of `DiagnosticParsing.Proofs.Correspondence.Parsers`, and each one that is dropped has a law of its
own in which only the first side has it. The conclusion is `Grammar.erase_steers_nothing`.
-/

set_option autoImplicit false

namespace DiagnosticParsing

/-! ### Erasing diagnostics -/

/-- The grammar without the diagnostics selected. -/
def Grammar.erase (drops : Grammar → Bool) : Grammar → Grammar
  | map p f => map (p.erase drops) f
  | mapOption p f => mapOption (p.erase drops) f
  | mapResult p f => mapResult (p.erase drops) f
  | compose p q => compose (p.erase drops) (q.erase drops)
  | bind p choose next => bind (p.erase drops) choose fun v ↦ (next v).erase drops
  | both p q => both (p.erase drops) (q.erase drops)
  | left p q => left (p.erase drops) (q.erase drops)
  | right p q => right (p.erase drops) (q.erase drops)
  | mid p q r => mid (p.erase drops) (q.erase drops) (r.erase drops)
  | either p q => either (p.erase drops) (q.erase drops)
  | many p => many (p.erase drops)
  | oneOrMore p => oneOrMore (p.erase drops)
  | optional p => optional (p.erase drops)
  | count n p => count n (p.erase drops)
  | chainLeft p op => chainLeft (p.erase drops) (op.erase drops)
  | chainRight p op => chainRight (p.erase drops) (op.erase drops)
  | lookAhead p => lookAhead (p.erase drops)
  | notFollowedBy p => notFollowedBy (p.erase drops)
  | annotate severity p text =>
    if drops (annotate severity p text) then p.erase drops
    else annotate severity (p.erase drops) text
  | label p name =>
    if drops (label p name) then p.erase drops else label (p.erase drops) name
  | inspect p observe =>
    if drops (inspect p observe) then p.erase drops else inspect (p.erase drops) observe
  | recover p default =>
    if drops (recover p default) then either (p.erase drops) (succeed default)
    else recover (p.erase drops) default
  | trace name p =>
    if drops (trace name p) then p.erase drops else trace name (p.erase drops)
  | fix tag name body => fix tag name (body.erase drops)
  | afresh p => afresh (p.erase drops)
  | copied p => copied (p.erase drops)
  | p => p

/-- The definitions without the diagnostics selected. -/
def Definitions.erase (drops : Grammar → Bool) (definitions : Definitions) : Definitions :=
  ⟨fun name ↦ (definitions.get name).map (·.erase drops)⟩

/-- The scope when the cells around it are without the diagnostics selected. -/
def Scope.erase (drops : Grammar → Bool) : Scope → Scope
  | .bound tag name body outer => .bound tag name (body.erase drops) (outer.erase drops)
  | .anew tag outer => .anew tag (outer.erase drops)
  | .afresh stamp outer => .afresh stamp (outer.erase drops)
  | scope => scope

/-- The grammar and its scope without the diagnostics selected. -/
def Closure.erase (drops : Grammar → Bool) (closure : Closure) : Closure :=
  ⟨closure.scope.erase drops, closure.grammar.erase drops⟩

/-- A variable refers to the same cell, without the diagnostics. -/
theorem Scope.lookup_erase (drops : Grammar → Bool) (name : String) (scope : Scope) :
    (scope.erase drops).lookup name = (scope.lookup name).map (·.erase drops) := by
  induction scope with
  | top => rfl
  | shared home => rfl
  | anew tag outer ih => rfl
  | afresh stamp outer ih => exact ih
  | bound tag own body outer ih =>
    simp only [erase, lookup]
    by_cases hname : own = name
    · rw [if_pos hname, if_pos hname]
      rfl
    · rw [if_neg hname, if_neg hname, ih]

/-- A reference leads to the same, without the diagnostics. -/
theorem Definitions.behind_erase (drops : Grammar → Bool) (definitions : Definitions)
    (scope : Scope) {p : Grammar} (hp : p.IsReference) :
    (definitions.erase drops).behind (scope.erase drops) (p.erase drops) =
      (definitions.behind scope p).map (·.erase drops) := by
  cases p with
  | use name | lazy tag name | lazyShared tag name =>
    simp only [Grammar.erase, behind, erase]
    cases definitions.get name <;> rfl
  | var name =>
    simp only [Grammar.erase, behind, Scope.lookup_erase]
    cases hlookup : scope.lookup name with
    | none => rfl
    | some cell =>
      obtain ⟨outer, tag, own, body, rfl⟩ := Scope.lookup_eq_fix hlookup
      rfl
  | fix tag name body => rfl
  | unbuildable tag name fault => rfl
  | _ => exact hp.elim

/-! ### Diagnostics on one side only -/

namespace Correspondence

open Parse Run

variable {c : Correspondence} {α β : Type} {accept : α → β → Prop} {p p' : Parse}
  {place place' : Place}

theorem aside_note (n : Note) (run : Run α) : (Run.note n >>= fun _ ↦ run).Aside run :=
  fun journal ↦ ⟨journal.note n, rfl, rfl⟩

/-- A call that raises nothing. -/
theorem aside_ofCall {call : Call Unit} (hcall : call.outcome = .ok ()) (run : Run α) :
    (Run.ofCall call >>= fun _ ↦ run).Aside run := by
  intro journal
  refine ⟨journal.noteAll call.notes, rfl, ?_⟩
  simp only [bind_apply, ofCall, hcall]

/-- What is added to the second side in the end is nothing. -/
theorem Related.bind_left (hp : c.Related p p') {next : Reply → Run Reply}
    (hplace : place.Related c.streams place')
    (hfailure : c.Runs (next .failure) (pure .failure) (Reply.Related c.streams))
    (hsuccess : ∀ {rest rest'}, rest.Related c.streams rest' → ∀ value,
      c.Runs (next (.success rest value)) (pure (.success rest' value))
        (Reply.Related c.streams)) :
    c.Runs (p place >>= next) (p' place') (Reply.Related c.streams) := by
  have hpure : (p' place' >>= pure) = p' place' := Run.bind_pure _
  rw [← hpure]
  exact hp.bind hplace hfailure hsuccess

theorem related_inspect_left {observe : Place → Reply → Call Unit}
    (hobserve : ∀ {place place' reply reply'}, place.Related c.streams place' →
      reply.Related c.streams reply' → (observe place reply).outcome = .ok ())
    (hp : c.Related p p') : c.Related (inspect p observe) p' := by
  intro place place' hplace
  refine hp.bind_left hplace ?_ fun hrest value ↦ ?_
  · exact runs_failure.of_asides (aside_ofCall (hobserve hplace .failure) _) (aside_refl _)
  · exact (runs_success value hrest).of_asides
      (aside_ofCall (hobserve hplace (.success value hrest)) _) (aside_refl _)

theorem related_trace_left (name : String) (hp : c.Related p p') :
    c.Related (trace name p) p' := by
  intro place place' hplace
  cases hplace with
  | stream slot hstreams =>
    simp only [trace, Place.position, Place.preview, Place.stream?, Except.map, ofExcept_ok_bind]
    refine Runs.of_asides ?_ (aside_note _ _) (aside_refl _)
    refine hp.bind_left (.stream slot hstreams) ?_ fun hrest value ↦ ?_
    · exact runs_failure.of_asides (aside_note _ _) (aside_refl _)
    · cases hrest with
      | stream slot hrest =>
        exact (runs_success value (.stream slot hrest)).of_asides (aside_note _ _) (aside_refl _)

section Missing

variable (hmissing : ∀ added, c.messages added [])

include hmissing

/-- A message of the first side only. -/
theorem runs_complain_left {first : Run α} {second : Run β} (message : Message)
    (h : c.Runs first second accept) :
    c.Runs (Run.complain message >>= fun _ ↦ first) second accept := by
  intro journal journal'
  have hends := h (journal.complain message) journal'
  rw [Journal.complain, Log.toList_add, ← List.append_nil journal'.log.toList] at hends
  exact hends.behind (hmissing [message])

/-- The first side keeps what the second one takes back. -/
theorem runsFrom_rollback_right :
    c.RunsFrom (fun _ ↦ pure ()) Run.rollback fun _ _ ↦ True := by
  intro earlier earlier' added added' journal journal' _ hlog hlog'
  refine .done trivial (hmissing added) hlog ?_
  rw [Journal.rollback, Log.toList_rollback, hlog', List.take_left, List.append_nil]

theorem related_annotate_left (severity : Severity) (text : String) (hp : c.Related p p') :
    c.Related (annotate severity p text) p' := by
  intro place place' hplace
  cases hplace with
  | stream slot hstreams => exact runs_complain_left hmissing _ (hp (.stream slot hstreams))

theorem related_label_left (name : String) (hp : c.Related p p') :
    c.Related (label p name) p' := by
  intro place place' hplace
  refine hp.bind_left hplace ?_ fun hrest value ↦ runs_success value hrest
  cases hplace with
  | stream slot hstreams => exact runs_complain_left hmissing _ runs_failure

/-- A recovery keeps the messages of the failure that an alternative takes back. -/
theorem runsFrom_recover_left (default : Value) (hp : c.Related p p')
    (hplace : place.Related c.streams place') :
    c.RunsFrom (fun _ ↦ recover p default place) (fun mark ↦ do
      match ← p' place' with
      | .failure =>
        Run.rollback mark
        succeed default place'
      | reply => return reply) (Reply.Related c.streams) := by
  refine hp.bindFrom hplace ?_ fun hrest value ↦ (runs_success value hrest).fromMark
  exact (runsFrom_rollback_right hmissing).bind fun _ _ _ ↦ (runs_success default hplace).fromMark

theorem related_recover_either (default : Value) (hp : c.Related p p') :
    c.Related (recover p default) (either p' (succeed default)) :=
  fun hplace ↦ runs_mark_bind (runsFrom_recover_left hmissing default hp hplace)

end Missing

/-- Streams go together when they are the same. Messages of the first side may be missing on the
second, unless the messages are to be exactly the same. -/
def erasure (exactly : Prop) : Correspondence where
  streams := Eq
  messages added added' := added'.Sublist added ∧ (exactly → added' = added)
  pardons _ := False
  endless := True
  isEmpty_eq := @Stream.isEmpty_eq_of_eq
  next := @Stream.next_of_eq
  silence := ⟨.refl _, fun _ ↦ rfl⟩
  append := fun hadded hmore ↦ ⟨hadded.1.append hmore.1, fun h ↦ by rw [hadded.2 h, hmore.2 h]⟩
  message := by
    rintro s _ rfl severity text
    exact ⟨.refl _, fun _ ↦ rfl⟩

theorem erasure_missing {exactly : Prop} (hexactly : ¬exactly) (added : List Message) :
    (erasure exactly).messages added [] :=
  ⟨List.nil_sublist added, fun h ↦ absurd h hexactly⟩

end Correspondence

/-! ### Grammars and what is left of them -/

/-- The reply is a failure, or a success that leaves a stream. -/
inductive Reply.OnStream : Reply → Prop
  | failure : OnStream .failure
  | success (slot : Option Nat) (rest : Stream) (value : Value) :
    OnStream (.success (.stream slot rest) value)

namespace Grammar

/-- An observer that raises nothing, whatever a parser on a stream replies. -/
def OnlyWatches (observe : Place → Reply → Call Unit) : Prop :=
  ∀ slot stream reply, reply.OnStream → (observe (.stream slot stream) reply).outcome = .ok ()

/-- The grammar is no parse function written by hand, and no observer that raises is dropped. -/
def Erasable (drops : Grammar → Bool) : Grammar → Prop
  | .reply _ => False
  | .inspect p observe => drops (.inspect p observe) = true → OnlyWatches observe
  | _ => True

/-- The grammar itself makes a difference to the log. -/
def Speaks : Grammar → Prop
  | .annotate _ _ _ | .label _ _ | .recover _ _ => True
  | _ => False

/-- The grammar is not dropped if it makes a difference to the log. -/
def KeepsMessages (drops : Grammar → Bool) (p : Grammar) : Prop :=
  p.Speaks → drops p = false

open Correspondence

variable {drops : Grammar → Bool} {allowed : Grammar → Prop} {exactly : Prop}
  {definitions : Definitions} {bound : Nat}

/-- On places and replies that go together, in whatever way, both sides are watched without a
fault. -/
theorem OnlyWatches.outcome_eq {observe : Place → Reply → Call Unit} (h : OnlyWatches observe)
    {streams : Stream → Stream → Prop} {place place' : Place} {reply reply' : Reply}
    (hplace : place.Related streams place') (hreply : reply.Related streams reply') :
    (observe place reply).outcome = .ok () ∧ (observe place' reply').outcome = .ok () := by
  cases hplace with
  | stream slot _ =>
    cases hreply with
    | failure => exact ⟨h slot _ _ .failure, h slot _ _ .failure⟩
    | success value hrest =>
      cases hrest with
      | stream slot' _ =>
        exact ⟨h slot _ _ (.success slot' _ value), h slot _ _ (.success slot' _ value)⟩

/-- Where something that makes a difference to the log is dropped, messages may be missing. -/
theorem missing_of_dropped (hexactly : exactly → ∀ q, allowed q → KeepsMessages drops q)
    {q : Grammar} (hq : allowed q) (hspeaks : q.Speaks) (hdropped : drops q = true)
    (added : List Message) : (erasure exactly).messages added [] := by
  refine erasure_missing (fun h ↦ ?_) added
  have hkept : drops q = false := hexactly h q hq hspeaks
  rw [hkept] at hdropped
  exact Bool.false_ne_true hdropped

/-- Nothing that is not dropped makes a difference. -/
theorem erasure_hereditary (hallowed : ∀ q, allowed q → Erasable drops q) :
    Hereditary allowed (erasure exactly).Related :=
  hereditary trivial (fun pattern _ ↦ related_regex id pattern)
    (fun _ hreply ↦ (hallowed _ hreply).elim) fun _ observe _ ↦ indifferent_of_eq id observe

/-- Diagnostics that are dropped if they are selected. -/
def erasing (drops : Grammar → Bool) (loops : Loops) : Operations where
  toLoops := loops
  annotate severity part text p :=
    if drops (.annotate severity part text) then p else Parse.annotate severity p text
  label part name p := if drops (.label part name) then p else Parse.label p name
  inspect part observe p := if drops (.inspect part observe) then p else Parse.inspect p observe
  recover part default p :=
    if drops (.recover part default) then Parse.either p (Parse.succeed default)
    else Parse.recover p default
  trace name part p := if drops (.trace name part) then p else Parse.trace name p

/-- What is left of a grammar goes by the constructors of the grammar. -/
theorem structural_erase {ε : Type} (drops : Grammar → Bool) (reading : Reading ε) :
    Structural (erasing drops reading.loops) fun env p ↦ (p.erase drops).read reading env := by
  constructor
  case annotate | label | inspect | recover | trace =>
    intros
    simp only [erase, erasing]
    split <;> rfl
  all_goals intros; rfl

/-- Assumes: nothing that is allowed raises when it is dropped, nor drops a message where the
messages are to be exactly the same. -/
theorem preserve_erasing (hallowed : ∀ q, allowed q → Erasable drops q)
    (hexactly : exactly → ∀ q, allowed q → KeepsMessages drops q) :
    Operations.Preserve allowed (erasure exactly).Related (.standard (.within bound))
      (erasing drops (.within bound)) where
  many := (erasure_hereditary hallowed).preserve bound |>.many
  oneOrMore := (erasure_hereditary hallowed).preserve bound |>.oneOrMore
  chainLeft := (erasure_hereditary hallowed).preserve bound |>.chainLeft
  chainRight := (erasure_hereditary hallowed).preserve bound |>.chainRight
  annotate := by
    intro p p' severity part text hpart hp
    simp only [erasing]
    split
    · next hdropped =>
      exact related_annotate_left (missing_of_dropped hexactly hpart trivial hdropped) severity text
        hp
    · exact related_annotate severity text hp
  label := by
    intro p p' part name hpart hp
    simp only [erasing]
    split
    · next hdropped =>
      exact related_label_left (missing_of_dropped hexactly hpart trivial hdropped) name hp
    · exact related_label name hp
  inspect := by
    intro p p' part observe hpart hp
    simp only [erasing]
    split
    · next hdropped =>
      have hwatches := hallowed _ hpart hdropped
      have houtcome {place place' : Place} {reply reply' : Reply}
          (hplace : place.Related (erasure exactly).streams place')
          (hreply : reply.Related (erasure exactly).streams reply') :
          (observe place reply).outcome = .ok () :=
        (hwatches.outcome_eq hplace hreply).1
      intro place place' hplace
      exact related_inspect_left houtcome hp hplace
    · exact related_inspect (indifferent_of_eq id observe) hp
  recover := by
    intro p p' part default hpart hp
    simp only [erasing]
    split
    · next hdropped =>
      exact related_recover_either (missing_of_dropped hexactly hpart trivial hdropped) default hp
    · exact related_recover default hp
  trace := by
    intro p p' name part _ hp
    simp only [erasing]
    split
    · exact related_trace_left name hp
    · exact related_trace name hp

/-- What is left of a grammar goes together with the grammar, when that is so of whatever the
grammar refers to. -/
theorem related_meaning_erase (hallowed : ∀ q, allowed q → Erasable drops q)
    (hexactly : exactly → ∀ q, allowed q → KeepsMessages drops q)
    {enter enter' : Scope → Grammar → Parse} (hdefinitions : definitions.Everywhere allowed)
    (henter : ∀ (scope : Scope) (q : Grammar), scope.Everywhere allowed → q.Everywhere allowed →
      (erasure exactly).Related (enter scope q) (enter' (scope.erase drops) (q.erase drops)))
    (scope : Scope) (p : Grammar) (hscope : scope.Everywhere allowed)
    (hp : p.Everywhere allowed) :
    (erasure exactly).Related (p.meaning definitions enter bound scope)
      ((p.erase drops).meaning (definitions.erase drops) enter' bound (scope.erase drops)) := by
  have hfits (scope scope' : Scope) : PassesDown allowed fun q ↦
      (scope' = scope.erase drops ∧ scope.Everywhere allowed) ∧ q.Everywhere allowed :=
    (passesDown_everywhere allowed).and _
  intro place place' hplace
  refine (structural_read (plain definitions enter (.within bound))).relates
    (structural_erase drops (plain (definitions.erase drops) enter' (.within bound)))
    (erasure_hereditary hallowed).preserved (preserve_erasing hallowed hexactly) hfits ?_ ?_ ?_ p
    scope (scope.erase drops) ⟨⟨rfl, hscope⟩, hp⟩ hplace
  · rintro scope _ q hq ⟨⟨rfl, hscope⟩, hallowed⟩
    have hq' : (q.erase drops).IsReference := by
      cases q <;> first | exact hq | exact hq.elim
    rw [read_reference _ _ hq, read_reference _ _ hq']
    simp only [plain, Definitions.behind_erase drops definitions scope hq]
    intro place place' hplace
    cases hbehind : definitions.behind scope q with
    | error fault => exact related_raise fault hplace
    | ok closure =>
      obtain ⟨hinner, hclosure⟩ :=
        Definitions.everywhere_behind hdefinitions hscope hallowed hbehind
      exact henter closure.scope closure.grammar hinner hclosure hplace
  · rintro scope _ q ⟨⟨rfl, hscope⟩, -, hallowed⟩ ih
    exact ih scope _ ⟨⟨rfl, hscope⟩, hallowed⟩
  · exact fun _ ih ↦ ih

theorem related_eval_erase (hallowed : ∀ q, allowed q → Erasable drops q)
    (hexactly : exactly → ∀ q, allowed q → KeepsMessages drops q)
    (hdefinitions : definitions.Everywhere allowed) (bound : Nat) :
    ∀ (scope : Scope) (p : Grammar), scope.Everywhere allowed → p.Everywhere allowed →
      (erasure exactly).Related (p.eval definitions bound scope)
        ((p.erase drops).eval (definitions.erase drops) bound (scope.erase drops)) := by
  induction bound with
  | zero => exact fun _ _ _ _ ↦ related_unfinished trivial
  | succ bound ih =>
    exact fun scope p hscope hp ↦
      related_meaning_erase hallowed hexactly hdefinitions ih scope p hscope hp

/-- Without the diagnostics selected a grammar comes to the same end on every stream: the same
reply, the same fault, or no end within the bound. Its messages are among those of the grammar with
them, and they are all of those when what is dropped makes no difference to the log. Assumes: a
grammar and definitions without parse functions written by hand, whose observers raise nothing where
they are dropped. -/
theorem erase_steers_nothing {p : Grammar} (hp : p.Everywhere (Erasable drops))
    (hdefinitions : definitions.Everywhere (Erasable drops)) (bound : Nat) (slot : Option Nat)
    (start : Stream) (journal : Journal) :
    let full := p.eval definitions bound .top (.stream slot start) journal
    let bare := (p.erase drops).eval (definitions.erase drops) bound .top (.stream slot start)
      journal
    bare.result? = full.result? ∧ bare.messages.Sublist full.messages ∧
      (p.Everywhere (KeepsMessages drops) → definitions.Everywhere (KeepsMessages drops) →
        bare.messages = full.messages) := by
  intro full bare
  have hsubsequence : (erasure False).Ends journal.log.toList journal.log.toList
      (Reply.Related Eq) full bare :=
    related_eval_erase (fun _ hq ↦ hq) (fun h ↦ h.elim) hdefinitions bound .top p trivial hp
      (.stream slot rfl) journal journal
  refine ⟨?_, ?_, fun hkept hkept' ↦ ?_⟩
  · exact (hsubsequence.result?_eq (fun _ _ hreply ↦ hreply.eq id) fun _ _ _ ↦ id).symm
  · rcases hsubsequence.messages_related fun _ _ _ ↦ id with ⟨-, hbare⟩ |
      ⟨added, added', hmessages, hfull, hbare⟩
    · rw [hbare]
      exact List.nil_sublist _
    · rw [hfull, hbare]
      exact (List.Sublist.refl _).append hmessages.1
  · have hsame : (erasure True).Ends journal.log.toList journal.log.toList
        (Reply.Related Eq) full bare :=
      related_eval_erase (fun _ hq ↦ hq.1) (fun _ _ hq ↦ hq.2)
        (fun name q hget ↦ (hdefinitions name q hget).and (hkept' name q hget)) bound .top p trivial
        (hp.and hkept) (.stream slot rfl) journal journal
    rcases hsame.messages_related fun _ _ _ ↦ id with ⟨hfull, hbare⟩ |
      ⟨added, added', hmessages, hfull, hbare⟩
    · rw [hfull, hbare]
    · rw [hfull, hbare, hmessages.2 trivial]

theorem onlyWatches_recordEvent (id : Value) : OnlyWatches (recordEvent id) := by
  intro slot stream reply hreply
  cases hreply with
  | failure => rfl
  | success slot rest value => rfl

theorem onlyWatches_recordDebug : OnlyWatches recordDebug := by
  intro slot stream reply hreply
  cases hreply with
  | failure => rfl
  | success slot rest value => rfl

/-- A definition of a one, named and watched. -/
def watchedOne : Definitions :=
  ⟨fun _ ↦ .ok (label (inspect (char (.int 1)) (recordEvent .null)) "one")⟩

/-- Two ones, a zero in the place of the second one if it is missing. -/
def mendedPair : Grammar :=
  trace "pair" (both (use "one") (recover (use "one") (.int 0)))

/-- Where the second one is missing, the pair is mended with all diagnostics and without any. With
them the log says twice what was expected. -/
theorem erase_steers_nothing_mendedPair :
    let full := mendedPair.eval watchedOne 2 .top
      (.stream none (.start (.tokens (.list #[.int 1, .int 2]) .row))) .empty
    let bare := (mendedPair.erase fun _ ↦ true).eval (watchedOne.erase fun _ ↦ true) 2 .top
      (.stream none (.start (.tokens (.list #[.int 1, .int 2]) .row))) .empty
    full.result? = some (.ok (.success (.fresh ⟨.tokens (.list #[.int 1, .int 2]) .row, 1, ⟨1, 0⟩⟩)
        (.tuple [.int 1, .int 0]))) ∧
      full.messages.length = 2 ∧ bare.messages = [] ∧
      bare.result? = full.result? ∧ bare.messages.Sublist full.messages := by
  have hwatched : watchedOne.Everywhere (Erasable fun _ ↦ true) := by
    rintro name p ⟨⟩
    exact ⟨trivial, fun _ ↦ onlyWatches_recordEvent .null, trivial⟩
  have hpair : mendedPair.Everywhere (Erasable fun _ ↦ true) :=
    ⟨trivial, trivial, trivial, trivial, trivial⟩
  obtain ⟨hresult, hmessages, -⟩ := erase_steers_nothing hpair hwatched 2 none
    (.start (.tokens (.list #[.int 1, .int 2]) .row)) .empty
  exact ⟨rfl, rfl, rfl, hresult, hmessages⟩

end Grammar

end DiagnosticParsing
