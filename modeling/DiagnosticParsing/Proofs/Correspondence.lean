import DiagnosticParsing.Proofs.Ensures

/-!
# Two runs side by side

Whoever compares two parsers, or one parser on two streams, has to say which streams go together
and which messages of one run go with which of the other. A `Correspondence` says both. It asks of
streams that go together that they agree on whether anything is left and on the next element, and of
messages that they can be put one behind the other.

`c.Runs first second accept` then says that the two runs end alike: both with results that `accept`
relates, or both with the same fault, and with messages added that go together. There is a rule for
each way of building a run. As in `DiagnosticParsing.Proofs.LogDiscipline`, what is said of runs
behind a mark (`c.RunsFrom`) counts messages from the mark, so that a rollback on both sides leaves
none on either.

Two things can be adjusted. A fault of the first run can be pardoned, and nothing is then asked of
the second. And two runs that are both cut short go together only in a correspondence that says so;
in one that does not, `c.Runs` includes that the runs come to an end.
-/

set_option autoImplicit false

namespace DiagnosticParsing

/-! ### Places, replies and endings -/

/-- Two places are streams in the same slot that are related. -/
inductive Place.Related (streams : Stream → Stream → Prop) : Place → Place → Prop
  | stream (slot : Option Nat) {s s' : Stream} (hstreams : streams s s') :
    Related streams (.stream slot s) (.stream slot s')

/-- Two replies are both failures, or successes with the same value at related places. -/
inductive Reply.Related (streams : Stream → Stream → Prop) : Reply → Reply → Prop
  | failure : Related streams .failure .failure
  | success {rest rest' : Place} (value : Value) (hrest : rest.Related streams rest') :
    Related streams (.success rest value) (.success rest' value)

/-- Places that go together are the same when streams that go together are. -/
theorem Place.Related.eq {streams : Stream → Stream → Prop} {place place' : Place}
    (h : place.Related streams place') (hstreams : ∀ {s s'}, streams s s' → s = s') :
    place = place' := by
  cases h with
  | stream slot h => rw [hstreams h]

/-- Replies that go together are the same when streams that go together are. -/
theorem Reply.Related.eq {streams : Stream → Stream → Prop} {reply reply' : Reply}
    (h : reply.Related streams reply') (hstreams : ∀ {s s'}, streams s s' → s = s') :
    reply = reply' := by
  cases h with
  | failure => rfl
  | success value hrest => rw [hrest.eq hstreams]

/-- The result or the fault with which an outcome came to an end. -/
def Outcome.result? {α : Type} : Outcome α → Option (Except Fault α)
  | .done a _ => some (.ok a)
  | .faulted fault _ => some (.error fault)
  | .unfinished => none

/-- The messages in the log when an outcome came to an end. -/
def Outcome.messages {α : Type} : Outcome α → List Message
  | .done _ journal => journal.log.toList
  | .faulted _ journal => journal.log.toList
  | .unfinished => []

/-- Which streams and which messages of two runs go together. -/
structure Correspondence where
  /-- The streams that go together. -/
  streams : Stream → Stream → Prop
  /-- The messages added by one run and by the other. -/
  messages : List Message → List Message → Prop
  /-- A fault of the first run at which nothing is asked of the second. -/
  pardons : Fault → Prop
  /-- Whether two runs that are both cut short go together. -/
  endless : Prop
  /-- Streams that go together agree on whether anything is left. -/
  isEmpty_eq : ∀ {s s' : Stream}, streams s s' → s.isEmpty = s'.isEmpty
  /-- Streams that go together agree on the next element and go together behind it. -/
  next : ∀ {s s' : Stream}, streams s s' →
    (∃ fault, s.next = .error fault ∧ s'.next = .error fault) ∨
      ∃ element rest rest', s.next = .ok (element, rest) ∧ s'.next = .ok (element, rest') ∧
        streams rest rest'
  /-- Silence goes with silence. -/
  silence : messages [] []
  /-- Messages that go together can be put behind such messages. -/
  append : ∀ {added added' more more' : List Message}, messages added added' →
    messages more more' → messages (added ++ more) (added' ++ more')
  /-- The same is said about streams that go together. -/
  message : ∀ {s s' : Stream}, streams s s' → ∀ severity text,
    messages [⟨severity, s.position, text⟩] [⟨severity, s'.position, text⟩]

/-! Where streams go together when they are the same, the two laws about them are these. -/

theorem Stream.isEmpty_eq_of_eq {s s' : Stream} (h : s = s') : s.isEmpty = s'.isEmpty := by
  rw [h]

theorem Stream.next_of_eq {s s' : Stream} (h : s = s') :
    (∃ fault, s.next = .error fault ∧ s'.next = .error fault) ∨
      ∃ element rest rest', s.next = .ok (element, rest) ∧ s'.next = .ok (element, rest') ∧
        rest = rest' := by
  subst h
  cases hnext : s.next with
  | error fault => exact .inl ⟨fault, rfl, rfl⟩
  | ok step => exact .inr ⟨step.1, step.2, step.2, rfl, rfl, rfl⟩

/-- A run does what another one does, after it has written anything but messages. -/
def Run.Aside {α : Type} (run other : Run α) : Prop :=
  ∀ journal, ∃ start : Journal, start.log = journal.log ∧ run journal = other start

theorem Run.aside_refl {α : Type} (run : Run α) : run.Aside run :=
  fun journal ↦ ⟨journal, rfl, rfl⟩

namespace Correspondence

variable (c : Correspondence) {α β γ δ : Type}

/-- The outcomes of two runs go together, where messages count behind earlier ones. -/
inductive Ends (earlier earlier' : List Message) (accept : α → β → Prop) :
    Outcome α → Outcome β → Prop
  | done {a : α} {b : β} {final final' : Journal} {added added' : List Message}
    (haccept : accept a b) (hmessages : c.messages added added')
    (hlog : final.log.toList = earlier ++ added) (hlog' : final'.log.toList = earlier' ++ added') :
    Ends earlier earlier' accept (.done a final) (.done b final')
  | faulted {fault : Fault} {final final' : Journal} {added added' : List Message}
    (hmessages : c.messages added added') (hlog : final.log.toList = earlier ++ added)
    (hlog' : final'.log.toList = earlier' ++ added') :
    Ends earlier earlier' accept (.faulted fault final) (.faulted fault final')
  | pardoned {fault : Fault} {final : Journal} {outcome : Outcome β}
    (hpardons : c.pardons fault) : Ends earlier earlier' accept (.faulted fault final) outcome
  | endless (hendless : c.endless) : Ends earlier earlier' accept .unfinished .unfinished

/-- Two runs end alike, whatever the logs held before. -/
def Runs (first : Run α) (second : Run β) (accept : α → β → Prop) : Prop :=
  ∀ journal journal', c.Ends journal.log.toList journal'.log.toList accept (first journal)
    (second journal')

/-- Two runs that know a mark behind which messages that go together have been added end alike,
where messages count from the mark. -/
def RunsFrom (first : Nat → Run α) (second : Nat → Run β) (accept : α → β → Prop) : Prop :=
  ∀ earlier earlier' added added' journal journal', c.messages added added' →
    journal.log.toList = earlier ++ added → journal'.log.toList = earlier' ++ added' →
      c.Ends earlier earlier' accept (first earlier.length journal)
        (second earlier'.length journal')

variable {c} {accept : α → β → Prop} {target : γ → δ → Prop}

/-- Messages that came in front are counted too. -/
theorem Ends.behind {earlier earlier' added added' : List Message} {outcome : Outcome α}
    {outcome' : Outcome β} (hadded : c.messages added added')
    (hends : c.Ends (earlier ++ added) (earlier' ++ added') accept outcome outcome') :
    c.Ends earlier earlier' accept outcome outcome' := by
  cases hends with
  | done haccept hmessages hlog hlog' =>
    exact .done haccept (c.append hadded hmessages) (by rw [hlog, List.append_assoc])
      (by rw [hlog', List.append_assoc])
  | faulted hmessages hlog hlog' =>
    exact .faulted (c.append hadded hmessages) (by rw [hlog, List.append_assoc])
      (by rw [hlog', List.append_assoc])
  | pardoned hpardons => exact .pardoned hpardons
  | endless hendless => exact .endless hendless

theorem Ends.mono {weaker : α → β → Prop} {earlier earlier' : List Message} {outcome : Outcome α}
    {outcome' : Outcome β} (hends : c.Ends earlier earlier' accept outcome outcome')
    (hweaker : ∀ a b, accept a b → weaker a b) :
    c.Ends earlier earlier' weaker outcome outcome' := by
  cases hends with
  | done haccept hmessages hlog hlog' => exact .done (hweaker _ _ haccept) hmessages hlog hlog'
  | faulted hmessages hlog hlog' => exact .faulted hmessages hlog hlog'
  | pardoned hpardons => exact .pardoned hpardons
  | endless hendless => exact .endless hendless

theorem Runs.mono {weaker : α → β → Prop} {first : Run α} {second : Run β}
    (h : c.Runs first second accept) (hweaker : ∀ a b, accept a b → weaker a b) :
    c.Runs first second weaker :=
  fun journal journal' ↦ (h journal journal').mono hweaker

/-! ### Outcomes that go together -/

/-- Two runs are both cut short, or raise the same fault, or have results that are accepted. -/
theorem Ends.result?_related {earlier earlier' : List Message} {outcome : Outcome α}
    {outcome' : Outcome β} (hends : c.Ends earlier earlier' accept outcome outcome')
    (hpardons : ∀ fault final, outcome = .faulted fault final → ¬c.pardons fault) :
    (outcome.result? = none ∧ outcome'.result? = none) ∨
      (∃ fault, outcome.result? = some (.error fault) ∧ outcome'.result? = some (.error fault)) ∨
        ∃ a b, outcome.result? = some (.ok a) ∧ outcome'.result? = some (.ok b) ∧ accept a b := by
  cases hends with
  | done haccept _ _ _ => exact .inr (.inr ⟨_, _, rfl, rfl, haccept⟩)
  | faulted _ _ _ => exact .inr (.inl ⟨_, rfl, rfl⟩)
  | pardoned h => exact absurd h (hpardons _ _ rfl)
  | endless _ => exact .inl ⟨rfl, rfl⟩

/-- Where what is accepted is the same on both sides, so is the way in which the runs end. -/
theorem Ends.result?_eq {accept : α → α → Prop} {earlier earlier' : List Message}
    {outcome outcome' : Outcome α} (hends : c.Ends earlier earlier' accept outcome outcome')
    (haccept : ∀ a b, accept a b → a = b)
    (hpardons : ∀ fault final, outcome = .faulted fault final → ¬c.pardons fault) :
    outcome.result? = outcome'.result? := by
  rcases hends.result?_related hpardons with ⟨h, h'⟩ | ⟨fault, h, h'⟩ | ⟨a, b, h, h', hab⟩
  · rw [h, h']
  · rw [h, h']
  · rw [h, h', haccept a b hab]

/-- In a correspondence without runs cut short, runs come to an end. -/
theorem Ends.result?_ne_none {earlier earlier' : List Message} {outcome : Outcome α}
    {outcome' : Outcome β} (hends : c.Ends earlier earlier' accept outcome outcome')
    (hendless : ¬c.endless) : outcome.result? ≠ none := by
  cases hends with
  | endless h => exact absurd h hendless
  | _ => exact Option.some_ne_none _

/-- Both runs are cut short, or what they added goes together. -/
theorem Ends.messages_related {earlier earlier' : List Message} {outcome : Outcome α}
    {outcome' : Outcome β} (hends : c.Ends earlier earlier' accept outcome outcome')
    (hpardons : ∀ fault final, outcome = .faulted fault final → ¬c.pardons fault) :
    (outcome.messages = [] ∧ outcome'.messages = []) ∨
      ∃ added added', c.messages added added' ∧ outcome.messages = earlier ++ added ∧
        outcome'.messages = earlier' ++ added' := by
  cases hends with
  | done _ hmessages hlog hlog' => exact .inr ⟨_, _, hmessages, hlog, hlog'⟩
  | faulted hmessages hlog hlog' => exact .inr ⟨_, _, hmessages, hlog, hlog'⟩
  | pardoned h => exact absurd h (hpardons _ _ rfl)
  | endless _ => exact .inl ⟨rfl, rfl⟩

/-- Where the first run comes to an end, what the two runs added goes together. -/
theorem Ends.messages_of_ended {earlier earlier' : List Message} {outcome : Outcome α}
    {outcome' : Outcome β} (hends : c.Ends earlier earlier' accept outcome outcome')
    (hended : outcome.result? ≠ none)
    (hpardons : ∀ fault final, outcome = .faulted fault final → ¬c.pardons fault) :
    ∃ added added', c.messages added added' ∧ outcome.messages = earlier ++ added ∧
      outcome'.messages = earlier' ++ added' := by
  cases hends with
  | done _ hmessages hlog hlog' => exact ⟨_, _, hmessages, hlog, hlog'⟩
  | faulted hmessages hlog hlog' => exact ⟨_, _, hmessages, hlog, hlog'⟩
  | pardoned h => exact absurd h (hpardons _ _ rfl)
  | endless _ => exact absurd rfl hended

/-! ### Runs that add no message -/

theorem runs_pure {a : α} {b : β} (h : accept a b) : c.Runs (pure a) (pure b) accept :=
  fun _ _ ↦ .done h c.silence (List.append_nil _).symm (List.append_nil _).symm

theorem runs_fault (f : Fault) : c.Runs (Run.fault f : Run α) (Run.fault f : Run β) accept :=
  fun _ _ ↦ .faulted c.silence (List.append_nil _).symm (List.append_nil _).symm

theorem runs_pardoned {f : Fault} (hpardons : c.pardons f) (second : Run β) :
    c.Runs (Run.fault f : Run α) second accept :=
  fun _ _ ↦ .pardoned hpardons

theorem runs_unfinished (hendless : c.endless) :
    c.Runs (Run.unfinished : Run α) (Run.unfinished : Run β) accept :=
  fun _ _ ↦ .endless hendless

theorem runs_ofExcept (outcome : Except Fault α) :
    c.Runs (Run.ofExcept outcome) (Run.ofExcept outcome) Eq := by
  cases outcome with
  | ok a => exact runs_pure rfl
  | error f => exact runs_fault f

/-- Only what calls come to counts, not what they report. -/
theorem runs_ofCall_of_eq {call call' : Call α} (h : call.outcome = call'.outcome) :
    c.Runs (Run.ofCall call) (Run.ofCall call') Eq := by
  intro journal journal'
  simp only [Run.ofCall, h]
  cases call'.outcome with
  | ok a => exact .done rfl c.silence (List.append_nil _).symm (List.append_nil _).symm
  | error f => exact .faulted c.silence (List.append_nil _).symm (List.append_nil _).symm

theorem runs_ofCall (call : Call α) : c.Runs (Run.ofCall call) (Run.ofCall call) Eq :=
  runs_ofCall_of_eq rfl

/-- Two calls return, with results that are accepted. -/
theorem runs_ofCall_of_ok {call : Call α} {call' : Call β} {a : α} {b : β}
    (h : call.outcome = .ok a) (h' : call'.outcome = .ok b) (haccept : accept a b) :
    c.Runs (Run.ofCall call) (Run.ofCall call') accept := by
  intro journal journal'
  simp only [Run.ofCall, h, h']
  exact .done haccept c.silence (List.append_nil _).symm (List.append_nil _).symm

theorem runs_attempt (call : Call α) : c.Runs (Run.attempt call) (Run.attempt call) Eq :=
  fun _ _ ↦ .done rfl c.silence (List.append_nil _).symm (List.append_nil _).symm

/-- Notes and cells of one run need not be those of the other. -/
theorem runs_note (n n' : Note) : c.Runs (Run.note n) (Run.note n') fun _ _ ↦ True :=
  fun _ _ ↦ .done trivial c.silence (List.append_nil _).symm (List.append_nil _).symm

theorem runs_complain {message message' : Message} (h : c.messages [message] [message']) :
    c.Runs (Run.complain message) (Run.complain message') fun _ _ ↦ True :=
  fun _ _ ↦ .done trivial h (Log.toList_add _ _) (Log.toList_add _ _)

/-! ### Runs one after the other -/

/-- Runs that know no mark, behind one. -/
theorem Runs.fromMark {first : Run α} {second : Run β} (h : c.Runs first second accept) :
    c.RunsFrom (fun _ ↦ first) (fun _ ↦ second) accept := by
  intro earlier earlier' added added' journal journal' hadded hlog hlog'
  have hends := h journal journal'
  rw [hlog, hlog'] at hends
  exact hends.behind hadded

/-- Behind a rollback on both sides no messages are left since the mark. -/
theorem runsFrom_rollback : c.RunsFrom Run.rollback Run.rollback fun _ _ ↦ True := by
  intro earlier earlier' added added' journal journal' _ hlog hlog'
  refine .done trivial c.silence ?_ ?_
  · rw [Journal.rollback, Log.toList_rollback, hlog, List.take_left, List.append_nil]
  · rw [Journal.rollback, Log.toList_rollback, hlog', List.take_left, List.append_nil]

theorem RunsFrom.bind {first : Nat → Run α} {second : Nat → Run β} {next : Nat → α → Run γ}
    {next' : Nat → β → Run δ} (h : c.RunsFrom first second accept)
    (hnext : ∀ a b, accept a b → c.RunsFrom (fun mark ↦ next mark a) (fun mark ↦ next' mark b)
      target) :
    c.RunsFrom (fun mark ↦ first mark >>= next mark) (fun mark ↦ second mark >>= next' mark)
      target := by
  intro earlier earlier' added added' journal journal' hadded hlog hlog'
  have hends := h earlier earlier' added added' journal journal' hadded hlog hlog'
  simp only [Run.bind_apply]
  -- What comes next is run only when neither side has ended before.
  revert hends
  generalize first earlier.length journal = outcome
  generalize second earlier'.length journal' = outcome'
  intro hends
  cases hends with
  | done haccept hmessages hlog hlog' =>
    exact hnext _ _ haccept earlier earlier' _ _ _ _ hmessages hlog hlog'
  | faulted hmessages hlog hlog' => exact .faulted hmessages hlog hlog'
  | pardoned hpardons => exact .pardoned hpardons
  | endless hendless => exact .endless hendless

theorem Runs.bind {first : Run α} {second : Run β} {next : α → Run γ} {next' : β → Run δ}
    (h : c.Runs first second accept)
    (hnext : ∀ a b, accept a b → c.Runs (next a) (next' b) target) :
    c.Runs (first >>= next) (second >>= next') target :=
  fun journal journal' ↦ h.fromMark.bind (fun a b hab ↦ (hnext a b hab).fromMark)
    journal.log.toList journal'.log.toList [] [] journal journal' c.silence
    (List.append_nil _).symm (List.append_nil _).symm

/-- Two runs with the same result hand it on to both sides. -/
theorem Runs.bind_same {first second : Run α} {next : α → Run γ} {next' : α → Run δ}
    (h : c.Runs first second Eq) (hnext : ∀ a, c.Runs (next a) (next' a) target) :
    c.Runs (first >>= next) (second >>= next') target := by
  refine h.bind fun a b hab ↦ ?_
  rw [hab]
  exact hnext b

/-- Marks are taken where nothing has been added yet. -/
theorem runs_mark_bind {next : Nat → Run α} {next' : Nat → Run β}
    (h : c.RunsFrom next next' accept) :
    c.Runs (Run.mark >>= next) (Run.mark >>= next') accept :=
  fun journal journal' ↦ h journal.log.toList journal'.log.toList [] [] journal journal' c.silence
    (List.append_nil _).symm (List.append_nil _).symm

theorem runs_foldlM {step : β → α → Run β} (hstep : ∀ b a, c.Runs (step b a) (step b a) Eq)
    (items : List α) :
    ∀ start, c.Runs (items.foldlM step start) (items.foldlM step start) Eq := by
  induction items with
  | nil => exact fun _ ↦ runs_pure rfl
  | cons item rest ih =>
    intro start
    rw [List.foldlM_cons]
    exact (hstep start item).bind_same ih

/-- What the two sides do in front is of no account as far as it adds no messages. -/
theorem Runs.of_asides {first run : Run α} {second run' : Run β} (h : c.Runs first second accept)
    (haside : run.Aside first) (haside' : run'.Aside second) : c.Runs run run' accept := by
  intro journal journal'
  obtain ⟨start, hlog, hrun⟩ := haside journal
  obtain ⟨start', hlog', hrun'⟩ := haside' journal'
  have hends := h start start'
  rwa [hlog, hlog', ← hrun, ← hrun'] at hends

end Correspondence

end DiagnosticParsing
