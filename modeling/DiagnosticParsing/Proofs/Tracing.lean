import DiagnosticParsing.Grammar.Construction
import DiagnosticParsing.Grammar.Observers
import DiagnosticParsing.Proofs.Accounts
import DiagnosticParsing.Proofs.Ensures
import DiagnosticParsing.Proofs.LogFrame
import Mathlib.Logic.ExistsUnique

/-!
# Traces are well nested

Every `trace` leaves a note when it is entered and another one when it is left, and between the two
may lie any run at all: attempts that are abandoned, repetitions, cells that get built.
`Note.follow` reads the notes of a run with a stack of the traces that are open. A note of success
has to bear the name of the innermost one, and a note of failure its name and the position at which
it was entered.

The notes of a run that comes to a result are `Nested`: read from any stack, they lead back to the
same stack. Each trace entered in such notes is left by exactly one later note
(`Nested.existsUnique_leaving`). Notes other than those of traces can be dropped from the notes read
(`Nested.filter`), as they move the stack nowhere. The notes of a run that raises a fault `OnlyOpen`
traces: none is closed that was not opened.

That runs leave notes of these two kinds is an account of their notes (`Account.nesting`), which
tracing keeps (`tells_trace`). It is asked of the functions in a grammar that they report no notes
of traces, and the ones that the library supplies do not (`Function.reportsOnly_call`,
`Grammar.untraced_recordEvent`, `Grammar.untraced_recordDebug`, `Chooser.untraced_check`). The
conclusion is `Grammar.traces_nested`, and `Grammar.traces_open_at_fault` is its companion for runs
that raise. No rollback of the log takes back a note: the notes of a run are the same whatever is in
the log, and those of an alternative that is given up stay in front of those of the other one.
-/

set_option autoImplicit false

namespace DiagnosticParsing

/-! ### Reading notes with a stack -/

/-- A trace that has been entered and not left. -/
structure OpenTrace where
  /-- The name of the trace. -/
  name : String
  /-- The position at which it was entered. -/
  start : Position
  deriving DecidableEq

namespace Note

/-- Whether a note is one of a trace. -/
def isTrace : Note → Bool
  | entered _ _ _ | matched _ _ _ | backtracked _ _ => true
  | _ => false

/-- A note that no trace leaves. -/
def Untraced (note : Note) : Prop :=
  note.isTrace = false

/-- The open traces behind a note, innermost first. There are none when the note leaves another
trace than the innermost one. -/
def follow (pending : List OpenTrace) : Note → Option (List OpenTrace)
  | entered name start _ => some (⟨name, start⟩ :: pending)
  | matched name _ _ =>
    match pending with
    | innermost :: outer => if innermost.name = name then some outer else none
    | [] => none
  | backtracked name start =>
    match pending with
    | innermost :: outer => if innermost = ⟨name, start⟩ then some outer else none
    | [] => none
  | _ => some pending

/-- A note that no trace leaves changes nothing about which traces are open. -/
theorem follow_untraced {note : Note} (hnote : note.Untraced) (pending : List OpenTrace) :
    follow pending note = some pending := by
  unfold follow
  split
  · exact nomatch (hnote : true = false)
  · exact nomatch (hnote : true = false)
  · exact nomatch (hnote : true = false)
  · rfl

/-- A note leaves a trace: a success bears its name, and a failure also the position at which it was
entered. -/
inductive Leaves : OpenTrace → Note → Prop
  | matched (name : String) (start : Position) (value : Value) (finish : Position) :
    Leaves ⟨name, start⟩ (matched name value finish)
  | backtracked (name : String) (start : Position) :
    Leaves ⟨name, start⟩ (backtracked name start)

/-- The note of leaving the innermost trace opens the view on the ones around it. -/
theorem Leaves.follow_eq {opened : OpenTrace} {note : Note} (h : note.Leaves opened)
    (outer : List OpenTrace) : follow (opened :: outer) note = some outer := by
  cases h with
  | matched name start value finish => exact if_pos rfl
  | backtracked name start => exact if_pos rfl

/-- Where no trace is open none can be left. -/
theorem Leaves.follow_nil {opened : OpenTrace} {note : Note} (h : note.Leaves opened) :
    follow [] note = none := by
  cases h with
  | matched name start value finish => rfl
  | backtracked name start => rfl

/-- A note is read in one of three ways: it leaves the stack as it is, it puts a trace on it, or it
takes away the one on top, which it leaves. -/
theorem follow_cases (note : Note) :
    (∀ pending, follow pending note = some pending) ∨
      (∃ opened, ∀ pending, follow pending note = some (opened :: pending)) ∨
        ∀ pending next, follow pending note = some next →
          ∃ innermost, pending = innermost :: next ∧ note.Leaves innermost := by
  cases note with
  | entered name start rest => exact .inr (.inl ⟨⟨name, start⟩, fun _ ↦ rfl⟩)
  | matched name value finish =>
    refine .inr (.inr fun pending next hnext ↦ ?_)
    rcases pending with _ | ⟨innermost, outer⟩
    · exact nomatch hnext
    · by_cases hname : innermost.name = name
      · rw [follow, if_pos hname, Option.some.injEq] at hnext
        subst hname hnext
        exact ⟨innermost, rfl, .matched innermost.name innermost.start value finish⟩
      · rw [follow, if_neg hname] at hnext
        exact nomatch hnext
  | backtracked name start =>
    refine .inr (.inr fun pending next hnext ↦ ?_)
    rcases pending with _ | ⟨innermost, outer⟩
    · exact nomatch hnext
    · by_cases hsame : innermost = ⟨name, start⟩
      · rw [follow, if_pos hsame, Option.some.injEq] at hnext
        subst hsame hnext
        exact ⟨⟨name, start⟩, rfl, .backtracked name start⟩
      · rw [follow, if_neg hsame] at hnext
        exact nomatch hnext
  | _ => exact .inl fun _ ↦ rfl

end Note

/-- Whatever traces are open, the same ones are open behind the notes. -/
def Nested (notes : List Note) : Prop :=
  ∀ pending, notes.foldlM Note.follow pending = some pending

/-- Whatever traces are open, they and perhaps further ones are open behind the notes. -/
def OnlyOpen (notes : List Note) : Prop :=
  ∀ pending, ∃ opened, notes.foldlM Note.follow pending = some (opened ++ pending)

theorem nested_nil : Nested [] :=
  fun _ ↦ rfl

theorem Nested.append {notes more : List Note} (hnotes : Nested notes) (hmore : Nested more) :
    Nested (notes ++ more) := by
  intro pending
  rw [List.foldlM_append, hnotes pending]
  exact hmore pending

theorem Nested.append_onlyOpen {notes more : List Note} (hnotes : Nested notes)
    (hmore : OnlyOpen more) : OnlyOpen (notes ++ more) := by
  intro pending
  rw [List.foldlM_append, hnotes pending]
  exact hmore pending

theorem Nested.onlyOpen {notes : List Note} (hnotes : Nested notes) : OnlyOpen notes :=
  fun pending ↦ ⟨[], hnotes pending⟩

/-- Notes that no trace leaves are nested. -/
theorem nested_of_untraced {notes : List Note} (hnotes : ∀ note ∈ notes, note.Untraced) :
    Nested notes := by
  induction notes with
  | nil => exact nested_nil
  | cons note rest ih =>
    obtain ⟨hnote, hrest⟩ := List.forall_mem_cons.mp hnotes
    intro pending
    rw [List.foldlM_cons, Note.follow_untraced hnote]
    exact ih hrest pending

/-- The notes of a trace that is left: the one of entering it, those of what it ran, and the one of
leaving it. -/
theorem Nested.enclosed {notes : List Note} (hnotes : Nested notes) {name : String}
    {start : Position} {leaving : Note}
    (hleaving : leaving.Leaves ⟨name, start⟩) (rest : String) :
    Nested (.entered name start rest :: (notes ++ [leaving])) := by
  intro pending
  have hinside : (notes ++ [leaving]).foldlM Note.follow (⟨name, start⟩ :: pending) =
      some pending := by
    rw [List.foldlM_append, hnotes]
    show [leaving].foldlM Note.follow (⟨name, start⟩ :: pending) = some pending
    rw [List.foldlM_cons, hleaving.follow_eq]
    rfl
  exact hinside

/-- The notes of a trace that is not left. -/
theorem OnlyOpen.entered {notes : List Note} (hnotes : OnlyOpen notes) (name : String)
    (start : Position) (rest : String) : OnlyOpen (.entered name start rest :: notes) := by
  intro pending
  obtain ⟨opened, hopened⟩ := hnotes (⟨name, start⟩ :: pending)
  refine ⟨opened ++ [⟨name, start⟩], ?_⟩
  have hread : (Note.entered name start rest :: notes).foldlM Note.follow pending =
      some (opened ++ ⟨name, start⟩ :: pending) := hopened
  rw [hread, List.append_assoc, List.singleton_append]

/-- Notes that no trace leaves need not be read. -/
theorem foldlM_follow_filter {keep : Note → Bool} (hkeep : ∀ note, note.isTrace → keep note)
    (notes : List Note) :
    ∀ pending, (notes.filter keep).foldlM Note.follow pending =
      notes.foldlM Note.follow pending := by
  induction notes with
  | nil => exact fun _ ↦ rfl
  | cons note rest ih =>
    intro pending
    by_cases hkept : keep note = true
    · rw [List.filter_cons_of_pos hkept, List.foldlM_cons, List.foldlM_cons]
      exact bind_congr ih
    · have huntraced : note.Untraced := Bool.eq_false_iff.mpr fun htrace ↦ hkept (hkeep note htrace)
      rw [List.filter_cons_of_neg hkept, ih, List.foldlM_cons, Note.follow_untraced huntraced]
      rfl

/-- Nested notes stay nested when notes that no trace leaves are dropped. -/
theorem Nested.filter {notes : List Note} (hnotes : Nested notes) {keep : Note → Bool}
    (hkeep : ∀ note, note.isTrace → keep note) : Nested (notes.filter keep) := by
  intro pending
  rw [foldlM_follow_filter hkeep, hnotes pending]

/-! ### The note that leaves a trace -/

/-- Notes behind which a trace is no longer open have left it, and have opened and left none but
further traces before. -/
theorem exists_leaving (notes : List Note) :
    ∀ (opened : List OpenTrace) (innermost : OpenTrace) (outer final : List OpenTrace),
      notes.foldlM Note.follow (opened ++ innermost :: outer) = some final →
        final.length ≤ outer.length →
          ∃ inside leaving behind, notes = inside ++ leaving :: behind ∧
            leaving.Leaves innermost ∧
              ∀ pending, inside.foldlM Note.follow (opened ++ pending) = some pending := by
  induction notes with
  | nil =>
    intro opened innermost outer final hfinal hlength
    rw [← Option.some.inj hfinal, List.length_append, List.length_cons] at hlength
    omega
  | cons note rest ih =>
    intro opened innermost outer final hfinal hlength
    rw [List.foldlM_cons] at hfinal
    rcases note.follow_cases with hstay | ⟨entered, hentered⟩ | hleft
    · rw [hstay] at hfinal
      obtain ⟨inside, leaving, behind, hsplit, hleaving, hinside⟩ :=
        ih opened innermost outer final hfinal hlength
      refine ⟨note :: inside, leaving, behind, by rw [hsplit, List.cons_append], hleaving, ?_⟩
      intro pending
      rw [List.foldlM_cons, hstay]
      exact hinside pending
    · rw [hentered] at hfinal
      obtain ⟨inside, leaving, behind, hsplit, hleaving, hinside⟩ :=
        ih (entered :: opened) innermost outer final hfinal hlength
      refine ⟨note :: inside, leaving, behind, by rw [hsplit, List.cons_append], hleaving, ?_⟩
      intro pending
      rw [List.foldlM_cons, hentered]
      exact hinside pending
    · obtain ⟨next, hnext, hrest⟩ := Option.bind_eq_some_iff.mp hfinal
      obtain ⟨top, htop, hleaving⟩ := hleft _ _ hnext
      rcases opened with _ | ⟨last, opened⟩
      · obtain ⟨rfl, rfl⟩ := List.cons.inj htop
        exact ⟨[], note, rest, rfl, hleaving, fun _ ↦ rfl⟩
      · obtain ⟨rfl, rfl⟩ := List.cons.inj htop
        obtain ⟨inside, leaving, behind, hsplit, hleft, hinside⟩ :=
          ih opened innermost outer final hrest hlength
        refine ⟨note :: inside, leaving, behind, by rw [hsplit, List.cons_append], hleft, ?_⟩
        intro pending
        rw [List.foldlM_cons, List.cons_append, hleaving.follow_eq]
        exact hinside pending

/-- Between entering a trace and leaving it no note leaves a trace that was open before. -/
theorem Nested.eq_of_leaving {inside inside' behind behind' : List Note} {leaving leaving' : Note}
    {opened : OpenTrace} (hinside : Nested inside) (hinside' : Nested inside')
    (hleaving : leaving.Leaves opened)
    (hsplit : inside ++ leaving :: behind = inside' ++ leaving' :: behind')
    (hlength : inside.length ≤ inside'.length) : inside' = inside := by
  have hprefix : inside' <+: inside ++ leaving :: behind := by
    rw [hsplit]
    exact List.prefix_append _ _
  obtain ⟨more, hmore⟩ :=
    List.prefix_of_prefix_length_le (List.prefix_append _ _) hprefix hlength
  rcases more with _ | ⟨note, more⟩
  · rw [← hmore, List.append_nil]
  · rw [← hmore, List.append_assoc, List.append_cancel_left_eq, List.cons_append] at hsplit
    have hread := hinside' []
    rw [← hmore, List.foldlM_append, hinside []] at hread
    have hnone : (note :: more).foldlM Note.follow [] = none := by
      rw [List.foldlM_cons, ← (List.cons.inj hsplit).1, hleaving.follow_nil]
      rfl
    exact nomatch hnone.symm.trans hread

/-- A trace entered in nested notes is left by exactly one later note. What lies between the two is
nested again, so the trace was the innermost one that was open. -/
theorem Nested.existsUnique_leaving {notes before after : List Note} (hnotes : Nested notes)
    {name : String} {start : Position} {rest : String}
    (hsplit : notes = before ++ .entered name start rest :: after) :
    ∃! inside, ∃ leaving behind, after = inside ++ leaving :: behind ∧
      leaving.Leaves ⟨name, start⟩ ∧ Nested inside := by
  have hread := hnotes []
  rw [hsplit, List.foldlM_append] at hread
  obtain ⟨outer, _, hafter⟩ := Option.bind_eq_some_iff.mp hread
  obtain ⟨inside, leaving, behind, hbehind, hleaving, hinside⟩ :=
    exists_leaving after [] ⟨name, start⟩ outer [] hafter (Nat.zero_le _)
  refine ⟨inside, ⟨leaving, behind, hbehind, hleaving, hinside⟩, ?_⟩
  rintro inside' ⟨leaving', behind', hbehind', hleaving', hinside'⟩
  have hsame := hbehind.symm.trans hbehind'
  rcases Nat.le_total inside.length inside'.length with hlength | hlength
  · exact Nested.eq_of_leaving hinside hinside' hleaving hsame hlength
  · exact (Nested.eq_of_leaving hinside' hinside hleaving' hsame.symm hlength).symm

/-! ### The notes of a run -/

/-- The account of runs that leave nested notes with a result, and notes that only open traces with
a fault. -/
def Account.nesting : Account where
  completed _ added _ := Nested added
  stopped _ _ added _ := OnlyOpen added

theorem Account.nesting_lawful : nesting.Lawful Note.Untraced where
  quiet := fun _ _ hnotes ↦ nested_of_untraced hnotes
  append := fun hnotes hmore ↦ hnotes.append hmore
  append_stopped := fun hnotes hmore ↦ hnotes.append_onlyOpen hmore
  stop := fun _ _ _ _ hnotes ↦ hnotes.onlyOpen

/-- Cells leave no notes of traces. -/
theorem Account.nesting_covers (world : World) (allowed : Grammar → Prop) :
    nesting.Covers world allowed where
  stamped := fun _ ↦ nested_nil
  held := fun _ ↦ nested_of_untraced (by simp [Note.Untraced, Note.isTrace])
  refused := fun _ _ _ _ ↦ (nested_of_untraced (by simp [Note.Untraced, Note.isTrace])).onlyOpen
  built := fun _ _ _ _ ↦ nested_of_untraced (by simp [Note.Untraced, Note.isTrace])

namespace Run

variable {α β : Type} {allowed : Grammar → Prop}

/-- Unless it raises before, a run leaves one note, and with it a trace. It touches no cell. -/
def Closes (name : String) (start : Position) (run : Run α) : Prop :=
  ∀ journal,
    match run journal with
    | .done _ final => final.memory = journal.memory ∧
        ∃ leaving, final.notes.toList = journal.notes.toList ++ [leaving] ∧
          leaving.Leaves ⟨name, start⟩
    | .faulted _ final => final.memory = journal.memory ∧ final.notes = journal.notes
    | .unfinished => True

theorem closes_note_bind {name : String} {start : Position} {leaving : Note} (a : α)
    (hleaving : leaving.Leaves ⟨name, start⟩) :
    Closes name start (note leaving >>= fun _ ↦ (pure a : Run α)) :=
  fun _ ↦ ⟨rfl, leaving, Array.toList_push, hleaving⟩

theorem closes_ofExcept_bind {name : String} {start : Position} (part : Except Fault α)
    {next : α → Run β} (hnext : ∀ a, Closes name start (next a)) :
    Closes name start (ofExcept part >>= next) := by
  intro journal
  rcases part with f | a
  · exact ⟨rfl, rfl⟩
  · exact hnext a journal

/-- A run with nested notes is entered and left. -/
theorem tells_enclosed {run : Run α} {next : α → Run β} {name : String} {start : Position}
    (hrun : run.Tells allowed .nesting) (hnext : ∀ a, Closes name start (next a)) (rest : String) :
    Tells allowed .nesting (note (.entered name start rest) >>= fun _ ↦ run >>= next) := by
  intro journal hmemory
  have hentered : (journal.note (.entered name start rest)).notes.toList =
      journal.notes.toList ++ [.entered name start rest] := Array.toList_push
  have hinside := hrun (journal.note (.entered name start rest)) hmemory
  show ((run >>= next) (journal.note (.entered name start rest))).Tells allowed .nesting journal
  rw [bind_apply]
  revert hinside
  rcases run (journal.note (.entered name start rest)) with ⟨result, middle⟩ | ⟨fault, final⟩ | _
    <;> intro hinside
  · obtain ⟨hmiddle, added, hadded, hnested⟩ := hinside
    have hleft := hnext result middle
    show (next result middle).Tells allowed .nesting journal
    revert hleft
    rcases next result middle with ⟨last, final⟩ | ⟨fault, final⟩ | _ <;> intro hleft
    · obtain ⟨hfinal, leaving, hlast, hleaving⟩ := hleft
      refine ⟨by rwa [hfinal], _, ?_, hnested.enclosed hleaving rest⟩
      rw [hlast, hadded, hentered, List.append_assoc, List.append_assoc]
      rfl
    · obtain ⟨hfinal, hlast⟩ := hleft
      refine ⟨by rwa [hfinal], _, ?_, hnested.onlyOpen.entered name start rest⟩
      rw [hlast, hadded, hentered, List.append_assoc]
      rfl
    · trivial
  · obtain ⟨hfinal, added, hadded, hopen⟩ := hinside
    refine ⟨hfinal, _, ?_, hopen.entered name start rest⟩
    rw [hadded, hentered, List.append_assoc]
    rfl
  · trivial

end Run

/-- Tracing a parser whose runs leave nested notes makes one of the same kind. -/
theorem tells_trace {allowed : Grammar → Prop} (name : String) (p : Parse)
    (hp : p.Always (Run.Tells allowed .nesting)) :
    (Parse.trace name p).Always (Run.Tells allowed .nesting) := by
  have compositional : Run.Compositional Note.Untraced (Run.Tells allowed .nesting) :=
    Run.tells_compositional Account.nesting_lawful
  intro place
  refine compositional.ofExcept_bind place.position fun start ↦ ?_
  refine compositional.ofExcept_bind place.preview fun rest ↦ ?_
  refine Run.tells_enclosed (hp place) (fun reply ↦ ?_) rest
  have hleft : Run.Closes name start (do
      let value ← Run.ofExcept reply.second
      let rest ← Run.ofExcept reply.first
      Run.note (.matched name value (← Run.ofExcept rest.position))
      return reply) := by
    refine Run.closes_ofExcept_bind reply.second fun value ↦ ?_
    refine Run.closes_ofExcept_bind reply.first fun rest ↦ ?_
    refine Run.closes_ofExcept_bind rest.position fun finish ↦ ?_
    exact Run.closes_note_bind reply (.matched name start value finish)
  rcases reply with _ | ⟨rest, value⟩ | v
  · exact Run.closes_note_bind Reply.failure (.backtracked name start)
  · exact hleft
  · exact hleft

/-! ### What the functions of the library report -/

/-- Leaving an event with what was seen. -/
theorem Grammar.untraced_recordEvent (id : Value) (place : Place) (reply : Reply) :
    (recordEvent id place reply).ReportsOnly Note.Untraced := by
  have hfault : ∀ fault : Fault, (Call.fault fault : Call Unit).ReportsOnly Note.Untraced :=
    fun fault ↦ Call.reportsOnly_of_nil _ rfl
  have hevent : ∀ start finish,
      (Call.reporting (.observed id start finish) (Call.pure ())).ReportsOnly Note.Untraced :=
    fun start finish ↦ (Call.reportsOnly_of_nil _ rfl).reporting rfl
  unfold recordEvent
  split
  · exact hfault _
  · split
    · exact hevent _ _
    · split
      · exact hevent _ _
      · exact hfault _
      · exact hfault _

/-- Leaving a debug record of what was seen. -/
theorem Grammar.untraced_recordDebug (place : Place) (reply : Reply) :
    (recordDebug place reply).ReportsOnly Note.Untraced := by
  have hnothing : (Call.pure ()).ReportsOnly Note.Untraced := Call.reportsOnly_of_nil _ rfl
  have hfault : ∀ fault : Fault, (Call.fault fault : Call Unit).ReportsOnly Note.Untraced :=
    fun fault ↦ Call.reportsOnly_of_nil _ rfl
  rcases reply with _ | ⟨rest, value⟩ | v
  · rcases place with ⟨slot, stream⟩ | v
    · exact hnothing.reporting rfl
    · exact hfault _
  · rcases place with ⟨slot, stream⟩ | v
    · rcases rest with ⟨slot, rest⟩ | v
      · exact hnothing.reporting rfl
      · exact hfault _
    · exact hfault _
  · -- What was answered instead of a reply has no rest that could be shown.
    simp only [recordDebug, Reply.second, Reply.first]
    rcases v.at? 1 with fault | value
    · exact hfault _
    · rcases place with ⟨slot, stream⟩ | v'
      · rcases v.at? 0 with fault | rest
        · exact hfault _
        · exact hfault _
      · exact hfault _

/-- Choosing the next parser. -/
theorem Chooser.untraced_check (chooser : Chooser) (x : Value) :
    (chooser.check x).ReportsOnly Note.Untraced := by
  have hchoose : (chooser.choose x).ReportsOnly Note.Untraced := by
    induction chooser with
    | reporting id chooser ih => exact ih.reporting rfl
    | cases table otherwise =>
      refine Call.reportsOnly_of_nil _ ?_
      unfold choose
      split <;> rfl
    | _ => exact Call.reportsOnly_of_nil _ rfl
  exact hchoose.bind fun chosen ↦ Call.reportsOnly_of_nil _ rfl

/-! ### Grammars -/

namespace Grammar

variable {world : World} {p : Grammar} {bound : Nat} {place : Place} {reply : Reply}
  {journal final : Journal}

/-- The runs of a grammar leave nested notes. Assumes: functions that report no traces, in the
grammar and in whatever callbacks return. -/
theorem nests_runWithin (hworld : world.Everywhere (ReportsOnly Note.Untraced))
    (hp : p.Everywhere (ReportsOnly Note.Untraced)) (bound : Nat) (place : Place) :
    (p.runWithin world bound place).Tells (ReportsOnly Note.Untraced) .nesting :=
  (Account.nesting_covers world _).tells_runWithin Account.nesting_lawful hworld tells_trace hp
    bound place

/-- A run that ends in failure has done so before the reply was looked at. -/
theorem exec_of_runWithin_failed
    (hfailed : p.runWithin world bound place journal = .done .failure final) :
    world.exec bound 0 ⟨.top, p⟩ place journal = .done .failure final := by
  rw [runWithin, Run.bind_apply] at hfailed
  revert hfailed
  rcases world.exec bound 0 ⟨.top, p⟩ place journal with ⟨_ | _ | _, middle⟩ | _ | _ <;>
    intro hfailed
  · exact hfailed
  all_goals exact nomatch hfailed

/-- An alternative that is given up is run as if it stood alone. What it has logged is taken back,
and the other one starts with the notes and the cells that it has left. -/
theorem runWithin_either_of_failed {q : Grammar}
    (hfailed : p.runWithin world bound place journal = .done .failure final) :
    (either p q).runWithin world bound place journal =
      q.runWithin world bound place (final.rollback journal.log.mark) := by
  have hfirst := exec_of_runWithin_failed hfailed
  cases bound with
  | zero => exact nomatch hfirst
  | succ bound =>
    have heither : world.exec (bound + 1) 0 ⟨.top, either p q⟩ place journal =
        world.exec (bound + 1) 0 ⟨.top, q⟩ place (final.rollback journal.log.mark) := by
      show Parse.either (world.exec (bound + 1) 0 ⟨.top, p⟩)
        (world.exec (bound + 1) 0 ⟨.top, q⟩) place journal = _
      simp only [Parse.either, Run.bind_apply, Run.mark, hfirst, Run.rollback]
    rw [runWithin, runWithin, Run.bind_apply, Run.bind_apply, heither]

/-- The traces of a run that comes to a result are well nested, whatever else stands between their
notes. Each trace that is entered is left by exactly one later note, of the same name and in failure
of the same position, and between the two everything is nested again. The notes do not depend on the
log, and no rollback takes them back. Assumes: functions that report no traces, in the grammar, in
whatever callbacks return, and in what the cells hold. -/
theorem traces_nested (hworld : world.Everywhere (ReportsOnly Note.Untraced))
    (hp : p.Everywhere (ReportsOnly Note.Untraced))
    (hmemory : journal.memory.All (Closure.Everywhere (ReportsOnly Note.Untraced)))
    (hrun : p.runWithin world bound place journal = .done reply final) :
    (∃ added, final.notes.toList = journal.notes.toList ++ added ∧
      ∀ keep : Note → Bool, (∀ note, note.isTrace → keep note) →
        Nested (added.filter keep) ∧
          ∀ before name start rest after,
            added.filter keep = before ++ .entered name start rest :: after →
              ∃! inside, ∃ leaving behind, after = inside ++ leaving :: behind ∧
                leaving.Leaves ⟨name, start⟩ ∧ Nested inside) ∧
      (∀ log, ∃ final', p.runWithin world bound place ⟨log, journal.notes, journal.memory⟩ =
        .done reply final' ∧ final'.notes = final.notes) ∧
      ∀ q : Grammar, reply = .failure → q.Everywhere (ReportsOnly Note.Untraced) →
        ∀ reply' final', (either p q).runWithin world bound place journal = .done reply' final' →
          ∃ added, final'.notes.toList = final.notes.toList ++ added ∧ Nested added := by
  have hnests := nests_runWithin hworld hp bound place journal hmemory
  rw [hrun] at hnests
  obtain ⟨hfinal, added, hadded, hnested⟩ := hnests
  refine ⟨⟨added, hadded, fun keep hkeep ↦ ?_⟩, fun log ↦ ?_, fun q hreply hq reply' final' ↦ ?_⟩
  · have hkept : Nested (added.filter keep) := hnested.filter hkeep
    exact ⟨hkept, fun _ _ _ _ _ hsplit ↦ hkept.existsUnique_leaving hsplit⟩
  · -- Either log stands in front of what is logged when the log is empty.
    have hframed (earlier : Log) :
        p.runWithin world bound place ⟨earlier, journal.notes, journal.memory⟩ =
          (p.runWithin world bound place
            ⟨.empty, journal.notes, journal.memory⟩).after earlier := by
      rw [← framed_runWithin world bound p place, Journal.after, Log.append_empty]
    obtain ⟨final', hempty, rfl⟩ := Outcome.after_eq_done ((hframed journal.log).symm.trans hrun)
    refine ⟨final'.after log, ?_, rfl⟩
    rw [hframed log, hempty]
    rfl
  · subst hreply
    rw [runWithin_either_of_failed hrun]
    intro heither
    have hsecond := nests_runWithin hworld hq bound place (final.rollback journal.log.mark) hfinal
    rw [heither] at hsecond
    exact hsecond.2

/-- A run that raises a fault may leave traces open, but leaves none that it has not entered.
Assumes: functions that report no traces. -/
theorem traces_open_at_fault (hworld : world.Everywhere (ReportsOnly Note.Untraced))
    (hp : p.Everywhere (ReportsOnly Note.Untraced))
    (hmemory : journal.memory.All (Closure.Everywhere (ReportsOnly Note.Untraced))) {fault : Fault}
    (hrun : p.runWithin world bound place journal = .faulted fault final) :
    ∃ added, final.notes.toList = journal.notes.toList ++ added ∧ OnlyOpen added := by
  have hnests := nests_runWithin hworld hp bound place journal hmemory
  rw [hrun] at hnests
  exact hnests.2

/-- Sums of ones, written as ones with zeros between them. Operators, operands and what must not
follow an operand are traced. -/
def tracedSum : Grammar :=
  expression
    [[⟨.leftward, trace "plus" (map (char (.int 0)) (Function.const (.operation .add)).call)⟩]]
    (trace "operand" (left (either (trace "two" (char (.int 2))) (trace "one" (char (.int 1))))
      (notFollowedBy (trace "again" (char (.int 1))))))

theorem untraced_tracedSum : tracedSum.Everywhere (ReportsOnly Note.Untraced) := by
  have htwo : (trace "two" (char (.int 2))).Everywhere (ReportsOnly Note.Untraced) :=
    ⟨trivial, trivial⟩
  have hone : ∀ name, (trace name (char (.int 1))).Everywhere (ReportsOnly Note.Untraced) :=
    fun _ ↦ ⟨trivial, trivial⟩
  refine everywhere_expression (allowsLevels_reportsOnly Note.Untraced)
    ⟨trivial, trivial, ⟨trivial, htwo, hone "one"⟩, trivial, hone "again"⟩ ?_
  intro operators hoperators operator hoperator
  rw [List.mem_singleton.mp hoperators] at hoperator
  rw [List.mem_singleton.mp hoperator]
  exact ⟨trivial, Function.reportsOnly_call (fun _ _ ↦ rfl) _, trivial⟩

/-- A sum whose second operand is followed by what must not follow it. The operator and the second
operand have been traced, and given up. -/
theorem traces_nested_tracedSum :
    ∃ final : Journal,
      tracedSum.runWithin Definitions.none.world 3
        (.stream none (.start (.tokens (.list #[.int 1, .int 0, .int 1, .int 1]) .row)))
        Journal.empty = .done (.success (.fresh
          ⟨.tokens (.list #[.int 1, .int 0, .int 1, .int 1]) .row, 1, ⟨1, 0⟩⟩) (.int 1)) final ∧
      ∃ added, final.notes.toList = Journal.empty.notes.toList ++ added ∧
        ∀ keep : Note → Bool, (∀ note, note.isTrace → keep note) →
          Nested (added.filter keep) ∧
            ∀ before name start rest after,
              added.filter keep = before ++ .entered name start rest :: after →
                ∃! inside, ∃ leaving behind, after = inside ++ leaving :: behind ∧
                  leaving.Leaves ⟨name, start⟩ ∧ Nested inside := by
  have hrun : ∃ final, tracedSum.runWithin Definitions.none.world 3
      (.stream none (.start (.tokens (.list #[.int 1, .int 0, .int 1, .int 1]) .row)))
      Journal.empty = .done (.success (.fresh
        ⟨.tokens (.list #[.int 1, .int 0, .int 1, .int 1]) .row, 1, ⟨1, 0⟩⟩) (.int 1)) final :=
    ⟨_, rfl⟩
  obtain ⟨final, hrun⟩ := hrun
  have hworld := Definitions.everywhere_world (Definitions.everywhere_none
    (ReportsOnly Note.Untraced))
  exact ⟨final, hrun, (traces_nested hworld untraced_tracedSum Memory.all_empty hrun).1⟩

end Grammar

end DiagnosticParsing
