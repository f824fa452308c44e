import DiagnosticParsing.Memory

/-!
# Runs

A `Run` is a computation that keeps a `Journal`: the log, the notes, and the memory of the cells. It
ends with a result, with a fault, or it is cut short because the bound on its length was used up.
The journal survives a fault, as messages logged before it stay logged.
-/

set_option autoImplicit false

namespace DiagnosticParsing

/-- What a run leaves behind besides its result. -/
structure Journal where
  /-- The messages logged. -/
  log : Log
  /-- What happened. -/
  notes : Array Note
  /-- What the cells hold. -/
  memory : Memory

namespace Journal

/-- The journal in which nothing has been written. -/
def empty : Journal :=
  ⟨.empty, #[], ∅⟩

/-- The journal with one more message. -/
def complain (journal : Journal) (message : Message) : Journal :=
  ⟨journal.log.add message, journal.notes, journal.memory⟩

/-- The journal with its log as it was at a mark. -/
def rollback (journal : Journal) (mark : Nat) : Journal :=
  ⟨journal.log.rollback mark, journal.notes, journal.memory⟩

/-- A rollback to the end of the log changes nothing. -/
theorem rollback_mark (journal : Journal) : journal.rollback journal.log.mark = journal := by
  obtain ⟨⟨messages⟩, notes, memory⟩ := journal
  simp [rollback, Log.rollback, Log.mark]

/-- The journal with one more note. -/
def note (journal : Journal) (note : Note) : Journal :=
  ⟨journal.log, journal.notes.push note, journal.memory⟩

/-- The journal with further notes. -/
def noteAll (journal : Journal) (notes : List Note) : Journal :=
  ⟨journal.log, journal.notes.appendList notes, journal.memory⟩

/-- The journal with another memory. -/
def remember (journal : Journal) (memory : Memory) : Journal :=
  ⟨journal.log, journal.notes, memory⟩

end Journal

/-- How a run ends. -/
inductive Outcome (α : Type) where
  /-- With a result. -/
  | done (result : α) (journal : Journal)
  /-- With a fault. -/
  | faulted (fault : Fault) (journal : Journal)
  /-- Not at all within its bound. -/
  | unfinished

/-- A computation that keeps a journal. -/
def Run (α : Type) : Type :=
  Journal → Outcome α

namespace Run

variable {α β : Type}

/-- The run that has a result at once. -/
@[inline]
protected def pure (a : α) : Run α :=
  fun journal ↦ .done a journal

/-- One run after the other. -/
@[inline]
protected def bind (run : Run α) (next : α → Run β) : Run β :=
  fun journal ↦
    match run journal with
    | .done a journal => next a journal
    | .faulted fault journal => .faulted fault journal
    | .unfinished => .unfinished

instance : Monad Run where
  pure := Run.pure
  bind := Run.bind

/-- The run that raises a fault. -/
@[inline]
def fault (f : Fault) : Run α :=
  fun journal ↦ .faulted f journal

/-- The run that reaches no end. -/
@[inline]
def unfinished : Run α :=
  fun _ ↦ .unfinished

/-- A computation without a journal as a run. -/
@[inline]
def ofExcept (outcome : Except Fault α) : Run α :=
  fun journal ↦
    match outcome with
    | .ok a => .done a journal
    | .error f => .faulted f journal

/-- The call of a user's function as a run. -/
@[inline]
def ofCall (call : Call α) : Run α :=
  fun journal ↦
    match call.outcome with
    | .ok a => .done a (journal.noteAll call.notes)
    | .error f => .faulted f (journal.noteAll call.notes)

/-- The call of a user's function whose faults are an answer too. -/
@[inline]
def attempt (call : Call α) : Run (Except Fault α) :=
  fun journal ↦ .done call.outcome (journal.noteAll call.notes)

/-- The mark of the log as it is now, taken at once so that a run keeps no earlier log alive. -/
@[noinline]
def mark : Run Nat :=
  fun journal ↦ .done journal.log.mark journal

/-- Takes back the messages logged since a mark. -/
@[inline]
def rollback (mark : Nat) : Run Unit :=
  fun journal ↦ .done () (journal.rollback mark)

/-- Logs a message. -/
@[inline]
def complain (message : Message) : Run Unit :=
  fun journal ↦ .done () (journal.complain message)

/-- Leaves a note. -/
@[inline]
def note (note : Note) : Run Unit :=
  fun journal ↦ .done () (journal.note note)

/-- What a cell holds, if it has been built. -/
@[inline]
def fetch (cell : Cell) : Run (Option Built) :=
  fun journal ↦ .done (journal.memory.find? cell) journal

/-- Keeps what a cell holds from now on. -/
@[inline]
def store (cell : Cell) (built : Built) : Run Unit :=
  fun journal ↦ .done () (journal.remember (journal.memory.store cell built))

/-- A stamp that no parser has had before. -/
@[inline]
def stamp : Run Nat :=
  fun journal ↦ .done journal.memory.stamps (journal.remember journal.memory.stamped)

/-- Equal computations on every journal are the same run. -/
@[ext]
theorem ext {first second : Run α} (h : ∀ journal, first journal = second journal) :
    first = second :=
  funext h

theorem bind_assoc {γ : Type} (run : Run α) (next : α → Run β) (last : β → Run γ) :
    (run.bind next).bind last = run.bind fun a ↦ (next a).bind last := by
  ext journal
  simp only [Run.bind]
  cases run journal <;> rfl

theorem bind_pure (run : Run α) : run.bind Run.pure = run := by
  ext journal
  simp only [Run.bind, Run.pure]
  cases run journal <;> rfl

instance : LawfulMonad Run :=
  LawfulMonad.mk' Run (fun run ↦ bind_pure run) (fun _ _ ↦ rfl)
    (fun run next last ↦ bind_assoc run next last)

end Run

/-- What a parser does: from a place to a run that ends with a reply. -/
abbrev Parse :=
  Place → Run Reply

end DiagnosticParsing
