import DiagnosticParsing.Proofs.Compositional
import DiagnosticParsing.Proofs.Execution

/-!
# What the notes of a run tell

An `Account` says which notes a run may leave between the memory with which it starts and the one
that it leaves, with a result and with a fault. An account is *lawful* when it can be drawn up step
by step: notes without meaning for the cells change nothing, and the notes of one run can be put
behind those of another one (`Account.Lawful`). Then it is enough to know what is noted when a cell
is entered (`Account.Covers`): every run of a grammar tells what the account says
(`Account.Covers.tells_exec`).

What cells hold is run in its turn. So an account is drawn up under the condition that the cells
hold allowed parts only, which every run keeps.
-/

set_option autoImplicit false

namespace DiagnosticParsing

/-- What the notes that a run adds tell about the memory before and behind them. -/
structure Account where
  /-- The notes of a run that comes to a result. -/
  completed : Memory → List Note → Memory → Prop
  /-- The notes of a run that raises a fault. -/
  stopped : Fault → Memory → List Note → Memory → Prop

namespace Account

/-- An account that can be drawn up step by step. -/
structure Lawful (ordinary : Note → Prop) (account : Account) : Prop where
  quiet : ∀ (memory : Memory) {notes : List Note}, (∀ note ∈ notes, ordinary note) →
    account.completed memory notes memory
  append : ∀ {memory middle final : Memory} {notes more : List Note},
    account.completed memory notes middle → account.completed middle more final →
      account.completed memory (notes ++ more) final
  append_stopped : ∀ {fault : Fault} {memory middle final : Memory} {notes more : List Note},
    account.completed memory notes middle → account.stopped fault middle more final →
      account.stopped fault memory (notes ++ more) final
  stop : ∀ (fault : Fault) {memory final : Memory} {notes : List Note},
    account.completed memory notes final → account.stopped fault memory notes final

/-- An account covers what making parsers and entering cells do in a world. -/
structure Covers (world : World) (allowed : Grammar → Prop) (account : Account) : Prop where
  stamped : ∀ memory : Memory, account.completed memory [] memory.stamped
  held : ∀ {memory : Memory} {cell : Cell} {built : Built}, memory.find? cell = some built →
    account.completed memory [.entering cell] memory
  refused : ∀ {memory : Memory} {cell : Closure} {label : Nat} {name : String} {fault : Fault},
    cell.grammar.cell? = some (label, name) → cell.Everywhere allowed →
    memory.find? (cell.scope.cell label) = none →
    Operand.deferred (world.callback cell.scope cell.grammar) = .error fault →
    account.stopped fault memory
      [.entering (cell.scope.cell label), .building (cell.scope.cell label) name] memory
  built : ∀ {fuel : Nat} {memory : Memory} {cell : Closure} {label : Nat} {name : String}
    {p : Grammar}, cell.grammar.cell? = some (label, name) → cell.Everywhere allowed →
    memory.find? (cell.scope.cell label) = none →
    Operand.deferred (world.callback cell.scope cell.grammar) = .ok p →
    account.completed memory [.entering (cell.scope.cell label),
      .building (cell.scope.cell label) name, .built (cell.scope.cell label)]
      (world.building fuel memory (cell.scope.cell label) ⟨cell.scope.inside cell.grammar, p⟩)

end Account

variable {α β : Type} {ordinary : Note → Prop} {allowed : Grammar → Prop} {account : Account}

/-- What an outcome adds to the notes of a journal is as an account says, and what the cells hold is
allowed. -/
def Outcome.Tells (allowed : Grammar → Prop) (account : Account) (journal : Journal) :
    Outcome α → Prop
  | .done _ final => final.memory.All (Closure.Everywhere allowed) ∧
    ∃ added, final.notes.toList = journal.notes.toList ++ added ∧
      account.completed journal.memory added final.memory
  | .faulted fault final => final.memory.All (Closure.Everywhere allowed) ∧
    ∃ added, final.notes.toList = journal.notes.toList ++ added ∧
      account.stopped fault journal.memory added final.memory
  | .unfinished => True

/-- As long as what the cells hold is allowed, the notes of the run are as an account says. -/
def Run.Tells (allowed : Grammar → Prop) (account : Account) ⦃α : Type⦄ (run : Run α) : Prop :=
  ∀ journal, journal.memory.All (Closure.Everywhere allowed) →
    (run journal).Tells allowed account journal

/-- The notes of one outcome stand behind those of a run before. -/
theorem Outcome.Tells.behind (hlawful : account.Lawful ordinary) {journal middle : Journal}
    {outcome : Outcome α} {added : List Note}
    (hnotes : middle.notes.toList = journal.notes.toList ++ added)
    (hadded : account.completed journal.memory added middle.memory)
    (houtcome : outcome.Tells allowed account middle) :
    outcome.Tells allowed account journal := by
  cases outcome with
  | done result final =>
    obtain ⟨hmemory, more, hmore, hcompleted⟩ := houtcome
    exact ⟨hmemory, added ++ more, by rw [hmore, hnotes, List.append_assoc],
      hlawful.append hadded hcompleted⟩
  | faulted fault final =>
    obtain ⟨hmemory, more, hmore, hstopped⟩ := houtcome
    exact ⟨hmemory, added ++ more, by rw [hmore, hnotes, List.append_assoc],
      hlawful.append_stopped hadded hstopped⟩
  | unfinished => trivial

namespace Run

theorem notes_noteAll (journal : Journal) (notes : List Note) :
    (journal.noteAll notes).notes.toList = journal.notes.toList ++ notes := by
  simp [Journal.noteAll]

theorem Tells.bind (hlawful : account.Lawful ordinary) {run : Run α} {next : α → Run β}
    (hrun : run.Tells allowed account) (hnext : ∀ a, (next a).Tells allowed account) :
    (run >>= next).Tells allowed account := by
  intro journal hmemory
  have hfirst := hrun journal hmemory
  rw [bind_apply]
  revert hfirst
  rcases run journal with ⟨result, middle⟩ | ⟨fault, final⟩ | _ <;> intro hfirst
  · obtain ⟨hmiddle, added, hnotes, hcompleted⟩ := hfirst
    exact (hnext result middle hmiddle).behind hlawful hnotes hcompleted
  · exact hfirst
  · trivial

/-- A step that leaves ordinary notes and changes nothing that cells hold. -/
theorem tells_step (hlawful : account.Lawful ordinary) (result : Journal → α)
    (step : Journal → Journal) {notes : List Note} (hnotes : ∀ note ∈ notes, ordinary note)
    (hstep : ∀ journal : Journal, (step journal).memory = journal.memory ∧
      (step journal).notes.toList = journal.notes.toList ++ notes) :
    Tells allowed account fun journal ↦ .done (result journal) (step journal) := by
  intro journal hmemory
  obtain ⟨hstored, hadded⟩ := hstep journal
  refine ⟨?_, notes, hadded, ?_⟩
  · rwa [hstored]
  · rw [hstored]
    exact hlawful.quiet _ hnotes

/-- A step that leaves no notes. -/
theorem tells_silent (hlawful : account.Lawful ordinary) (result : Journal → α)
    (step : Journal → Journal)
    (hstep : ∀ journal : Journal, (step journal).memory = journal.memory ∧
      (step journal).notes = journal.notes) :
    Tells allowed account fun journal ↦ .done (result journal) (step journal) := by
  refine tells_step hlawful result step (List.forall_mem_nil _) fun journal ↦ ?_
  obtain ⟨hstored, hsame⟩ := hstep journal
  exact ⟨hstored, by rw [hsame, List.append_nil]⟩

theorem tells_fault (hlawful : account.Lawful ordinary) (f : Fault) :
    (fault f : Run α).Tells allowed account :=
  fun journal hmemory ↦ ⟨hmemory, [], (List.append_nil _).symm,
    hlawful.stop f (hlawful.quiet journal.memory (List.forall_mem_nil _))⟩

theorem tells_attempt (hlawful : account.Lawful ordinary) {call : Call α}
    (hcall : call.ReportsOnly ordinary) : (attempt call).Tells allowed account :=
  tells_step hlawful (fun _ ↦ call.outcome) (·.noteAll call.notes) hcall fun journal ↦
    ⟨rfl, notes_noteAll journal call.notes⟩

theorem tells_ofCall (hlawful : account.Lawful ordinary) {call : Call α}
    (hcall : call.ReportsOnly ordinary) : (ofCall call).Tells allowed account := by
  intro journal hmemory
  have hcompleted := hlawful.quiet journal.memory hcall
  unfold ofCall
  cases call.outcome with
  | ok a => exact ⟨hmemory, call.notes, notes_noteAll journal call.notes, hcompleted⟩
  | error f =>
    exact ⟨hmemory, call.notes, notes_noteAll journal call.notes, hlawful.stop f hcompleted⟩

/-- That runs tell what a lawful account says is a compositional property. -/
theorem tells_compositional (hlawful : account.Lawful ordinary) :
    Compositional ordinary (Tells allowed account) where
  result := fun a ↦ tells_silent hlawful (fun _ ↦ a) id fun _ ↦ ⟨rfl, rfl⟩
  fault := fun f ↦ tells_fault hlawful f
  unfinished := fun _ _ ↦ trivial
  sequence := Tells.bind hlawful
  call := fun _ hcall ↦ tells_ofCall hlawful hcall
  attempt := fun _ hcall ↦ tells_attempt hlawful hcall
  mark := tells_silent hlawful (·.log.mark) id fun _ ↦ ⟨rfl, rfl⟩
  rollback := fun mark ↦ tells_silent hlawful (fun _ ↦ ()) (·.rollback mark) fun _ ↦ ⟨rfl, rfl⟩
  complain := fun message ↦
    tells_silent hlawful (fun _ ↦ ()) (·.complain message) fun _ ↦ ⟨rfl, rfl⟩
  note := fun n hn ↦ tells_step hlawful (fun _ ↦ ()) (·.note n) (List.forall_mem_singleton.mpr hn)
    fun _ ↦ ⟨rfl, Array.toList_push⟩

end Run

namespace Account

variable {world : World}

/-- Entering a cell of allowed parts tells what an account says that covers it. -/
theorem Covers.tells_enters (hcovers : account.Covers world allowed)
    (hclosed : world.Closed (Closure.Everywhere allowed)) {fuel label : Nat} {name : String}
    {cell : Closure} (hlabel : cell.grammar.cell? = some (label, name))
    (hcell : cell.Everywhere allowed) {journal : Journal} {outcome : Outcome (Closure × Nat)}
    (henters : world.Enters fuel cell label name journal outcome)
    (hmemory : journal.memory.All (Closure.Everywhere allowed)) :
    outcome.Tells allowed account journal := by
  have hkeeps {found : Closure × Nat} {final : Journal}
      (h : world.Enters fuel cell label name journal (.done found final)) :=
    (h.keeps hclosed hlabel hcell hmemory).2
  cases henters with
  | held hbuilt hfound =>
    exact ⟨hkeeps (.held hbuilt hfound), _, Array.toList_push, hcovers.held hbuilt⟩
  | refused hunbuilt hraised =>
    exact ⟨hmemory, _, Run.notes_noteAll _ _, hcovers.refused hlabel hcell hunbuilt hraised⟩
  | built hunbuilt hreturned hbuilding =>
    refine ⟨hkeeps (.built hunbuilt hreturned hbuilding), _, Run.notes_noteAll _ _, ?_⟩
    rw [hbuilding]
    exact hcovers.built hlabel hcell hunbuilt hreturned

/-- Making parsers and entering cells keep what an account says. -/
theorem Covers.preserves (hlawful : account.Lawful ordinary)
    (hcovers : account.Covers world allowed)
    (hclosed : world.Closed (Closure.Everywhere allowed)) :
    world.Preserves allowed (Parse.Related (Run.Same (Run.Tells allowed account))) where
  stamp := by
    intro parse hparse place
    refine ⟨rfl, Run.Tells.bind hlawful ?_ fun stamp ↦ (hparse stamp place).2⟩
    exact fun journal hmemory ↦ ⟨hmemory, [], (List.append_nil _).symm, hcovers.stamped _⟩
  cell := by
    intro fuel cell label name found hfound hlabel hcell enter henter place
    refine ⟨rfl, fun journal hmemory ↦ ?_⟩
    have henters := world.enters_of_eq hfound journal
    have htells := hcovers.tells_enters hclosed hlabel hcell henters hmemory
    rw [World.goOn, Run.bind_apply]
    revert henters htells
    rcases found journal with ⟨result, middle⟩ | ⟨fault, final⟩ | _ <;> intro henters htells
    · obtain ⟨hmiddle, added, hnotes, hcompleted⟩ := htells
      have hentry := (henters.keeps hclosed hlabel hcell hmemory).1
      have hgoesOn := (henter result.2 result.1 hentry place).2 middle hmiddle
      exact hgoesOn.behind hlawful hnotes hcompleted
    · exact htells
    · trivial

/-- Every run of a grammar of allowed parts tells what an account says that covers its world.
Assumes: functions report ordinary notes only, and tracing keeps the account. -/
theorem Covers.tells_exec (hlawful : account.Lawful ordinary)
    (hcovers : account.Covers world (Grammar.ReportsOnly ordinary))
    (hworld : world.Everywhere (Grammar.ReportsOnly ordinary))
    (htrace : ∀ name (p : Parse),
      p.Always (Run.Tells (Grammar.ReportsOnly ordinary) account) →
        (Parse.trace name p).Always (Run.Tells (Grammar.ReportsOnly ordinary) account))
    (bound passed : Nat) {closure : Closure}
    (hclosure : closure.Everywhere (Grammar.ReportsOnly ordinary)) :
    (world.exec bound passed closure).Always
      (Run.Tells (Grammar.ReportsOnly ordinary) account) := by
  have hclosed := World.closed_everywhere hworld fun _ ↦ trivial
  exact Run.Compositional.always (((Run.tells_compositional hlawful).hereditary htrace).exec
    hworld.1 (hcovers.preserves hlawful hclosed) bound passed closure hclosure)

/-- The case of a whole run, in which the reply is looked at in the end. -/
theorem Covers.tells_runWithin (hlawful : account.Lawful ordinary)
    (hcovers : account.Covers world (Grammar.ReportsOnly ordinary))
    (hworld : world.Everywhere (Grammar.ReportsOnly ordinary))
    (htrace : ∀ name (p : Parse),
      p.Always (Run.Tells (Grammar.ReportsOnly ordinary) account) →
        (Parse.trace name p).Always (Run.Tells (Grammar.ReportsOnly ordinary) account))
    {p : Grammar} (hp : p.Everywhere (Grammar.ReportsOnly ordinary)) (bound : Nat) (place : Place) :
    (p.runWithin world bound place).Tells (Grammar.ReportsOnly ordinary) account := by
  have hclosure : Closure.Everywhere (Grammar.ReportsOnly ordinary) ⟨.top, p⟩ := ⟨trivial, hp⟩
  have hexec := hcovers.tells_exec hlawful hworld htrace bound 0 hclosure
  refine (hexec place).bind hlawful fun reply ↦ ?_
  cases reply.checked with
  | ok reply => exact (Run.tells_compositional hlawful).result reply
  | error fault => exact (Run.tells_compositional hlawful).fault fault

end Account

end DiagnosticParsing
