import DiagnosticParsing.Proofs.Accounts

/-!
# What notes tell about cells

Three kinds of notes are about cells: that a cell was entered, that its callback was invoked, and
that it was built. A `Chronicle` reads them in order, together with the memory. A cell that has been
built is entered and nothing more. The callback of any other one is invoked when the cell is
entered; either the cell is built then, or the run ends there with a fault, and the cell stays as it
was.

Every run leaves a chronicle (`Grammar.chronicles_runWithin`). What is said of single notes follows
from it by taking the notes apart: which cells have been built at the end (`Chronicle.find?_iff`),
what stands before and behind the note of an invocation (`Chronicle.of_building`), and at which
entries the callback is invoked (`Chronicle.of_entering`).
-/

set_option autoImplicit false

namespace DiagnosticParsing

/-- A note that is not about a cell. -/
def Note.IsPlain : Note → Prop
  | .entering _ | .building _ _ | .built _ => False
  | _ => True

/-- The callback of a cell comes to an outcome when it is invoked. -/
def World.Invokes (world : World) (cell : Cell) (name : String) (outcome : Except Fault Operand) :
    Prop :=
  ∃ (closure : Closure) (label : Nat), closure.grammar.cell? = some (label, name) ∧
    closure.scope.cell label = cell ∧ world.callback closure.scope closure.grammar = outcome

/-- Something that can parse is what a deferred parser becomes. -/
theorem Operand.deferred_eq_ok {outcome : Except Fault Operand} {p : Grammar} :
    deferred outcome = .ok p ↔ outcome = .ok (.parser p) ∨ outcome = .ok (.foreign p) := by
  rcases outcome with fault | q | q | v <;> simp [deferred]

/-- A callback that raises or returns a value is refused. -/
theorem Operand.deferred_eq_error {outcome : Except Fault Operand} {fault : Fault} :
    deferred outcome = .error fault ↔
      outcome = .error fault ∨ ∃ v, outcome = .ok (.value v) ∧ fault = .deferredNotParsable v := by
  rcases outcome with fault' | q | q | v <;> simp [deferred, eq_comm]

/-- The notes of a run tell which cells it has entered and built between the memory with which it
starts and the one that it leaves. A run that ends with a fault may have been refused a parser. -/
inductive Chronicle (world : World) : Option Fault → Memory → List Note → Memory → Prop
  /-- Nothing more happens. -/
  | nil (fault? : Option Fault) (memory : Memory) : Chronicle world fault? memory [] memory
  /-- Something happens that does not concern cells. -/
  | plain {fault? : Option Fault} {memory final : Memory} {note : Note} {notes : List Note}
    (hnote : note.IsPlain) (hnotes : Chronicle world fault? memory notes final) :
    Chronicle world fault? memory (note :: notes) final
  /-- A parser is made. -/
  | stamped {fault? : Option Fault} {memory final : Memory} {notes : List Note}
    (hnotes : Chronicle world fault? memory.stamped notes final) :
    Chronicle world fault? memory notes final
  /-- A cell is entered that has been built. -/
  | held {fault? : Option Fault} {memory final : Memory} {notes : List Note} {cell : Cell}
    {built : Built} (hbuilt : memory.find? cell = some built)
    (hnotes : Chronicle world fault? memory notes final) :
    Chronicle world fault? memory (.entering cell :: notes) final
  /-- A cell is entered and gets built. -/
  | built {fault? : Option Fault} {memory final : Memory} {notes : List Note} {cell : Cell}
    {name : String} {outcome : Except Fault Operand} {p : Grammar} (built : Built)
    (hunbuilt : memory.find? cell = none) (hinvokes : world.Invokes cell name outcome)
    (hreturned : Operand.deferred outcome = .ok p)
    (hnotes : Chronicle world fault? (memory.store cell built) notes final) :
    Chronicle world fault? memory (.entering cell :: .building cell name :: .built cell :: notes)
      final
  /-- A cell is entered that cannot be built. -/
  | refused {memory : Memory} {cell : Cell} {name : String} {outcome : Except Fault Operand}
    {fault : Fault} (hunbuilt : memory.find? cell = none)
    (hinvokes : world.Invokes cell name outcome)
    (hraised : Operand.deferred outcome = .error fault) :
    Chronicle world (some fault) memory [.entering cell, .building cell name] memory

theorem Memory.find?_store_eq_none (memory : Memory) (cell other : Cell) (built : Built) :
    (memory.store cell built).find? other = none ↔ memory.find? other = none ∧ other ≠ cell := by
  by_cases hcell : other = cell
  · subst hcell
    simp [find?_store_self]
  · simp [find?_store_of_ne memory built hcell, hcell]

namespace Chronicle

variable {world : World} {fault? : Option Fault} {memory middle final : Memory}
  {notes more : List Note} {cell : Cell} {name : String}

theorem append (hnotes : Chronicle world none memory notes middle)
    (hmore : Chronicle world fault? middle more final) :
    Chronicle world fault? memory (notes ++ more) final := by
  generalize hdone : (none : Option Fault) = done at hnotes
  induction hnotes with
  | nil => exact hmore
  | plain hnote _ ih => exact .plain hnote (ih hmore hdone)
  | stamped _ ih => exact .stamped (ih hmore hdone)
  | held hbuilt _ ih => exact .held hbuilt (ih hmore hdone)
  | built built hunbuilt hinvokes hreturned _ ih =>
    exact .built built hunbuilt hinvokes hreturned (ih hmore hdone)
  | refused => exact nomatch hdone

theorem stop (hnotes : Chronicle world none memory notes final) (fault : Fault) :
    Chronicle world (some fault) memory notes final := by
  have hstopped := hnotes.append (.nil (some fault) final)
  rwa [List.append_nil] at hstopped

theorem of_plain (hnotes : ∀ note ∈ notes, note.IsPlain) :
    Chronicle world none memory notes memory := by
  induction notes with
  | nil => exact .nil none memory
  | cons note rest ih =>
    obtain ⟨hnote, hrest⟩ := List.forall_mem_cons.mp hnotes
    exact .plain hnote (ih hrest)

/-! ### Taking notes apart -/

/-- The cells that have been built at the end are those that had been before, and those of which the
notes say so. -/
theorem find?_iff (h : Chronicle world fault? memory notes final) (cell : Cell) :
    final.find? cell = none ↔ memory.find? cell = none ∧ .built cell ∉ notes := by
  induction h with
  | nil | refused => simp
  | @plain _ _ _ note _ hnote _ ih =>
    have hne : .built cell ≠ note := by
      rintro rfl
      exact hnote
    rw [ih, List.mem_cons, not_or]
    simp only [hne, not_false_eq_true, true_and]
  | stamped _ ih => exact ih
  | held hbuilt _ ih => simpa using ih
  | built built hunbuilt hinvokes hreturned _ ih =>
    rw [ih, Memory.find?_store_eq_none]
    simp [and_assoc]

/-- A callback is invoked behind an entry to its cell. Either it returns a parser and the cell is
built at once, or nothing happens any more, and the cell stays as it was. -/
theorem of_building (h : Chronicle world fault? memory notes final) {front rest : List Note}
    (hsplit : notes = front ++ .building cell name :: rest) :
    (∃ before, front = before ++ [.entering cell]) ∧ ∃ outcome, world.Invokes cell name outcome ∧
      ((∃ p behind, Operand.deferred outcome = .ok p ∧ rest = .built cell :: behind) ∨
        ∃ fault, Operand.deferred outcome = .error fault ∧ rest = [] ∧ fault? = some fault ∧
          final.find? cell = none) := by
  induction h generalizing front with
  | nil => exact absurd hsplit.symm (List.append_ne_nil_of_right_ne_nil _ (List.cons_ne_nil _ _))
  | plain hnote _ ih =>
    rcases front with _ | ⟨first, front⟩
    · obtain ⟨rfl, -⟩ := List.cons.inj hsplit
      exact hnote.elim
    · obtain ⟨⟨before, rfl⟩, hinvoked⟩ := ih (List.cons.inj hsplit).2
      exact ⟨⟨first :: before, rfl⟩, hinvoked⟩
  | stamped _ ih => exact ih hsplit
  | held hbuilt _ ih =>
    rcases front with _ | ⟨first, front⟩
    · exact nomatch (List.cons.inj hsplit).1
    · obtain ⟨⟨before, rfl⟩, hinvoked⟩ := ih (List.cons.inj hsplit).2
      exact ⟨⟨first :: before, rfl⟩, hinvoked⟩
  | built built hunbuilt hinvokes hreturned _ ih =>
    rcases front with _ | ⟨first, _ | ⟨second, _ | ⟨third, front⟩⟩⟩
    · exact nomatch (List.cons.inj hsplit).1
    · simp only [List.cons_append, List.nil_append, List.cons.injEq, Note.building.injEq] at hsplit
      obtain ⟨rfl, ⟨rfl, rfl⟩, rfl⟩ := hsplit
      exact ⟨⟨[], rfl⟩, _, hinvokes, .inl ⟨_, _, hreturned, rfl⟩⟩
    · simp at hsplit
    · simp only [List.cons_append, List.cons.injEq] at hsplit
      obtain ⟨⟨before, rfl⟩, hinvoked⟩ := ih hsplit.2.2.2
      exact ⟨⟨first :: second :: third :: before, rfl⟩, hinvoked⟩
  | refused hunbuilt hinvokes hraised =>
    rcases front with _ | ⟨first, _ | ⟨second, front⟩⟩
    · exact nomatch (List.cons.inj hsplit).1
    · simp only [List.cons_append, List.nil_append, List.cons.injEq, Note.building.injEq] at hsplit
      obtain ⟨rfl, ⟨rfl, rfl⟩, rfl⟩ := hsplit
      exact ⟨⟨[], rfl⟩, _, hinvokes, .inr ⟨_, hraised, rfl, rfl, hunbuilt⟩⟩
    · simp at hsplit

/-- Notes do not begin with an invocation. -/
theorem ne_building (h : Chronicle world fault? memory notes final) (cell : Cell) (name : String)
    (rest : List Note) : notes ≠ .building cell name :: rest := by
  intro hsplit
  obtain ⟨⟨before, hbefore⟩, -⟩ := h.of_building (hsplit.trans (List.nil_append _).symm)
  exact absurd hbefore.symm (List.append_ne_nil_of_right_ne_nil _ (List.cons_ne_nil _ _))

/-- An entry invokes the callback if the cell has not been built before it, and only then. -/
theorem of_entering (h : Chronicle world fault? memory notes final) {front rest : List Note}
    (hsplit : notes = front ++ .entering cell :: rest) :
    (∃ name behind, rest = .building cell name :: behind) ↔
      memory.find? cell = none ∧ .built cell ∉ front := by
  induction h generalizing front with
  | nil => exact absurd hsplit.symm (List.append_ne_nil_of_right_ne_nil _ (List.cons_ne_nil _ _))
  | @plain _ _ _ note _ hnote _ ih =>
    rcases front with _ | ⟨first, front⟩
    · obtain ⟨rfl, -⟩ := List.cons.inj hsplit
      exact hnote.elim
    · obtain ⟨rfl, hrest⟩ := List.cons.inj hsplit
      have hne : .built cell ≠ note := by
        rintro rfl
        exact hnote
      rw [ih hrest, List.mem_cons, not_or]
      simp only [hne, not_false_eq_true, true_and]
  | stamped _ ih => exact ih hsplit
  | held hbuilt hnotes ih =>
    rcases front with _ | ⟨first, front⟩
    · obtain ⟨hcell, rfl⟩ := List.cons.inj hsplit
      obtain rfl := Note.entering.inj hcell
      refine ⟨fun ⟨name, behind, hbehind⟩ ↦ absurd hbehind (hnotes.ne_building _ _ _), fun h ↦ ?_⟩
      exact nomatch hbuilt.symm.trans h.1
    · obtain ⟨rfl, hrest⟩ := List.cons.inj hsplit
      rw [ih hrest]
      simp
  | built built hunbuilt hinvokes hreturned _ ih =>
    rcases front with _ | ⟨first, _ | ⟨second, _ | ⟨third, front⟩⟩⟩
    · obtain ⟨hcell, rfl⟩ := List.cons.inj hsplit
      obtain rfl := Note.entering.inj hcell
      exact ⟨fun _ ↦ ⟨hunbuilt, List.not_mem_nil⟩, fun _ ↦ ⟨_, _, rfl⟩⟩
    · simp at hsplit
    · simp at hsplit
    · simp only [List.cons_append, List.cons.injEq] at hsplit
      obtain ⟨rfl, rfl, rfl, hrest⟩ := hsplit
      rw [ih hrest, Memory.find?_store_eq_none]
      simp [and_assoc]
  | refused hunbuilt hinvokes hraised =>
    rcases front with _ | ⟨first, _ | ⟨second, front⟩⟩
    · obtain ⟨hcell, rfl⟩ := List.cons.inj hsplit
      obtain rfl := Note.entering.inj hcell
      exact ⟨fun _ ↦ ⟨hunbuilt, List.not_mem_nil⟩, fun _ ↦ ⟨_, _, rfl⟩⟩
    · simp at hsplit
    · simp at hsplit

/-- What stands directly in front of an invocation is an entry at which the cell has not been
built. -/
theorem exists_entering (h : Chronicle world fault? memory notes final) {front rest : List Note}
    (hsplit : notes = front ++ .building cell name :: rest) :
    ∃ before, front = before ++ [.entering cell] ∧ memory.find? cell = none ∧
      .built cell ∉ before := by
  obtain ⟨⟨before, rfl⟩, -⟩ := h.of_building hsplit
  rw [List.append_assoc] at hsplit
  exact ⟨before, rfl, (h.of_entering hsplit).mp ⟨name, rest, rfl⟩⟩

/-- No callback is invoked of a cell that has been built before. -/
theorem find?_of_mem (h : Chronicle world fault? memory notes final)
    (hmem : .building cell name ∈ notes) : memory.find? cell = none := by
  obtain ⟨front, rest, hsplit⟩ := List.append_of_mem hmem
  obtain ⟨before, -, hunbuilt, -⟩ := h.exists_entering hsplit
  exact hunbuilt

/-- No callback is invoked behind the note that its cell has been built. -/
theorem not_mem_behind (h : Chronicle world fault? memory notes final) {front rest : List Note}
    (hsplit : notes = front ++ .built cell :: rest) : .building cell name ∉ rest := by
  intro hmem
  obtain ⟨between, behind, rfl⟩ := List.append_of_mem hmem
  rw [← List.cons_append, ← List.append_assoc] at hsplit
  obtain ⟨before, hbefore, -, hunbuilt⟩ := h.exists_entering hsplit
  have hbuilt : .built cell ∈ before ++ [.entering cell] := by
    rw [← hbefore]
    exact List.mem_append_right _ List.mem_cons_self
  simp only [List.mem_append, List.mem_singleton, reduceCtorEq, or_false] at hbuilt
  exact hunbuilt hbuilt

/-- The same for notes behind earlier ones, when these tell which cells the memory holds. -/
theorem not_mem_behind_append {earlier : List Note}
    (h : Chronicle world fault? memory notes final)
    (hheld : memory.find? cell = none ↔ .built cell ∉ earlier)
    (hearlier : ∀ front rest, earlier = front ++ .built cell :: rest → .building cell name ∉ rest)
    {front rest : List Note} (hsplit : earlier ++ notes = front ++ .built cell :: rest) :
    .building cell name ∉ rest := by
  rcases List.append_eq_append_iff.mp hsplit with ⟨front, rfl, hnow⟩ | ⟨between, hbefore, hrest⟩
  · exact h.not_mem_behind hnow
  · rcases between with _ | ⟨note, between⟩
    · exact h.not_mem_behind (hrest.symm.trans (List.nil_append _).symm)
    · -- The cell was built before these notes.
      obtain ⟨rfl, rfl⟩ := List.cons.inj hrest
      have hbuilt : .built cell ∈ earlier := by
        rw [hbefore]
        exact List.mem_append_right _ List.mem_cons_self
      intro hmem
      rcases List.mem_append.mp hmem with hbetween | hnow
      · exact hearlier front between hbefore hbetween
      · exact hheld.mp (h.find?_of_mem hnow) hbuilt

/-- What a cell holds it goes on holding. -/
theorem find?_kept (h : Chronicle world fault? memory notes final) {held : Built}
    (hheld : memory.find? cell = some held) : final.find? cell = some held := by
  induction h with
  | nil | refused => exact hheld
  | plain _ _ ih | stamped _ ih | held _ _ ih => exact ih hheld
  | @built _ _ _ _ other _ _ _ built hunbuilt hinvokes hreturned _ ih =>
    have hne : cell ≠ other := by
      rintro rfl
      exact nomatch hheld.symm.trans hunbuilt
    exact ih ((Memory.find?_store_of_ne _ built hne).trans hheld)

end Chronicle

/-! ### The notes of a run -/

/-- The account of runs that leave a chronicle. -/
def Account.chronicle (world : World) : Account where
  completed := Chronicle world none
  stopped fault := Chronicle world (some fault)

namespace Account

variable {allowed : Grammar → Prop}

theorem chronicle_lawful (world : World) : (chronicle world).Lawful Note.IsPlain where
  quiet := fun _ _ hnotes ↦ .of_plain hnotes
  append := fun hnotes hmore ↦ hnotes.append hmore
  append_stopped := fun hnotes hmore ↦ hnotes.append hmore
  stop := fun fault _ _ _ hnotes ↦ hnotes.stop fault

theorem chronicle_covers (world : World) (allowed : Grammar → Prop) :
    (chronicle world).Covers world allowed where
  stamped := fun memory ↦ .stamped (.nil none memory.stamped)
  held := fun hbuilt ↦ .held hbuilt (.nil none _)
  refused := fun {_ cell label _ _} hcell _ hunbuilt hraised ↦
    .refused hunbuilt ⟨cell, label, hcell, rfl, rfl⟩ hraised
  built := fun {_ _ cell label _ _} hcell _ hunbuilt hreturned ↦
    .built _ hunbuilt ⟨cell, label, hcell, rfl, rfl⟩ hreturned (.nil none _)

end Account

/-- The runs of a grammar leave chronicles. Assumes: functions that report nothing about cells, in
the grammar and in whatever callbacks return. -/
theorem Grammar.chronicles_runWithin {world : World} {p : Grammar}
    (hworld : world.Everywhere (ReportsOnly Note.IsPlain))
    (hp : p.Everywhere (ReportsOnly Note.IsPlain)) (bound : Nat) (place : Place) :
    (p.runWithin world bound place).Tells (ReportsOnly Note.IsPlain) (.chronicle world) := by
  have hlawful := Account.chronicle_lawful world
  have compositional : Run.Compositional Note.IsPlain
      (Run.Tells (ReportsOnly Note.IsPlain) (.chronicle world)) :=
    Run.tells_compositional hlawful
  exact (Account.chronicle_covers world _).tells_runWithin hlawful hworld (fun name p hp ↦
    Run.Compositional.always (compositional.congruence.trace (fun _ _ ↦ trivial)
      (fun _ _ ↦ trivial) (fun _ ↦ trivial) (Run.Compositional.same hp))) hp bound place

end DiagnosticParsing
