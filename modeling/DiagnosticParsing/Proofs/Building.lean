import DiagnosticParsing.Grammar.Characters
import DiagnosticParsing.Proofs.Chronicle

/-!
# Cells that are built once

Grammars are constructed, and they are run on one place after another. What cells hold is kept from
one `Action` of this kind to the next, and so a `History` consists of the notes that the actions
have left and of the memory behind them. A callback need not come to the same each time: it may
raise in one run and return a parser in the next. Each run therefore has a world of its own.

What can be said of the callback of a cell in an action behind a history is collected in
`Action.BuildsOnce`: it is invoked by a parse that enters the cell and by nothing else; it is
invoked at every entry as long as the cell has not been built, and never after that; and a cell
whose callback comes to nothing stays as it was, while the run raises. This holds of every action
behind every history (`Action.builds_once`).

A single action leaves a `Chronicle`. That a history remembers which cells have been built is an
invariant (`History.Sound`), which every action keeps (`History.Sound.after`) and so every series of
actions (`History.Sound.foldl_after`).
-/

set_option autoImplicit false

namespace DiagnosticParsing

/-! ### Histories -/

/-- Something that is done with grammars. -/
inductive Action where
  /-- A parser is constructed, or its construction comes to a fault. Whatever constructs parsers is
  given other parsers and values, and no world that could tell what a callback comes to. -/
  | construct (parser : Except Fault Operand)
  /-- A parser is run at a place. -/
  | run (world : World) (bound : Nat) (p : Operand) (place : Place) (log : Log)

/-- What comes of an action. -/
structure Event where
  /-- The fault that it raised, if it raised one. -/
  fault? : Option Fault
  /-- The notes that it left. -/
  notes : List Note
  /-- What the cells hold behind it. -/
  memory : Memory

/-- What comes of a computation. One that was cut short is as if it had not begun. -/
def Outcome.event {α : Type} (memory : Memory) : Outcome α → Event
  | .done _ journal => ⟨none, journal.notes.toList, journal.memory⟩
  | .faulted fault journal => ⟨some fault, journal.notes.toList, journal.memory⟩
  | .unfinished => ⟨none, [], memory⟩

/-- What comes of an action, when the cells hold what they hold before it. -/
def Action.event (memory : Memory) : Action → Event
  | construct parser => (Run.ofExcept parser ⟨.empty, #[], memory⟩).event memory
  | run world bound p place log =>
    ((do (← Run.ofExcept p.asParser).runWithin world bound place : Run Reply)
      ⟨log, #[], memory⟩).event memory

/-- What is known behind a series of actions. -/
structure History where
  /-- The notes that the actions left. -/
  notes : List Note
  /-- What the cells hold. -/
  memory : Memory

namespace History

/-- The history with one more action. -/
def after (history : History) (action : Action) : History :=
  let event := action.event history.memory
  ⟨history.notes ++ event.notes, event.memory⟩

/-- The history of a series of actions. Nothing has been built before them. -/
def of (actions : List Action) : History :=
  actions.foldl after ⟨[], ∅⟩

end History

/-! ### What is true of every action -/

/-- What the callback of a cell does in an action behind a history. -/
structure Action.BuildsOnce (action : Action) (history : History) (cell : Cell) : Prop where
  /-- No construction invokes it, and nothing in a run does but an entry to the cell. -/
  early : ∀ name front rest,
    (action.event history.memory).notes = front ++ .building cell name :: rest →
      (∃ world bound p place log, action = .run world bound p place log) ∧
        ∃ before, front = before ++ [.entering cell]
  /-- An entry invokes it just if the cell has not been built by then. -/
  invokes_iff : ∀ front rest,
    (action.event history.memory).notes = front ++ .entering cell :: rest →
      ((∃ name behind, rest = .building cell name :: behind) ↔
        .built cell ∉ history.notes ++ front)
  /-- Once the cell has been built it is not invoked any more. -/
  once : ∀ front rest,
    history.notes ++ (action.event history.memory).notes = front ++ .built cell :: rest →
      ∀ name, .building cell name ∉ rest
  /-- If it returns something that can parse, the cell is built. If it raises a fault or returns a
  value, the run raises the fault, or that the value is no parser, and the cell is not built. -/
  outcome : ∀ world bound p place log, action = .run world bound p place log →
    ∀ name front rest,
      (action.event history.memory).notes = front ++ .building cell name :: rest →
        ∃ outcome, world.Invokes cell name outcome ∧
          ((∃ q behind, (outcome = .ok (.parser q) ∨ outcome = .ok (.foreign q)) ∧
              rest = .built cell :: behind) ∨
            ∃ fault, (outcome = .error fault ∨
                ∃ v, outcome = .ok (.value v) ∧ fault = .deferredNotParsable v ∧
                  fault.kind = "GrammarError") ∧
              (action.event history.memory).fault? = some fault ∧ rest = [] ∧
              (action.event history.memory).memory.find? cell = none)
  /-- What the cell holds it goes on holding. -/
  kept : ∀ built, history.memory.find? cell = some built →
    (action.event history.memory).memory.find? cell = some built
  /-- The cell holds nothing just if it has not been built by then. -/
  held_iff : (action.event history.memory).memory.find? cell = none ↔
    .built cell ∉ history.notes ++ (action.event history.memory).notes

/-- Functions report nothing about cells, in the grammar that is run and in whatever callbacks
return. -/
def Action.IsPlain : Action → Prop
  | construct _ => True
  | run world _ p _ _ => world.Everywhere (Grammar.ReportsOnly Note.IsPlain) ∧
    ∀ q, p.asParser = .ok q → q.Everywhere (Grammar.ReportsOnly Note.IsPlain)

/-- The memory knows which cells have been built. -/
structure History.Sound (history : History) : Prop where
  allowed : history.memory.All (Closure.Everywhere (Grammar.ReportsOnly Note.IsPlain))
  held_iff : ∀ cell, history.memory.find? cell = none ↔ .built cell ∉ history.notes
  once : ∀ cell front rest, history.notes = front ++ .built cell :: rest →
    ∀ name, .building cell name ∉ rest

namespace Action

variable {action : Action} {history : History} {memory : Memory}

/-- A construction leaves no notes, and no cell is touched. -/
theorem event_construct (parser : Except Fault Operand) (memory : Memory) :
    ((construct parser).event memory).notes = [] ∧
      ((construct parser).event memory).memory = memory := by
  cases parser <;> exact ⟨rfl, rfl⟩

/-- A run leaves a chronicle. -/
theorem chronicle_run {world : World} {bound : Nat} {p : Operand} {place : Place} {log : Log}
    (haction : (run world bound p place log).IsPlain)
    (hmemory : memory.All (Closure.Everywhere (Grammar.ReportsOnly Note.IsPlain))) :
    ((run world bound p place log).event memory).memory.All
        (Closure.Everywhere (Grammar.ReportsOnly Note.IsPlain)) ∧
      Chronicle world ((run world bound p place log).event memory).fault? memory
        ((run world bound p place log).event memory).notes
        ((run world bound p place log).event memory).memory := by
  obtain ⟨hworld, hp⟩ := haction
  simp only [event]
  cases hparser : p.asParser with
  | error fault => exact ⟨hmemory, .nil (some fault) memory⟩
  | ok q =>
    have htells := Grammar.chronicles_runWithin hworld (hp q hparser) bound place ⟨log, #[], memory⟩
      hmemory
    rw [Run.ofExcept_ok_bind]
    cases hrun : q.runWithin world bound place ⟨log, #[], memory⟩ with
    | done reply final =>
      rw [hrun] at htells
      obtain ⟨hfinal, added, hadded, hchronicle⟩ := htells
      obtain rfl : final.notes.toList = added := hadded
      exact ⟨hfinal, hchronicle⟩
    | faulted fault final =>
      rw [hrun] at htells
      obtain ⟨hfinal, added, hadded, hchronicle⟩ := htells
      obtain rfl : final.notes.toList = added := hadded
      exact ⟨hfinal, hchronicle⟩
    | unfinished => exact ⟨hmemory, .nil none memory⟩

/-- Every action leaves a chronicle. -/
theorem exists_chronicle (haction : action.IsPlain)
    (hmemory : memory.All (Closure.Everywhere (Grammar.ReportsOnly Note.IsPlain))) :
    (action.event memory).memory.All (Closure.Everywhere (Grammar.ReportsOnly Note.IsPlain)) ∧
      ∃ world, Chronicle world (action.event memory).fault? memory (action.event memory).notes
        (action.event memory).memory := by
  cases action with
  | construct parser =>
    obtain ⟨hnotes, hsame⟩ := event_construct parser memory
    rw [hnotes, hsame]
    exact ⟨hmemory, Definitions.none.world, .nil _ memory⟩
  | run world bound p place log =>
    obtain ⟨hfinal, hchronicle⟩ := chronicle_run haction hmemory
    exact ⟨hfinal, world, hchronicle⟩

end Action

namespace History.Sound

variable {history : History} {action : Action}

/-- Behind a sound history, an action keeps what is asked of the callback of a cell. -/
theorem buildsOnce (h : history.Sound) (haction : action.IsPlain) (cell : Cell) :
    action.BuildsOnce history cell := by
  obtain ⟨-, world, hchronicle⟩ := Action.exists_chronicle haction h.allowed
  have hheld := h.held_iff cell
  constructor
  case early =>
    intro name front rest hsplit
    refine ⟨?_, (hchronicle.of_building hsplit).1⟩
    cases action with
    | construct parser =>
      rw [(Action.event_construct parser _).1] at hsplit
      exact absurd hsplit.symm (List.append_ne_nil_of_right_ne_nil _ (List.cons_ne_nil _ _))
    | run world bound p place log => exact ⟨world, bound, p, place, log, rfl⟩
  case invokes_iff =>
    intro front rest hsplit
    rw [hchronicle.of_entering hsplit, hheld, List.mem_append, not_or]
  case once =>
    intro front rest hsplit name
    exact hchronicle.not_mem_behind_append hheld
      (fun front rest hbefore ↦ h.once cell front rest hbefore name) hsplit
  case outcome =>
    rintro world bound p place log rfl name front rest hsplit
    obtain ⟨-, hchronicle⟩ := Action.chronicle_run haction h.allowed
    obtain ⟨-, outcome, hinvokes, hcomes⟩ := hchronicle.of_building hsplit
    refine ⟨outcome, hinvokes, ?_⟩
    rcases hcomes with ⟨q, behind, hreturned, hrest⟩ | ⟨fault, hraised, hrest, hfault, hunbuilt⟩
    · exact .inl ⟨q, behind, Operand.deferred_eq_ok.mp hreturned, hrest⟩
    · refine .inr ⟨fault, ?_, hfault, hrest, hunbuilt⟩
      rcases Operand.deferred_eq_error.mp hraised with hraised | ⟨v, hvalue, hrefused⟩
      · exact .inl hraised
      · exact .inr ⟨v, hvalue, hrefused, by rw [hrefused]; rfl⟩
  case kept => exact fun built hbuilt ↦ hchronicle.find?_kept hbuilt
  case held_iff =>
    rw [hchronicle.find?_iff, hheld, List.mem_append, not_or]

/-- An action keeps a history sound. -/
theorem after (h : history.Sound) (haction : action.IsPlain) : (history.after action).Sound where
  allowed := (Action.exists_chronicle haction h.allowed).1
  held_iff := fun cell ↦ (h.buildsOnce haction cell).held_iff
  once := fun cell ↦ (h.buildsOnce haction cell).once

/-- A series of actions keeps a history sound. -/
theorem foldl_after {actions : List Action} (h : history.Sound)
    (hactions : ∀ action ∈ actions, action.IsPlain) :
    (actions.foldl History.after history).Sound := by
  induction actions generalizing history with
  | nil => exact h
  | cons action rest ih =>
    obtain ⟨haction, hrest⟩ := List.forall_mem_cons.mp hactions
    exact ih (h.after haction) hrest

/-- Nothing has been built before the first action. -/
theorem start : (⟨[], ∅⟩ : History).Sound where
  allowed := Memory.all_empty
  held_iff := fun cell ↦ ⟨fun _ ↦ List.not_mem_nil, fun _ ↦ Memory.find?_empty cell⟩
  once := fun _ _ _ hsplit ↦
    absurd hsplit.symm (List.append_ne_nil_of_right_ne_nil _ (List.cons_ne_nil _ _))

end History.Sound

/-- A deferred parser is built once at most, never early, and a construction that fails leaves the
cell as it was, in every action behind every series of actions. -/
theorem Action.builds_once {actions : List Action} (hactions : ∀ action ∈ actions, action.IsPlain)
    {action : Action} (haction : action.IsPlain) (cell : Cell) :
    action.BuildsOnce (.of actions) cell :=
  (History.Sound.start.foldl_after hactions).buildsOnce haction cell

/-! ### The cell of a letter, and cells that a binder makes -/

namespace Action

section Cell

variable {world : World} {memory : Memory} {p : Grammar} {label : Nat} {name : String}

theorem event_run (world : World) (bound : Nat) (p : Grammar) (place : Place) (log : Log)
    (memory : Memory) :
    (run world bound (.parser p) place log).event memory =
      (p.runWithin world bound place ⟨log, #[], memory⟩).event memory :=
  rfl

/-- A run of a cell that cannot be built. -/
theorem event_of_raised (hcell : p.cell? = some (label, name)) {fault : Fault}
    (hunbuilt : memory.find? (Scope.top.cell label) = none)
    (hraised : Operand.deferred (world.callback .top p) = .error fault) (bound : Nat)
    (place : Place) (log : Log) :
    (run world (bound + 1) (.parser p) place log).event memory =
      ⟨some fault, [.entering (Scope.top.cell label), .building (Scope.top.cell label) name],
        memory⟩ := by
  have hvisit : world.visit bound ⟨.top, p⟩ label name ⟨log, #[], memory⟩ = _ :=
    (World.visit_of_unbuilt bound name hunbuilt).trans
      (World.first_of_raised bound name hunbuilt hraised)
  rw [event_run, Grammar.runWithin, world.exec_cell bound hcell]
  simp only [World.goOn, Run.bind_apply, hvisit]
  rfl

end Cell

/-- The parser of a letter, inside the cell that builds it. -/
def letter : Closure :=
  ⟨.anew 0 .top, .char (.text "a")⟩

/-- The world in which every callback comes to an outcome. -/
def coming (outcome : Except Fault Operand) : World :=
  ⟨.none, fun _ _ ↦ outcome⟩

/-- A run on two letters, where every callback comes to an outcome. -/
def onLetters (outcome : Except Fault Operand) (p : Grammar) : Action :=
  .run (coming outcome) 4 (.parser p) (.fresh (.ofText "aa")) .empty

/-- A cell is constructed. Its callback raises in a first run and returns a number in a second one.
In a third run it returns a parser. -/
def attempts : List Action :=
  [.construct (.ok (.parser (.lazy 0 "a"))),
    onLetters (.error (.raised "ValueError" none)) (.lazy 0 "a"),
    onLetters (.ok (.value (.int 42))) (.lazy 0 "a"),
    onLetters (.ok (.parser letter.grammar)) (.lazy 0 "a")]

theorem isPlain_onLetters {outcome : Except Fault Operand} {p : Grammar}
    (houtcome : ∀ q, Operand.deferred outcome = .ok q →
      q.Everywhere (Grammar.ReportsOnly Note.IsPlain))
    (hp : p.Everywhere (Grammar.ReportsOnly Note.IsPlain)) : (onLetters outcome p).IsPlain := by
  refine ⟨⟨Definitions.everywhere_none _, fun scope cell q hscope hcell hreturned ↦ ?_⟩, ?_⟩
  · exact ⟨Scope.everywhere_inside hscope hcell, houtcome q hreturned⟩
  · intro q hq
    obtain rfl := Except.ok.inj hq
    exact hp

/-- A run in which the cell of the letter is built. -/
theorem event_onLetters {memory : Memory} (hunbuilt : memory.find? (Scope.top.cell 0) = none) :
    (onLetters (.ok (.parser letter.grammar)) (.lazy 0 "a")).event memory =
      ⟨none, [.entering (Scope.top.cell 0), .building (Scope.top.cell 0) "a",
          .built (Scope.top.cell 0)],
        memory.store (Scope.top.cell 0) ⟨letter, letter, 0⟩⟩ := by
  have hcell : (Grammar.lazy 0 "a").cell? = some (0, "a") := rfl
  have hvisit : (coming (.ok (.parser letter.grammar))).visit 3 ⟨.top, .lazy 0 "a"⟩ 0 "a"
      ⟨.empty, #[], memory⟩ = _ :=
    (World.visit_of_unbuilt 3 "a" hunbuilt).trans (World.first_of_returned 3 "a" hunbuilt rfl)
  rw [onLetters, event_run, Grammar.runWithin, World.exec_cell _ _ hcell]
  simp only [World.goOn, Run.bind_apply, hvisit]
  rfl

/-- The copy of the parse function that the cell had at first finds it built. -/
theorem event_copied {memory : Memory}
    (hbuilt : memory.find? (Scope.top.cell 0) = some ⟨letter, letter, 0⟩) :
    (onLetters (.ok (.parser letter.grammar)) (.copied (.lazy 0 "a"))).event memory =
      ⟨none, [.entering (Scope.top.cell 0)], memory⟩ := by
  have hfirst : (coming (.ok (.parser letter.grammar))).first 3 ⟨.top, .lazy 0 "a"⟩ 0 "a"
      ⟨.empty, #[], memory⟩ = _ :=
    World.first_of_held 3 "a" hbuilt
  have hcopied : (coming (.ok (.parser letter.grammar))).exec 4 0 ⟨.top, .copied (.lazy 0 "a")⟩ =
      World.goOn ((coming (.ok (.parser letter.grammar))).first 3 ⟨.top, .lazy 0 "a"⟩ 0 "a")
        fun further ↦ (coming (.ok (.parser letter.grammar))).exec 3 (0 + further) :=
    World.copied_of_cell _ _ _ _ rfl
  rw [onLetters, event_run, Grammar.runWithin, hcopied]
  simp only [World.goOn, Run.bind_apply, hfirst]
  rfl

/-- The callback has been invoked three times behind the attempts, and the cell is built. -/
theorem of_attempts :
    History.of attempts =
      ⟨[.entering (Scope.top.cell 0), .building (Scope.top.cell 0) "a",
          .entering (Scope.top.cell 0), .building (Scope.top.cell 0) "a",
          .entering (Scope.top.cell 0), .building (Scope.top.cell 0) "a",
          .built (Scope.top.cell 0)],
        (∅ : Memory).store (Scope.top.cell 0) ⟨letter, letter, 0⟩⟩ := by
  have hunbuilt : (∅ : Memory).find? (Scope.top.cell 0) = none := Memory.find?_empty _
  have hconstructed : (construct (.ok (.parser (.lazy 0 "a")))).event ∅ = ⟨none, [], ∅⟩ := rfl
  have hraised : (onLetters (.error (.raised "ValueError" none)) (.lazy 0 "a")).event ∅ = _ :=
    event_of_raised rfl hunbuilt rfl 3 _ _
  have hrefused : (onLetters (.ok (.value (.int 42))) (.lazy 0 "a")).event ∅ = _ :=
    event_of_raised rfl hunbuilt rfl 3 _ _
  simp only [History.of, attempts, List.foldl_cons, List.foldl_nil, History.after, hconstructed,
    hraised, hrefused, event_onLetters hunbuilt]
  rfl

/-- A binder that makes a cell at each call. -/
def binder : Grammar :=
  .bind .anyElement (fun _ ↦ .pure ()) fun _ ↦ .afresh (.lazy 0 "a")

/-- The cell that the binder makes at a call. -/
def made (stamp : Nat) : Cell :=
  (Scope.afresh stamp .top).cell 0

/-- What the cell holds that the binder makes at a call, once it has been built. -/
def madeParser (stamp : Nat) : Closure :=
  ⟨.anew 0 (.afresh stamp .top), .succeed .null⟩

/-- The world in which callbacks return a parser that succeeds with null. -/
abbrev comingToNull : World :=
  coming (.ok (.parser (.succeed .null)))

/-- A call of the binder builds the cell that it makes. -/
theorem exec_binder {place rest : Place} {x : Value} {journal : Journal}
    (hread : Parse.element (fun _ ↦ .ok true) (fun x ↦ .ok x.display) place journal =
      .done (.success rest x) journal)
    (hunbuilt : journal.memory.find? (made journal.memory.stamps) = none) :
    comingToNull.exec 4 0 ⟨.top, binder⟩ place journal =
      .done (.success rest .null) ((journal.noteAll [.entering (made journal.memory.stamps),
        .building (made journal.memory.stamps) "a", .built (made journal.memory.stamps)]).remember
          (journal.memory.stamped.store (made journal.memory.stamps)
            ⟨madeParser journal.memory.stamps, madeParser journal.memory.stamps, 0⟩)) := by
  have hstamped : (journal.remember journal.memory.stamped).memory.find?
      ((Scope.afresh journal.memory.stamps .top).cell 0) = none := hunbuilt
  have hvisit : comingToNull.visit 3 ⟨.afresh journal.memory.stamps .top, .lazy 0 "a"⟩ 0 "a"
      (journal.remember journal.memory.stamped) = _ :=
    (World.visit_of_unbuilt 3 "a" hstamped).trans (World.first_of_returned 3 "a" hstamped rfl)
  show Parse.chooseNext (Parse.element (fun _ ↦ .ok true) fun x ↦ .ok x.display) (fun _ ↦ .pure ())
    (fun _ place ↦ do
      let stamp ← Run.stamp
      World.goOn (comingToNull.visit 3 ⟨.afresh stamp .top, .lazy 0 "a"⟩ 0 "a")
        (comingToNull.exec 3) place) place journal = _
  simp only [Parse.chooseNext, Parse.andThen, Run.bind_apply, hread]
  show World.goOn (comingToNull.visit 3 ⟨.afresh journal.memory.stamps .top, .lazy 0 "a"⟩ 0 "a")
    (comingToNull.exec 3) rest (journal.remember journal.memory.stamped) = _
  simp only [World.goOn, Run.bind_apply, hvisit]
  rfl

/-- A round of a repetition that succeeds. -/
theorem repeatFrom_of_success {p : Parse} {place rest : Place} {value : Value}
    {journal final : Journal} (hrun : p place journal = .done (.success rest value) final)
    (bound : Nat) (values : List Value) :
    p.repeatFrom (bound + 1) place values journal =
      p.repeatFrom bound rest (value :: values) final := by
  simp only [Parse.repeatFrom, Run.bind_apply, Run.mark, hrun]
  rfl

/-- Two calls of the binder make two cells, and the callback is invoked for each of them. -/
theorem event_many_binder :
    ((onLetters (.ok (.parser (.succeed .null))) (.many binder)).event ∅).notes =
      [.entering (made 0), .building (made 0) "a", .built (made 0),
        .entering (made 1), .building (made 1) "a", .built (made 1)] := by
  have hfirst : comingToNull.exec 4 0 ⟨.top, binder⟩ (.fresh (.ofText "aa")) ⟨.empty, #[], ∅⟩ = _ :=
    exec_binder rfl (Memory.find?_empty _)
  have hother : made 1 ≠ made 0 := by decide
  have hsecond : comingToNull.exec 4 0 ⟨.top, binder⟩
      (.fresh ⟨(Stream.ofText "aa").source, 1, ⟨0, 1⟩⟩)
      ⟨.empty, #[.entering (made 0), .building (made 0) "a", .built (made 0)],
        (Memory.stamped ∅).store (made 0) ⟨madeParser 0, madeParser 0, 0⟩⟩ = _ :=
    exec_binder rfl ((Memory.find?_store_of_ne _ _ hother).trans (Memory.find?_empty _))
  have hmany : comingToNull.exec 4 0 ⟨.top, .many binder⟩ (.fresh (.ofText "aa"))
      ⟨.empty, #[], ∅⟩ = _ :=
    (repeatFrom_of_success hfirst 3 []).trans (repeatFrom_of_success hsecond 2 _)
  rw [onLetters, event_run, Grammar.runWithin, Run.bind_apply, hmany]
  rfl

/-- The callback is invoked in each of three runs, and not by the copy of the parse function. Of the
cells that a binder makes at two calls, each one is built. -/
theorem builds_once_letter :
    (onLetters (.ok (.parser letter.grammar)) (.copied (.lazy 0 "a"))).BuildsOnce (.of attempts)
        (Scope.top.cell 0) ∧
      (History.of attempts).notes =
        [.entering (Scope.top.cell 0), .building (Scope.top.cell 0) "a",
          .entering (Scope.top.cell 0), .building (Scope.top.cell 0) "a",
          .entering (Scope.top.cell 0), .building (Scope.top.cell 0) "a",
          .built (Scope.top.cell 0)] ∧
      ((onLetters (.ok (.parser letter.grammar)) (.copied (.lazy 0 "a"))).event
        (History.of attempts).memory).notes = [.entering (Scope.top.cell 0)] ∧
      (onLetters (.ok (.parser (.succeed .null))) (.many binder)).BuildsOnce (.of []) (made 1) ∧
      ((onLetters (.ok (.parser (.succeed .null))) (.many binder)).event
        (History.of []).memory).notes =
          [.entering (made 0), .building (made 0) "a", .built (made 0),
            .entering (made 1), .building (made 1) "a", .built (made 1)] := by
  have hreturned {p : Grammar} (hp : p.Everywhere (Grammar.ReportsOnly Note.IsPlain)) (q : Grammar)
      (hq : Operand.deferred (.ok (.parser p)) = .ok q) :
      q.Everywhere (Grammar.ReportsOnly Note.IsPlain) := by
    obtain rfl := Except.ok.inj hq
    exact hp
  have hletter : letter.grammar.Everywhere (Grammar.ReportsOnly Note.IsPlain) := trivial
  have hnull : (Grammar.succeed .null).Everywhere (Grammar.ReportsOnly Note.IsPlain) := trivial
  have hattempts : ∀ action ∈ attempts, action.IsPlain := by
    simp only [attempts, List.forall_mem_cons]
    exact ⟨trivial, isPlain_onLetters (fun _ h ↦ nomatch h) trivial,
      isPlain_onLetters (fun _ h ↦ nomatch h) trivial,
      isPlain_onLetters (hreturned hletter) trivial, List.forall_mem_nil _⟩
  have hcopied : (Grammar.copied (.lazy 0 "a")).Everywhere (Grammar.ReportsOnly Note.IsPlain) :=
    ⟨trivial, trivial⟩
  have hbinder : (Grammar.many binder).Everywhere (Grammar.ReportsOnly Note.IsPlain) :=
    ⟨trivial, fun _ _ hnote ↦ (List.not_mem_nil hnote).elim, trivial, fun _ ↦ ⟨trivial, trivial⟩⟩
  refine ⟨builds_once hattempts (isPlain_onLetters (hreturned hletter) hcopied) _, ?_, ?_,
    builds_once (List.forall_mem_nil _) (isPlain_onLetters (hreturned hnull) hbinder) _,
    event_many_binder⟩
  · rw [of_attempts]
  · rw [of_attempts, event_copied (Memory.find?_store_self _ _ _)]

end Action

end DiagnosticParsing
