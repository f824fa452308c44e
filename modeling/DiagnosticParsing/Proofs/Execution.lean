import DiagnosticParsing.Grammar.Execution
import DiagnosticParsing.Proofs.Ensures
import DiagnosticParsing.Proofs.Invariant
import Std.Data.HashMap.Lemmas

/-!
# What cells do in a run

A cell that is entered either holds a parser or does not, and then its callback returns a parser or
comes to a fault. Each of these cases is an equation for the parse functions of the cell
(`World.visit_of_held`, `World.first_of_held`, `World.first_of_raised`, `World.first_of_returned`),
and they are the cases of `World.Enters`. The parse function that a parser has is read off the
memory (`World.now`).

Everything that a run can meet is a grammar in a scope, or is held by a cell. When all of it
consists of allowed parts, a hereditary relation relates the run to itself
(`Grammar.Hereditary.exec`), provided that entering a cell keeps the relation
(`World.Preserves`).
-/

set_option autoImplicit false

namespace DiagnosticParsing

/-! ### Allowed parts -/

/-- Every part of a grammar and of the cells around it is allowed. -/
structure Closure.Everywhere (allowed : Grammar → Prop) (closure : Closure) : Prop where
  scope : closure.scope.Everywhere allowed
  grammar : closure.grammar.Everywhere allowed

/-- The callbacks of cells of allowed parts return parsers of allowed parts. -/
def World.Everywhere (allowed : Grammar → Prop) (world : World) : Prop :=
  world.definitions.Everywhere allowed ∧
    ∀ scope cell p, scope.Everywhere allowed → cell.Everywhere allowed →
      Operand.deferred (world.callback scope cell) = .ok p →
        Closure.Everywhere allowed ⟨scope.inside cell, p⟩

/-- What the cells hold is good. -/
def Memory.All (good : Closure → Prop) (memory : Memory) : Prop :=
  ∀ cell built, memory.find? cell = some built → good built.parser ∧ good built.entry

namespace Memory

theorem find?_empty (cell : Cell) : (∅ : Memory).find? cell = none :=
  Std.HashMap.getElem?_empty

theorem find?_store_self (memory : Memory) (cell : Cell) (built : Built) :
    (memory.store cell built).find? cell = some built :=
  Std.HashMap.getElem?_insert_self

theorem find?_store_of_ne (memory : Memory) {cell other : Cell} (built : Built)
    (h : other ≠ cell) : (memory.store cell built).find? other = memory.find? other := by
  simp only [find?, store, Std.HashMap.getElem?_insert, beq_iff_eq, if_neg h.symm]

variable {good : Closure → Prop} {memory : Memory}

theorem all_empty : (∅ : Memory).All good := by
  intro cell built hfind
  rw [find?_empty] at hfind
  exact nomatch hfind

theorem All.store (h : memory.All good) (cell : Cell) {built : Built} (hparser : good built.parser)
    (hentry : good built.entry) : (memory.store cell built).All good := by
  intro other found hfind
  by_cases hcell : other = cell
  · subst hcell
    rw [find?_store_self] at hfind
    obtain rfl := Option.some.inj hfind
    exact ⟨hparser, hentry⟩
  · rw [find?_store_of_ne memory built hcell] at hfind
    exact h other found hfind

end Memory

/-- A relation that every step of a chain of names keeps holds between the ends of the chain. The
number tells how many shared parsers lie on the way. -/
theorem Definitions.object_relates {definitions : Definitions}
    (related : Closure → Nat → Closure → Prop) (hself : ∀ closure, related closure 0 closure)
    (huse : ∀ {scope : Scope} {name : String} {p : Grammar} {n : Nat} {found : Closure},
      definitions.get name = .ok p → related ⟨.shared name, p⟩ n found →
        related ⟨scope, .use name⟩ (n + 1) found)
    (hvar : ∀ {scope : Scope} {name : String} {cell : Closure},
      scope.lookup name = some cell → related ⟨scope, .var name⟩ 0 cell)
    (fuel : Nat) (parser : Closure) :
    related parser (definitions.object fuel parser).2 (definitions.object fuel parser).1 := by
  induction fuel, parser using Definitions.object.induct definitions with
  | case1 fuel scope name p hget found distance hobject ih =>
    rw [hobject] at ih
    rw [object, hget]
    simp only [hobject]
    exact huse hget ih
  | case2 fuel scope name fault hget =>
    rw [object, hget]
    exact hself _
  | case3 fuel scope name cell hlookup =>
    rw [object, hlookup]
    exact hvar hlookup
  | case4 fuel scope name hlookup =>
    rw [object, hlookup]
    exact hself _
  | case5 fuel closure hvar huse =>
    rw [object]
    · exact hself _
    · exact hvar
    · exact huse

/-- No chain of names is followed further than the fuel allows. -/
theorem Definitions.object_le (definitions : Definitions) (fuel : Nat) (parser : Closure) :
    (definitions.object fuel parser).2 ≤ fuel := by
  induction fuel, parser using Definitions.object.induct definitions with
  | case1 fuel scope name p hget found distance hobject ih =>
    rw [hobject] at ih
    rw [object, hget]
    simp only [hobject]
    exact Nat.succ_le_succ ih
  | case2 fuel scope name fault hget =>
    rw [object, hget]
    exact Nat.zero_le _
  | case3 fuel scope name cell hlookup =>
    rw [object, hlookup]
    exact Nat.zero_le _
  | case4 fuel scope name hlookup =>
    rw [object, hlookup]
    exact Nat.zero_le _
  | case5 fuel closure hvar huse =>
    rw [object]
    · exact Nat.zero_le _
    · exact hvar
    · exact huse

/-- A chain of names leads to allowed parts only. -/
theorem Definitions.everywhere_object {allowed : Grammar → Prop} {definitions : Definitions}
    (hdefinitions : definitions.Everywhere allowed) (fuel : Nat) {parser : Closure}
    (hparser : parser.Everywhere allowed) :
    (definitions.object fuel parser).1.Everywhere allowed := by
  refine object_relates
    (fun closure _ found ↦ closure.Everywhere allowed → found.Everywhere allowed) (fun _ ↦ id)
    (fun hget hfound _ ↦ ?_) (fun hlookup hclosure ↦ ?_) fuel parser hparser
  · exact hfound ⟨trivial, hdefinitions _ _ hget⟩
  · exact (Scope.everywhere_lookup hclosure.scope hlookup).elim .mk

/-- A cell is a reference. -/
theorem Grammar.isReference_of_cell {p : Grammar} {label : Nat} {name : String}
    (hcell : p.cell? = some (label, name)) : p.IsReference := by
  cases p with
  | lazy _ _ | lazyShared _ _ | fix _ _ _ | unbuildable _ _ _ => trivial
  | _ => exact nomatch hcell

/-- Only a reference stands for a cell. -/
theorem Definitions.isReference_of_object (definitions : Definitions) (fuel : Nat) {scope : Scope}
    {p : Grammar} {label : Nat} {name : String}
    (hcell : (definitions.object fuel ⟨scope, p⟩).1.grammar.cell? = some (label, name)) :
    p.IsReference := by
  cases p with
  | use _ | var _ => trivial
  | _ =>
    rw [object] at hcell
    · exact Grammar.isReference_of_cell hcell
    all_goals simp

/-- What the callback of a cell returns, where callbacks return what stands behind their cells. -/
theorem Definitions.deferred_world (definitions : Definitions) {scope : Scope} {cell : Grammar}
    {label : Nat} {name : String} (hcell : cell.cell? = some (label, name)) :
    (Operand.deferred (definitions.world.callback scope cell)).map (⟨scope.inside cell, ·⟩) =
      definitions.behind scope cell := by
  cases cell with
  | lazy tag name =>
    simp only [world, behind]
    cases definitions.get name <;> rfl
  | lazyShared tag name =>
    simp only [world, behind]
    cases definitions.get name <;> rfl
  | fix tag name body => rfl
  | unbuildable tag name fault => rfl
  | _ => simp [Grammar.cell?] at hcell

/-- The scope of what a callback returns is that of its cell, or has the cell around it. -/
theorem Scope.everywhere_inside {allowed : Grammar → Prop} {scope : Scope} {cell : Grammar}
    (hscope : scope.Everywhere allowed) (hcell : cell.Everywhere allowed) :
    (scope.inside cell).Everywhere allowed := by
  cases cell with
  | fix tag name body => exact ⟨hcell, hscope⟩
  | lazyShared tag name => trivial
  | _ => exact hscope

/-- Where callbacks return what stands behind their cells, definitions are all there is to look
at. -/
theorem Definitions.everywhere_world {allowed : Grammar → Prop} {definitions : Definitions}
    (hdefinitions : definitions.Everywhere allowed) : definitions.world.Everywhere allowed := by
  refine ⟨hdefinitions, fun scope cell p hscope hcell hreturned ↦
    ⟨Scope.everywhere_inside hscope hcell, ?_⟩⟩
  cases hbehind : definitions.behind scope cell with
  | error fault =>
    simp only [world, hbehind] at hreturned
    exact nomatch hreturned
  | ok closure =>
    simp only [world, hbehind] at hreturned
    obtain rfl := Except.ok.inj hreturned
    exact (everywhere_behind hdefinitions hscope hcell hbehind).2

/-! ### The parse function of a parser -/

namespace World

variable (world : World)

/-- The parse function that a parser has in a memory, and the number of references that lie
between. -/
def now (fuel : Nat) (memory : Memory) (parser : Closure) : Closure × Nat :=
  let found := world.definitions.object fuel parser
  match found.1.grammar.cell? with
  | none => found
  | some (label, _) =>
    match memory.find? (found.1.scope.cell label) with
    | some built => (built.entry, found.2 + (built.distance + 1))
    | none => (⟨found.1.scope, .copied found.1.grammar⟩, found.2)

section Now

variable {world : World} {fuel : Nat} {memory : Memory} {parser : Closure} {label : Nat}
  {name : String}

theorem now_of_noCell (hcell : (world.definitions.object fuel parser).1.grammar.cell? = none) :
    world.now fuel memory parser = world.definitions.object fuel parser := by
  simp only [now, hcell]

theorem now_of_built
    (hcell : (world.definitions.object fuel parser).1.grammar.cell? = some (label, name))
    {built : Built} (hbuilt :
      memory.find? ((world.definitions.object fuel parser).1.scope.cell label) = some built) :
    world.now fuel memory parser =
      (built.entry, (world.definitions.object fuel parser).2 + (built.distance + 1)) := by
  simp only [now, hcell, hbuilt]

theorem now_of_unbuilt
    (hcell : (world.definitions.object fuel parser).1.grammar.cell? = some (label, name))
    (hunbuilt :
      memory.find? ((world.definitions.object fuel parser).1.scope.cell label) = none) :
    world.now fuel memory parser =
      (⟨(world.definitions.object fuel parser).1.scope,
        .copied (world.definitions.object fuel parser).1.grammar⟩,
        (world.definitions.object fuel parser).2) := by
  simp only [now, hcell, hunbuilt]

end Now

theorem current_apply (fuel : Nat) (parser : Closure) (journal : Journal) :
    world.current fuel parser journal = .done (world.now fuel journal.memory parser) journal := by
  unfold current now
  rcases world.definitions.object fuel parser with ⟨object, distance⟩
  cases hcell : object.grammar.cell? with
  | none => simp only [hcell]; rfl
  | some cell =>
    simp only [hcell, Run.bind_apply, Run.fetch]
    cases journal.memory.find? (object.scope.cell cell.1) <;> rfl

/-- The memory after a cell has been built whose callback has returned a parser. -/
def building (fuel : Nat) (memory : Memory) (address : Cell) (parser : Closure) : Memory :=
  let entry := world.now fuel memory parser
  memory.store address ⟨parser, entry.1, entry.2⟩

/-- What comes of entering a cell of which a memory tells whether it has been built. Its parse
function, or a copy of the first one that it had, goes on with a parse function and leaves a
journal. -/
inductive Enters (world : World) (fuel : Nat) (cell : Closure) (label : Nat) (name : String)
    (journal : Journal) : Outcome (Closure × Nat) → Prop
  /-- The cell has been built before. -/
  | held {built : Built} {found : Closure × Nat}
    (hbuilt : journal.memory.find? (cell.scope.cell label) = some built)
    (hfound : found = (built.entry, built.distance) ∨
      found = world.now fuel journal.memory built.parser) :
    Enters world fuel cell label name journal
      (.done found (journal.note (.entering (cell.scope.cell label))))
  /-- The callback comes to a fault. -/
  | refused {fault : Fault} (hunbuilt : journal.memory.find? (cell.scope.cell label) = none)
    (hraised : Operand.deferred (world.callback cell.scope cell.grammar) = .error fault) :
    Enters world fuel cell label name journal
      (.faulted fault (journal.noteAll
        [.entering (cell.scope.cell label), .building (cell.scope.cell label) name]))
  /-- The callback returns a parser, and the cell is built. -/
  | built {p : Grammar} {memory : Memory}
    (hunbuilt : journal.memory.find? (cell.scope.cell label) = none)
    (hreturned : Operand.deferred (world.callback cell.scope cell.grammar) = .ok p)
    (hmemory : memory = world.building fuel journal.memory (cell.scope.cell label)
      ⟨cell.scope.inside cell.grammar, p⟩) :
    Enters world fuel cell label name journal
      (.done (world.now fuel memory ⟨cell.scope.inside cell.grammar, p⟩)
        ((journal.noteAll [.entering (cell.scope.cell label),
          .building (cell.scope.cell label) name, .built (cell.scope.cell label)]).remember memory))

section Entry

variable {world : World} {cell : Closure} {label : Nat} {journal : Journal}

/-- The first parse function of a cell that has been built goes on with what the parser does that it
holds. -/
theorem first_of_held (fuel : Nat) (name : String) {built : Built}
    (hbuilt : journal.memory.find? (cell.scope.cell label) = some built) :
    world.first fuel cell label name journal =
      .done (world.now fuel journal.memory built.parser)
        (journal.note (.entering (cell.scope.cell label))) := by
  simp only [first, force, Run.bind_apply, Run.note, Run.fetch, Journal.note, hbuilt]
  exact world.current_apply _ _ _

/-- The callback comes to a fault. -/
theorem first_of_raised (fuel : Nat) (name : String) {fault : Fault}
    (hunbuilt : journal.memory.find? (cell.scope.cell label) = none)
    (hraised : Operand.deferred (world.callback cell.scope cell.grammar) = .error fault) :
    world.first fuel cell label name journal = .faulted fault (journal.noteAll
      [.entering (cell.scope.cell label), .building (cell.scope.cell label) name]) := by
  simp only [first, force, Run.bind_apply, Run.note, Run.fetch, Journal.note, hunbuilt, hraised]
  rfl

/-- The callback returns a parser. -/
theorem first_of_returned (fuel : Nat) (name : String) {p : Grammar}
    (hunbuilt : journal.memory.find? (cell.scope.cell label) = none)
    (hreturned : Operand.deferred (world.callback cell.scope cell.grammar) = .ok p) :
    world.first fuel cell label name journal =
      .done (world.now fuel (world.building fuel journal.memory (cell.scope.cell label)
          ⟨cell.scope.inside cell.grammar, p⟩) ⟨cell.scope.inside cell.grammar, p⟩)
        ((journal.noteAll [.entering (cell.scope.cell label),
          .building (cell.scope.cell label) name, .built (cell.scope.cell label)]).remember
            (world.building fuel journal.memory (cell.scope.cell label)
              ⟨cell.scope.inside cell.grammar, p⟩)) := by
  simp only [first, force, Run.bind_apply, Run.note, Run.fetch, Journal.note, hunbuilt, hreturned,
    current_apply]
  rfl

/-- A cell that has been built goes on with the parse function that it has taken over. -/
theorem visit_of_held (fuel : Nat) (name : String) {built : Built}
    (hbuilt : journal.memory.find? (cell.scope.cell label) = some built) :
    world.visit fuel cell label name journal =
      .done (built.entry, built.distance) (journal.note (.entering (cell.scope.cell label))) := by
  simp only [visit, Run.bind_apply, Run.fetch, hbuilt]
  rfl

/-- A cell that has not been built has its first parse function. -/
theorem visit_of_unbuilt (fuel : Nat) (name : String)
    (hunbuilt : journal.memory.find? (cell.scope.cell label) = none) :
    world.visit fuel cell label name journal = world.first fuel cell label name journal := by
  simp only [visit, Run.bind_apply, Run.fetch, hunbuilt]

end Entry

/-- The first parse function of a cell enters it. -/
theorem enters_first (fuel : Nat) (cell : Closure) (label : Nat) (name : String)
    (journal : Journal) :
    world.Enters fuel cell label name journal (world.first fuel cell label name journal) := by
  cases hfind : journal.memory.find? (cell.scope.cell label) with
  | some built =>
    rw [first_of_held fuel name hfind]
    exact .held hfind (.inr rfl)
  | none =>
    cases hreturned : Operand.deferred (world.callback cell.scope cell.grammar) with
    | error fault =>
      rw [first_of_raised fuel name hfind hreturned]
      exact .refused hfind hreturned
    | ok p =>
      rw [first_of_returned fuel name hfind hreturned]
      exact .built hfind hreturned rfl

/-- The parse function that a cell has at the time enters it. -/
theorem enters_visit (fuel : Nat) (cell : Closure) (label : Nat) (name : String)
    (journal : Journal) :
    world.Enters fuel cell label name journal (world.visit fuel cell label name journal) := by
  cases hfind : journal.memory.find? (cell.scope.cell label) with
  | some built =>
    rw [visit_of_held fuel name hfind]
    exact .held hfind (.inl rfl)
  | none =>
    rw [visit_of_unbuilt fuel name hfind]
    exact world.enters_first fuel cell label name journal

/-- Either parse function of a cell enters it. -/
theorem enters_of_eq {fuel : Nat} {cell : Closure} {label : Nat} {name : String}
    {found : Run (Closure × Nat)}
    (hfound : found = world.visit fuel cell label name ∨ found = world.first fuel cell label name)
    (journal : Journal) : world.Enters fuel cell label name journal (found journal) := by
  rcases hfound with rfl | rfl
  · exact world.enters_visit fuel cell label name journal
  · exact world.enters_first fuel cell label name journal

/-! ### What is good -/

/-- Whatever a good parser leads to in a world is good. -/
structure Closed (good : Closure → Prop) : Prop where
  object : ∀ (fuel : Nat) {parser : Closure}, good parser →
    good (world.definitions.object fuel parser).1
  copied : ∀ {scope : Scope} {p : Grammar}, good ⟨scope, p⟩ → good ⟨scope, .copied p⟩
  returned : ∀ {cell : Closure} {label : Nat} {name : String} {p : Grammar},
    cell.grammar.cell? = some (label, name) → good cell →
    Operand.deferred (world.callback cell.scope cell.grammar) = .ok p →
    good ⟨cell.scope.inside cell.grammar, p⟩

/-- Allowed parts lead to allowed parts. Assumes: every copy is allowed. -/
theorem closed_everywhere {world : World} {allowed : Grammar → Prop}
    (hworld : world.Everywhere allowed) (hcopied : ∀ p, allowed (.copied p)) :
    world.Closed (Closure.Everywhere allowed) where
  object := fun fuel _ hparser ↦ Definitions.everywhere_object hworld.1 fuel hparser
  copied := fun h ↦ ⟨h.scope, hcopied _, h.grammar⟩
  returned := fun _ hcell hreturned ↦ hworld.2 _ _ _ hcell.scope hcell.grammar hreturned

section Closed

variable {world : World} {good : Closure → Prop} {fuel : Nat} {memory : Memory} {parser : Closure}

/-- The parse function that a good parser has is good. -/
theorem Closed.now (h : world.Closed good) (hmemory : memory.All good) (hparser : good parser) :
    good (world.now fuel memory parser).1 := by
  have hobject := h.object fuel hparser
  cases hcell : (world.definitions.object fuel parser).1.grammar.cell? with
  | none => rwa [now_of_noCell hcell]
  | some cell =>
    obtain ⟨label, name⟩ := cell
    cases hfind : memory.find? ((world.definitions.object fuel parser).1.scope.cell label) with
    | some built =>
      rw [now_of_built hcell hfind]
      exact (hmemory _ built hfind).2
    | none =>
      rw [now_of_unbuilt hcell hfind]
      exact h.copied hobject

/-- Entering a good cell goes on with something good, and what the cells hold stays good. -/
theorem Enters.keeps (h : world.Closed good) {cell : Closure} {label : Nat} {name : String}
    {journal final : Journal} {found : Closure × Nat}
    (henters : world.Enters fuel cell label name journal (.done found final))
    (hlabel : cell.grammar.cell? = some (label, name)) (hcell : good cell)
    (hmemory : journal.memory.All good) : good found.1 ∧ final.memory.All good := by
  cases henters with
  | @held built found hbuilt hfound =>
    obtain ⟨hparser, hentry⟩ := hmemory _ built hbuilt
    refine ⟨?_, hmemory⟩
    rcases hfound with rfl | rfl
    · exact hentry
    · exact h.now hmemory hparser
  | @built p memory hunbuilt hreturned hbuilding =>
    have hparser := h.returned hlabel hcell hreturned
    have hbuilt : memory.All good := hbuilding ▸ hmemory.store _ hparser (h.now hmemory hparser)
    exact ⟨h.now hbuilt hparser, hbuilt⟩

end Closed

/-! ### Runs of grammars -/

/-- A parse function goes on with what has been found out about a cell. -/
def goOn (found : Run (Closure × Nat)) (enter : Nat → Closure → Parse) : Parse := fun place ↦ do
  let (entry, distance) ← found
  enter distance entry place

section Remembering

variable (enter : Nat → Closure → Parse) (depth : Nat) {scope : Scope} {p : Grammar} {label : Nat}
  {name : String}

/-- The parse function of a cell goes on with what the cell leads to. -/
theorem run_cell {cell : Closure} (hcell : cell.grammar.cell? = some (label, name)) :
    remembering.run world enter depth cell = goOn (world.visit depth cell label name) enter := by
  simp only [remembering.run, hcell]
  rfl

/-- The copy of a parse function is that of the parser, unless it is the first one of a cell. -/
theorem copied_of_noCell (parse : Parse)
    (h : (world.definitions.object depth ⟨scope, p⟩).1.grammar.cell? = none) :
    (world.remembering enter depth).copied scope p parse = parse := by
  simp only [remembering, h]

theorem copied_of_cell (parse : Parse)
    (h : (world.definitions.object depth ⟨scope, p⟩).1.grammar.cell? = some (label, name)) :
    (world.remembering enter depth).copied scope p parse =
      goOn (world.first depth (world.definitions.object depth ⟨scope, p⟩).1 label name)
        fun further ↦ enter ((world.definitions.object depth ⟨scope, p⟩).2 + further) := by
  simp only [remembering, h]
  rfl

end Remembering

/-- A run of a cell goes on with what the cell leads to. -/
theorem exec_cell (bound : Nat) {scope : Scope} {p : Grammar} {label : Nat} {name : String}
    (hcell : p.cell? = some (label, name)) :
    world.exec (bound + 1) 0 ⟨scope, p⟩ =
      goOn (world.visit bound ⟨scope, p⟩ label name) (world.exec bound) := by
  have hrun : remembering.run world (world.exec bound) bound ⟨scope, p⟩ =
      goOn (world.visit bound ⟨scope, p⟩ label name) (world.exec bound) :=
    world.run_cell _ _ hcell
  rw [← hrun]
  cases p with
  | lazy _ _ | lazyShared _ _ | fix _ _ _ | unbuildable _ _ _ => rfl
  | _ => exact nomatch hcell

/-- References that have been passed count as depth. -/
theorem exec_eq (bound passed : Nat) (closure : Closure) :
    world.exec bound passed closure = world.exec (bound - passed) 0 closure := by
  induction bound generalizing passed with
  | zero => rw [Nat.zero_sub, exec, exec]
  | succ bound ih =>
    cases passed with
    | zero => rfl
    | succ passed => rw [exec, ih, Nat.succ_sub_succ]

/-- Making parsers in a run and entering cells keep a relation between parsers, as far as the cells
are made of allowed parts and lead to such. -/
structure Preserves (world : World) (allowed : Grammar → Prop) (related : Parse → Parse → Prop) :
    Prop where
  stamp : ∀ parse : Nat → Parse, (∀ stamp, related (parse stamp) (parse stamp)) →
    related (fun place ↦ do parse (← Run.stamp) place) fun place ↦ do parse (← Run.stamp) place
  cell : ∀ {fuel : Nat} {cell : Closure} {label : Nat} {name : String}
    {found : Run (Closure × Nat)},
    found = world.visit fuel cell label name ∨ found = world.first fuel cell label name →
    cell.grammar.cell? = some (label, name) → cell.Everywhere allowed →
    ∀ enter : Nat → Closure → Parse,
      (∀ passed closure, closure.Everywhere allowed →
        related (enter passed closure) (enter passed closure)) →
      related (goOn found enter) (goOn found enter)

end World

variable {allowed : Grammar → Prop} {related : Parse → Parse → Prop} {world : World}

/-- A run of a cell is related to itself, when that is so of what the cell leads to. -/
theorem World.Preserves.run (hworld : world.Preserves allowed related)
    {enter : Nat → Closure → Parse}
    (henter : ∀ passed closure, closure.Everywhere allowed →
      related (enter passed closure) (enter passed closure))
    {depth : Nat} {cell : Closure} (hcell : cell.Everywhere allowed) :
    related (remembering.run world enter depth cell) (remembering.run world enter depth cell) := by
  cases hlabel : cell.grammar.cell? with
  | none =>
    simp only [remembering.run, hlabel]
    exact henter 0 cell hcell
  | some label =>
    rw [world.run_cell enter depth hlabel]
    exact hworld.cell (.inl rfl) hlabel hcell enter henter

/-- Every run of a grammar of allowed parts is related to itself, whatever the bound. -/
theorem Grammar.Hereditary.exec (hereditary : Hereditary allowed related)
    (hdefinitions : world.definitions.Everywhere allowed) (hworld : world.Preserves allowed related)
    (bound : Nat) :
    ∀ (passed : Nat) (closure : Closure), closure.Everywhere allowed →
      related (world.exec bound passed closure) (world.exec bound passed closure) := by
  induction bound with
  | zero => exact fun _ _ _ ↦ hereditary.unfinished
  | succ bound ih =>
    intro passed closure hclosure
    cases passed with
    | succ passed => exact ih passed closure hclosure
    | zero =>
      refine hereditary.preserved.read (hereditary.preserve _)
        (fun {scope q} hq hscope hallowed ↦ ?_) (fun {scope q} hscope _ hparse ↦ ?_)
        (fun {scope q} hscope hallowed hparse ↦ ?_)
        closure.scope closure.grammar hclosure.scope hclosure.grammar
      · have hcell : Closure.Everywhere allowed ⟨scope, q⟩ := ⟨hscope, hallowed⟩
        cases q with
        | use name =>
          simp only [World.remembering]
          cases hget : world.definitions.get name with
          | error fault => exact hereditary.preserved.raise fault
          | ok p => exact ih 0 ⟨.shared name, p⟩ ⟨trivial, hdefinitions name p hget⟩
        | var name =>
          simp only [World.remembering]
          cases hlookup : scope.lookup name with
          | none => exact hereditary.preserved.raise _
          | some cell =>
            exact hworld.run ih ((Scope.everywhere_lookup hscope hlookup).elim .mk)
        | lazy _ _ | lazyShared _ _ | fix _ _ _ | unbuildable _ _ _ =>
          exact hworld.run ih hcell
        | _ => exact hq.elim
      · exact hworld.stamp _ fun stamp ↦ hparse _ hscope
      · have hparser : Closure.Everywhere allowed ⟨scope, q⟩ := ⟨hscope, hallowed⟩
        have hobject := Definitions.everywhere_object hdefinitions bound hparser
        cases hcell : (world.definitions.object bound ⟨scope, q⟩).1.grammar.cell? with
        | none =>
          rw [world.copied_of_noCell _ _ _ hcell]
          exact hparse
        | some label =>
          rw [world.copied_of_cell _ _ _ hcell]
          exact hworld.cell (.inr rfl) hcell hobject _ fun passed closure hclosure ↦
            ih _ closure hclosure

end DiagnosticParsing
