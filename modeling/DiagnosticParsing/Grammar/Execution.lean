import DiagnosticParsing.Grammar.Construction
import DiagnosticParsing.Grammar.Reading

/-!
# Execution of grammars

A run of a grammar keeps a memory of its cells. A cell is made with a parse function that builds it:
the first parse function invokes the callback, unless that has been done, and goes on with the parse
function of what the callback has returned (`World.first`). A cell that gets built keeps the parser
returned, and takes over the parse function which that parser has at the time (`World.force`). From
then on whoever runs the cell runs that function (`World.visit`), and the cell itself does nothing
more. What has been copied before is still the first parse function. It finds the cell built and
asks the parser that it holds, which may be a cell in turn, for the parse function of the day.

What callbacks come to is told by a `World`. They can raise a fault or return something that is no
parser, and then the cell stays as it was. `Definitions.world` is the world in which the callback of
a cell returns what stands behind the cell.

A bound limits the rounds of repetitions and the depth to which references can be nested. A parse
function that was taken over through a chain of cells counts as all the references of the chain, so
that it makes no difference to the depth of a run what has been built before. `Grammar.run` takes a
bound that no run of practical length uses up.
-/

set_option autoImplicit false

namespace DiagnosticParsing

/-- What grammars refer to, and what comes of invoking the callbacks of cells. -/
structure World where
  /-- The definitions of names. -/
  definitions : Definitions
  /-- What the callback of a cell in a scope returns, or the fault that it raises. -/
  callback : Scope → Grammar → Except Fault Operand

namespace Definitions

/-- The world in which the callback of a cell returns what stands behind the cell. -/
def world (definitions : Definitions) : World where
  definitions
  callback scope cell := (definitions.behind scope cell).map fun closure ↦ .parser closure.grammar

/-- The parser for which a chain of names stands, and the number of shared parsers on the way. -/
def object (definitions : Definitions) : (fuel : Nat) → Closure → Closure × Nat
  | fuel + 1, ⟨scope, .use name⟩ =>
    match definitions.get name with
    | .ok p =>
      let (found, distance) := object definitions fuel ⟨.shared name, p⟩
      (found, distance + 1)
    | .error _ => (⟨scope, .use name⟩, 0)
  | _, ⟨scope, .var name⟩ =>
    match scope.lookup name with
    | some cell => (cell, 0)
    | .none => (⟨scope, .var name⟩, 0)
  | _, closure => (closure, 0)

end Definitions

namespace World

variable (world : World)

/-- The parse function that a parser has now, and the number of references that lie between. A cell
that has not been built has its first one. -/
def current (fuel : Nat) (parser : Closure) : Run (Closure × Nat) := do
  let (object, distance) := world.definitions.object fuel parser
  match object.grammar.cell? with
  | none => return (object, distance)
  | some (label, _) =>
    match ← Run.fetch (object.scope.cell label) with
    | some built => return (built.entry, distance + (built.distance + 1))
    | none => return (⟨object.scope, .copied object.grammar⟩, distance)

/-- The parser that a cell holds. It is built if it has not been built before. -/
def force (fuel : Nat) (cell : Closure) (label : Nat) (name : String) : Run Closure := do
  let address := cell.scope.cell label
  match ← Run.fetch address with
  | some built => return built.parser
  | none =>
    Run.note (.building address name)
    match Operand.deferred (world.callback cell.scope cell.grammar) with
    | .error fault => Run.fault fault
    | .ok p =>
      Run.note (.built address)
      let parser : Closure := ⟨cell.scope.inside cell.grammar, p⟩
      let (entry, distance) ← world.current fuel parser
      Run.store address ⟨parser, entry, distance⟩
      return parser

/-- What the first parse function of a cell goes on with. -/
def first (fuel : Nat) (cell : Closure) (label : Nat) (name : String) : Run (Closure × Nat) := do
  Run.note (.entering (cell.scope.cell label))
  world.current fuel (← world.force fuel cell label name)

/-- What the parse function of a cell goes on with that it has now. -/
def visit (fuel : Nat) (cell : Closure) (label : Nat) (name : String) : Run (Closure × Nat) := do
  match ← Run.fetch (cell.scope.cell label) with
  | some built =>
    Run.note (.entering (cell.scope.cell label))
    return (built.entry, built.distance)
  | none => world.first fuel cell label name

/-- The reading in which cells keep what has been built, with a depth of references that are left.
`enter` tells what a grammar does behind a reference and a number of further ones. -/
def remembering (enter : Nat → Closure → Parse) (depth : Nat) : Reading Scope where
  loops := .within (depth + 1)
  refer scope p :=
    match p with
    | .use name =>
      match world.definitions.get name with
      | .ok p => enter 0 ⟨.shared name, p⟩
      | .error fault => Parse.raise fault
    | .var name =>
      match scope.lookup name with
      | some cell => run cell
      | none => Parse.raise (.missingKey (.text name))
    | cell => run ⟨scope, cell⟩
  afresh scope parse := fun place ↦ do
    let stamp ← Run.stamp
    parse (.afresh stamp scope) place
  copied scope p parse :=
    let (object, distance) := world.definitions.object depth ⟨scope, p⟩
    match object.grammar.cell? with
    | none => parse
    | some (label, name) => fun place ↦ do
      let (entry, further) ← world.first depth object label name
      enter (distance + further) entry place
where
  /-- Runs a cell. -/
  run (cell : Closure) : Parse :=
    match cell.grammar.cell? with
    | none => enter 0 cell
    | some (label, name) => fun place ↦ do
      let (entry, distance) ← world.visit depth cell label name
      enter distance entry place

/-- Runs a grammar in a scope behind a number of references, within a bound on the rounds of its
repetitions and on the depth of references. -/
def exec : (bound : Nat) → (passed : Nat) → Closure → Parse
  | 0, _, _ => fun _ ↦ Run.unfinished
  | bound + 1, 0, closure =>
    closure.grammar.read (world.remembering (exec bound) bound) closure.scope
  | bound + 1, passed + 1, closure => exec bound passed closure

end World

namespace Grammar

/-- Runs a grammar at a place. A reply that is neither a failure nor of two parts is the fault of
the parse function that gave it. -/
def runWithin (world : World) (bound : Nat) (p : Grammar) (place : Place) : Run Reply := do
  let reply ← world.exec bound 0 ⟨.top, p⟩ place
  Run.ofExcept reply.checked

/-- A bound that no run of practical length uses up. -/
def ampleBound : Nat :=
  1000000000000

/-- Runs a grammar at a place, where callbacks return what stands behind their cells. -/
def run (definitions : Definitions) (p : Grammar) (place : Place) : Run Reply :=
  p.runWithin definitions.world ampleBound place

end Grammar

end DiagnosticParsing
