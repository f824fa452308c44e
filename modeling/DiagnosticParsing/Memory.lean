import DiagnosticParsing.Grammar
import Std.Data.HashMap.Basic

/-!
# Memories

A `Memory` is what the cells hold between one entry and the next. A cell that has been built holds
the parser that its callback returned, and the parse function that it has taken over from that
parser for its own (`Built`). A cell of which nothing is known is as it was made: it holds no
parser, and its parse function is the one that invokes the callback.

The memory also counts the parsers that have been made in runs. Each of them gets a stamp of its
own, so that its cells are not those of any other one.
-/

set_option autoImplicit false

namespace DiagnosticParsing

/-- What a cell holds once it has been built. -/
structure Built where
  /-- The parser that the callback returned. -/
  parser : Closure
  /-- The parse function that the parser had at that time, which is now the one of the cell. -/
  entry : Closure
  /-- The number of references that lie between the parser and the entry. -/
  distance : Nat

/-- What is kept from one run to the next. -/
structure Memory where
  /-- What the cells hold that have been built. -/
  cells : Std.HashMap Cell Built
  /-- The number of parsers made in runs. -/
  stamps : Nat

namespace Memory

/-- Nothing has been built. -/
def empty : Memory :=
  ⟨∅, 0⟩

instance : EmptyCollection Memory :=
  ⟨empty⟩

/-- What a cell holds, if it has been built. -/
def find? (memory : Memory) (cell : Cell) : Option Built :=
  memory.cells[cell]?

/-- The memory in which a cell has been built. -/
def store (memory : Memory) (cell : Cell) (built : Built) : Memory :=
  ⟨memory.cells.insert cell built, memory.stamps⟩

/-- The memory in which one more parser has been made. -/
def stamped (memory : Memory) : Memory :=
  ⟨memory.cells, memory.stamps + 1⟩

end Memory

end DiagnosticParsing
