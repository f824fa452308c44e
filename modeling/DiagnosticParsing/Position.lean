import DiagnosticParsing.Value.Equality

/-!
# Positions

A `Position` is a row and a column, both counted from zero and ordered by row first. Consuming an
element moves it one column on, or to the start of the next row when the element is the newline in
force (`Position.advance`).
-/

set_option autoImplicit false

namespace DiagnosticParsing

/-- A place in the input by row and column. -/
structure Position where
  /-- The row, from zero. -/
  row : Nat
  /-- The column, from zero. -/
  col : Nat
  deriving DecidableEq, Inhabited

namespace Position

/-- Where every input starts unless told otherwise. -/
def origin : Position :=
  ⟨0, 0⟩

/-- The next column. -/
def nextColumn (position : Position) : Position :=
  ⟨position.row, position.col + 1⟩

/-- The start of the next row. -/
def nextRow (position : Position) : Position :=
  ⟨position.row + 1, 0⟩

/-- The position behind an element, when `newline` is what ends a row. -/
def advance (position : Position) (element newline : Value) : Position :=
  if element.same newline then position.nextRow else position.nextColumn

/-- A position comes before another when its row is smaller, or its column in the same row. -/
instance : LT Position :=
  ⟨fun p q ↦ p.row < q.row ∨ (p.row = q.row ∧ p.col < q.col)⟩

/-- The order of positions that goes with `<`. -/
instance : LE Position :=
  ⟨fun p q ↦ p < q ∨ p = q⟩

instance (p q : Position) : Decidable (p < q) :=
  inferInstanceAs (Decidable (p.row < q.row ∨ (p.row = q.row ∧ p.col < q.col)))

instance (p q : Position) : Decidable (p ≤ q) :=
  inferInstanceAs (Decidable (p < q ∨ p = q))

/-- The written form of a position: row, colon, column. -/
def display (position : Position) : String :=
  toString position.row ++ ":" ++ toString position.col

/-- Positions in ascending order. -/
def sort (positions : List Position) : List Position :=
  positions.mergeSort fun p q ↦ decide (p ≤ q)

end Position

end DiagnosticParsing
