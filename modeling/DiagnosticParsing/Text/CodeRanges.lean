/-!
# Sets of code points

A property of characters beyond ASCII is a table of inclusive ranges of code points.
`CodeRanges.contains` reads such a table.
-/

set_option autoImplicit false

namespace DiagnosticParsing.Text

/-- Inclusive ranges of code points in ascending order. -/
structure CodeRanges where
  /-- The first and the last code point of each range. -/
  ranges : Array (Nat × Nat)

/-- Membership of a code point in one of the ranges. -/
def CodeRanges.contains (table : CodeRanges) (code : Nat) : Bool :=
  table.ranges.any fun range ↦ range.1 ≤ code && code ≤ range.2

/-- Inclusive ranges of code points, of each of which only every `stride`-th one counts, moved by a
common distance. -/
structure ShiftedRange where
  /-- The first code point. -/
  first : Nat
  /-- The last code point. -/
  last : Nat
  /-- The distance between two members. -/
  stride : Nat
  /-- The distance from a member to its image. -/
  shift : Int

/-- Membership of a code point in a strided range. -/
def ShiftedRange.contains (range : ShiftedRange) (code : Nat) : Bool :=
  range.first ≤ code && code ≤ range.last && (code - range.first) % range.stride == 0

end DiagnosticParsing.Text
