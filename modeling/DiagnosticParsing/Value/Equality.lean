import DiagnosticParsing.Value

/-!
# Equality of values

`Value.same` is the equality that parsers test. It is structural; a truth value equals the number
one or zero, and the two kinds of byte runs are equal when their contents are. A list never equals a
tuple, and a function equals nothing.
-/

set_option autoImplicit false

namespace DiagnosticParsing.Value

mutual

/-- Equality of two values. -/
def same : Value → Value → Bool
  | .null, .null => true
  | .text s, .text t => s == t
  | .list xs, .list ys => sameList xs ys
  | .tuple xs, .tuple ys => sameList xs ys
  | .token kind x, .token kind' y => kind == kind' && same x y
  | .bool b, y => some (if b then 1 else 0) == y.number?
  | .int n, y => some n == y.number?
  | .bytes xs, y => some xs == y.bytes?
  | .byteArray xs, y => some xs == y.bytes?
  | _, _ => false

/-- Equality of two lists of values, element by element. -/
def sameList : List Value → List Value → Bool
  | [], [] => true
  | x :: xs, y :: ys => same x y && sameList xs ys
  | _, _ => false

end

/-- Texts of one character are equal when the characters are. -/
theorem same_char (c d : Char) : (char c).same (char d) = (c == d) := by
  simp only [char, same]
  by_cases h : c = d
  · rw [h, beq_self_eq_true, beq_self_eq_true]
  · rw [beq_false_of_ne h, beq_false_of_ne fun heq ↦ h (String.singleton_inj.mp heq)]

end DiagnosticParsing.Value
