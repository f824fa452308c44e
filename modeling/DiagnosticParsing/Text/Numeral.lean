/-!
# Numerals

Reading a decimal numeral with an optional sign and blanks around it, and writing a hexadecimal one.
-/

set_option autoImplicit false

namespace DiagnosticParsing.Text

/-- White space of any script and the separators of ASCII. -/
def isBlank (c : Char) : Bool :=
  let code := c.toNat
  (9 ≤ code && code ≤ 13) || (28 ≤ code && code ≤ 32) || code == 133 || code == 160 ||
    code == 5760 || (8192 ≤ code && code ≤ 8202) || code == 8232 || code == 8233 ||
    code == 8239 || code == 8287 || code == 12288

/-- The number that a run of digits denotes; none for the empty run and for anything else. -/
def digitsValue? (digits : List Char) : Option Nat :=
  if digits.isEmpty || !digits.all Char.isDigit then none
  else some (digits.foldl (fun n c ↦ 10 * n + (c.toNat - 48)) 0)

/-- The number that a numeral denotes: an optional sign and digits, between optional blanks. -/
def numeral? (s : String) : Option Int :=
  let inner := ((s.toList.dropWhile isBlank).reverse.dropWhile isBlank).reverse
  match inner with
  | '-' :: digits => (digitsValue? digits).map fun n ↦ -(n : Int)
  | '+' :: digits => (digitsValue? digits).map fun n ↦ (n : Int)
  | digits => (digitsValue? digits).map fun n ↦ (n : Int)

/-- The hexadecimal numeral of an integer. -/
def hexNumeral (n : Int) : String :=
  (if n < 0 then "-0x" else "0x") ++ String.ofList (Nat.toDigits 16 n.natAbs)

end DiagnosticParsing.Text
