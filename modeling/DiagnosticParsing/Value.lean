/-!
# Values

Parsers read and produce `Value`s: the null value, truth values, integers, texts, lists, tuples,
runs of bytes, tokens of a lexer, and functions. A function is data too: `Function` takes one
argument, `Operation` two, and `Condition` judges a value. What they compute is said in
`DiagnosticParsing.Value.Application`.
-/

set_option autoImplicit false

namespace DiagnosticParsing

/-- A function of two arguments. -/
inductive Operation where
  /-- Sum of numbers, or concatenation of two sequences of one kind. -/
  | add
  /-- Difference of numbers. -/
  | sub
  /-- Product of numbers, or a sequence repeated. -/
  | mul
  /-- Quotient rounded down. -/
  | floorDiv
  /-- Power. -/
  | pow
  /-- Whether the first argument is less than the second. -/
  | less
  /-- Whether the arguments are equal. -/
  | equal
  /-- The tuple of both arguments. -/
  | pair
  /-- The first argument. -/
  | first
  /-- The second argument. -/
  | second
  /-- The list of a name and both arguments. -/
  | node (name : String)
  /-- The function that applies the first argument to what the second one gives. -/
  | compose
  /-- Raises an exception of the given kind. -/
  | raise (kind : String) (text : Option String)

mutual

/-- A value that parsers read, produce and compute with. -/
inductive Value where
  /-- The value that stands for nothing. -/
  | null
  /-- A truth value, equal to the number one or zero. -/
  | bool (b : Bool)
  /-- An integer. -/
  | int (n : Int)
  /-- A text. -/
  | text (s : String)
  /-- A list. -/
  | list (items : List Value)
  /-- A tuple. -/
  | tuple (items : List Value)
  /-- A run of bytes. -/
  | bytes (items : List UInt8)
  /-- A run of bytes that can change, written differently and equal to `bytes` of the same content.
  -/
  | byteArray (items : List UInt8)
  /-- A token of a lexer, with the kind it belongs to. -/
  | token (kind : String) (content : Value)
  /-- A function of one argument. -/
  | function (f : Function)
  /-- A function of two arguments. -/
  | operation (g : Operation)

/-- A function of one argument. -/
inductive Function where
  /-- The argument itself. -/
  | identity
  /-- The written form of the argument. -/
  | repr
  /-- The argument as text. -/
  | toText
  /-- The capital form of a text. -/
  | upper
  /-- The number of elements. -/
  | length
  /-- The texts of a sequence one after the other. -/
  | join
  /-- The integer that a numeral denotes. -/
  | toInt
  /-- The negative of a number. -/
  | negate
  /-- The successor of a number. -/
  | increment
  /-- The tuple of the argument and itself. -/
  | duplicate
  /-- The element at index zero. -/
  | first
  /-- The element at index one. -/
  | second
  /-- Twice a number, or a sequence followed by itself. -/
  | double
  /-- The hexadecimal numeral of an integer. -/
  | toHex
  /-- The kind of a token. -/
  | tokenKind
  /-- The content of a token. -/
  | tokenContent
  /-- The list of the elements of a sequence. -/
  | toList
  /-- The first element of a pair in front of its second, a list. -/
  | cons
  /-- A fixed value. -/
  | const (v : Value)
  /-- The list of a name and the argument. -/
  | node (name : String)
  /-- Raises an exception of the given kind. -/
  | raise (kind : String) (text : Option String)
  /-- The value of the first equal key of a table. -/
  | lookup (table : List (Value × Value))
  /-- The argument if it is less than the bound, else null. -/
  | ifBelow (bound : Value)
  /-- The argument if the condition holds of it, else null. -/
  | whenHolds (condition : Condition)
  /-- The content of a token of the given kind, else null. -/
  | ofKind (kind : String)
  /-- The argument with something appended. -/
  | append (suffix : Value)
  /-- The second function after the first. -/
  | andThen (f g : Function)
  /-- The function that waits for the second argument of the operation. -/
  | curry (g : Operation)
  /-- An operation with its first argument given. -/
  | applied (g : Operation) (x : Value)
  /-- The first value, applied to what the second one gives. -/
  | composed (f g : Value)
  /-- The same function, which reports each of its calls under a name. -/
  | reporting (id : Value) (f : Function)

/-- A condition on a value. -/
inductive Condition where
  /-- A text with a cased character and no small one. -/
  | upper
  /-- A text of letters only. -/
  | alphabetic
  /-- A text of digits only. -/
  | digits
  /-- A text of letters, digits and numbers only. -/
  | alphanumeric
  /-- Holds of everything. -/
  | always
  /-- Holds of nothing. -/
  | never
  /-- Holds of what counts as true. -/
  | truthy
  /-- Equality to a value. -/
  | equals (v : Value)
  /-- Equality to one of the values. -/
  | member (vs : List Value)
  /-- Between two bounds, both included. -/
  | between (low high : Value)
  /-- The opposite of a condition. -/
  | negation (condition : Condition)

end

instance : Inhabited Value := ⟨.null⟩

namespace Value

/-- The text of one character. -/
def char (c : Char) : Value :=
  .text (String.singleton c)

/-- The number of a byte. -/
def byte (b : UInt8) : Value :=
  .int b.toNat

/-- The elements of a value that has elements. -/
def elements? : Value → Option (List Value)
  | .text s => some (s.toList.map .char)
  | .list items => some items
  | .tuple items => some items
  | .bytes items => some (items.map .byte)
  | .byteArray items => some (items.map .byte)
  | _ => none

/-- The number that a value is, truth values being one and zero. -/
def number? : Value → Option Int
  | .bool b => some (if b then 1 else 0)
  | .int n => some n
  | _ => none

/-- The bytes of a run of bytes of either kind. -/
def bytes? : Value → Option (List UInt8)
  | .bytes items => some items
  | .byteArray items => some items
  | _ => none

/-- What counts as true: everything but null, false, zero and what is empty. -/
def isTruthy : Value → Bool
  | .null => false
  | .bool b => b
  | .int n => n != 0
  | .text s => !s.isEmpty
  | .list items => !items.isEmpty
  | .tuple items => !items.isEmpty
  | .bytes items => !items.isEmpty
  | .byteArray items => !items.isEmpty
  | _ => true

/-- The name of the type of a value, as error texts spell it. -/
def typeName : Value → String
  | .null => "NoneType"
  | .bool _ => "bool"
  | .int _ => "int"
  | .text _ => "str"
  | .list _ => "list"
  | .tuple _ => "tuple"
  | .bytes _ => "bytes"
  | .byteArray _ => "bytearray"
  | .token _ _ => "Tok"
  | .function _ => "function"
  | .operation _ => "function"

end Value

end DiagnosticParsing
