import DiagnosticParsing.Value

/-!
# Sequences

A `Sequence` is what a stream runs over: a text, a list, a tuple or a run of bytes, held so that any
element can be reached at once. `Sequence.toList` is its view as a list of values, and the lemmas
say what each operation does to that view.
-/

set_option autoImplicit false

namespace DiagnosticParsing

/-- A sequence of elements with constant-time access. -/
inductive Sequence where
  /-- A text; its elements are texts of one character. -/
  | text (chars : Array Char)
  /-- A list. -/
  | list (items : Array Value)
  /-- A tuple. -/
  | tuple (items : Array Value)
  /-- A run of bytes; its elements are numbers. -/
  | bytes (items : Array UInt8)
  /-- A run of bytes that can change. -/
  | byteArray (items : Array UInt8)

namespace Sequence

/-- The sequence that a value is, if it is one. -/
def ofValue? : Value → Option Sequence
  | .text s => some (.text s.toList.toArray)
  | .list items => some (.list items.toArray)
  | .tuple items => some (.tuple items.toArray)
  | .bytes items => some (.bytes items.toArray)
  | .byteArray items => some (.byteArray items.toArray)
  | _ => none

/-- The value that a sequence is. -/
def toValue : Sequence → Value
  | .text chars => .text (String.ofList chars.toList)
  | .list items => .list items.toList
  | .tuple items => .tuple items.toList
  | .bytes items => .bytes items.toList
  | .byteArray items => .byteArray items.toList

/-- The elements in order. -/
def toList : Sequence → List Value
  | .text chars => chars.toList.map .char
  | .list items => items.toList
  | .tuple items => items.toList
  | .bytes items => items.toList.map .byte
  | .byteArray items => items.toList.map .byte

/-- The number of elements. -/
def size : Sequence → Nat
  | .text chars => chars.size
  | .list items => items.size
  | .tuple items => items.size
  | .bytes items => items.size
  | .byteArray items => items.size

/-- The element at an index. -/
def get? (sequence : Sequence) (index : Nat) : Option Value :=
  match sequence with
  | .text chars => chars[index]?.map .char
  | .list items => items[index]?
  | .tuple items => items[index]?
  | .bytes items => items[index]?.map .byte
  | .byteArray items => items[index]?.map .byte

/-- The part from one index up to another. -/
def slice (sequence : Sequence) (start stop : Nat) : Sequence :=
  match sequence with
  | .text chars => .text (chars.extract start stop)
  | .list items => .list (items.extract start stop)
  | .tuple items => .tuple (items.extract start stop)
  | .bytes items => .bytes (items.extract start stop)
  | .byteArray items => .byteArray (items.extract start stop)

/-- The part from an index on. -/
def drop (sequence : Sequence) (start : Nat) : Sequence :=
  sequence.slice start sequence.size

@[simp]
theorem length_toList (sequence : Sequence) : sequence.toList.length = sequence.size := by
  cases sequence <;> simp [toList, size]

@[simp]
theorem getElem?_toList (sequence : Sequence) (index : Nat) :
    sequence.toList[index]? = sequence.get? index := by
  cases sequence <;> simp [toList, get?]

@[simp]
theorem toList_slice (sequence : Sequence) (start stop : Nat) :
    (sequence.slice start stop).toList = (sequence.toList.take stop).drop start := by
  cases sequence <;> simp [toList, slice, List.extract_eq_take_drop, List.drop_take]

@[simp]
theorem toList_drop (sequence : Sequence) (start : Nat) :
    (sequence.drop start).toList = sequence.toList.drop start := by
  rw [drop, toList_slice, ← length_toList, List.take_length]

end Sequence

end DiagnosticParsing
