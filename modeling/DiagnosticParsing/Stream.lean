import DiagnosticParsing.Fault
import DiagnosticParsing.Position
import DiagnosticParsing.Sequence

/-!
# Streams

A `Stream` is a place in a sequence: the number of elements consumed and the position that goes with
it. `Stream.next` consumes one element. How far an element moves the position is the source's own
rule (`Advance`); the sequence itself is never cut.
-/

set_option autoImplicit false

namespace DiagnosticParsing

/-- A rule for the position behind an element. -/
abbrev Advance :=
  Position → Value → Except Fault Position

namespace Advance

/-- The given element starts a new row and any other one moves one column on. -/
def newline (mark : Value) : Advance :=
  fun position element ↦ .ok (position.advance element mark)

/-- Elements do not move the position. -/
def stay : Advance :=
  fun position _ ↦ .ok position

/-- Each element takes a row. -/
def row : Advance :=
  fun position _ ↦ .ok position.nextRow

/-- The position moves on by a number of columns. -/
def columns (position : Position) (count : Nat) : Position :=
  ⟨position.row, position.col + count⟩

/-- An element takes as many columns as it is long. -/
def length : Advance :=
  fun position element ↦
    match element.elements? with
    | some items => .ok (columns position items.length)
    | none => .error (.unsuitable ("object of type '" ++ element.typeName ++ "' has no len()"))

/-- A token takes as many columns as its content is long. -/
def contentLength : Advance :=
  fun position element ↦
    match element with
    | .token _ content => length position content
    | _ => .error (.missingMember element.typeName "val")

/-- The rule of a sequence that comes without one: the line feed ends a row, and over bytes the byte
ten does. -/
def default : Sequence → Advance
  | .bytes _ | .byteArray _ => newline (.int 10)
  | _ => newline (.text "\n")

end Advance

/-- What a stream runs over. -/
inductive Source where
  /-- A text, read by characters. -/
  | text (chars : Array Char)
  /-- Any sequence, with a rule for positions. -/
  | tokens (data : Sequence) (advance : Advance)
  /-- A text whose stream shows nothing but what is left of it. -/
  | minimal (chars : Array Char)

namespace Source

/-- The sequence under a stream. -/
def data : Source → Sequence
  | .text chars => .text chars
  | .tokens data _ => data
  | .minimal chars => .text chars

/-- The rule for positions of a source. -/
def advance : Source → Advance
  | .tokens _ advance => advance
  | _ => .newline (.text "\n")

end Source

/-- A place in a sequence. -/
structure Stream where
  /-- What the stream runs over. -/
  source : Source
  /-- The number of elements consumed. -/
  index : Nat
  /-- The position of the next element. -/
  position : Position

namespace Stream

/-- The stream at the start of a source. -/
def start (source : Source) : Stream :=
  ⟨source, 0, .origin⟩

/-- The stream over a text. -/
def ofText (text : String) : Stream :=
  start (.text text.toList.toArray)

/-- The stream over a sequence of tokens, with the rule for positions that suits it. -/
def ofTokens (data : Sequence) : Stream :=
  start (.tokens data (.default data))

/-- The sequence under the stream. -/
def data (stream : Stream) : Sequence :=
  stream.source.data

/-- The number of elements left, which is negative for a stream set up beyond the end. -/
def remaining (stream : Stream) : Int :=
  (stream.data.size : Int) - stream.index

/-- Whether exactly nothing is left. -/
def isEmpty (stream : Stream) : Bool :=
  stream.remaining == 0

/-- The elements left. -/
def rest (stream : Stream) : Sequence :=
  stream.data.drop stream.index

/-- The next element, if there is one. -/
def current? (stream : Stream) : Option Value :=
  stream.data.get? stream.index

/-- Consumes one element. The value is null at the end of the input, where the stream stays. -/
def next (stream : Stream) : Except Fault (Value × Stream) :=
  match stream.current? with
  | none => .ok (.null, stream)
  | some element =>
    (stream.source.advance stream.position element).map fun position ↦
      (element, ⟨stream.source, stream.index + 1, position⟩)

/-- The stream as a step leaves it whose rule for positions raised: the element is consumed and the
position stands. -/
def stranded (stream : Stream) : Stream :=
  { stream with index := stream.index + 1 }

/-- The stream after a number of steps. -/
def advance (stream : Stream) : Nat → Except Fault Stream
  | 0 => .ok stream
  | count + 1 => do
    let step ← stream.next
    step.2.advance count

/-- The sequence for matchers that work in place, and the index in it to start from. -/
def buffer (stream : Stream) : Sequence × Nat :=
  match stream.source with
  | .minimal _ => (stream.rest, 0)
  | _ => (stream.data, stream.index)

/-- How many elements a preview shows. -/
def previewLength : Nat :=
  30

/-- The written form of the first elements left, with dots when there are more. -/
def preview (stream : Stream) : String :=
  let shown := stream.data.slice stream.index (stream.index + previewLength)
  shown.toValue.repr ++ if stream.remaining > previewLength then "..." else ""

/-- The written form of a stream. -/
def display (stream : Stream) : String :=
  let name := match stream.source with
    | .text _ => "CharStream"
    | .tokens _ _ => "TokenStream"
    | .minimal _ => "Stream"
  name ++ "(" ++ stream.preview ++ " at " ++ stream.position.display ++ ")"

/-- Whether two streams stand at the same place of equal sequences. The rule for positions does not
count. -/
def same (stream other : Stream) : Bool :=
  stream.data.toValue.same other.data.toValue && stream.index == other.index &&
    stream.position == other.position

end Stream

end DiagnosticParsing
