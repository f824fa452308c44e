import DiagnosticParsing.Stream
import DiagnosticParsing.Value.Arithmetic

/-!
# Places and replies

A parse starts at a `Place` and ends with a `Reply`. The place is a stream, together with the slot
of the session that holds it while nothing has been consumed from it; a stream consumed from is a
copy and belongs to no slot. A parse function written by hand may reply with anything, so a place
may also be a value that is no stream at all, on which every operation of a stream raises, and a
reply may be malformed.
-/

set_option autoImplicit false

namespace DiagnosticParsing

/-- What a parse stands on. -/
inductive Place where
  /-- A stream, and the slot that holds it. -/
  | stream (slot : Option Nat) (stream : Stream)
  /-- A value that is no stream. -/
  | stray (v : Value)

namespace Place

/-- A stream that no slot holds. -/
abbrev fresh (stream : Stream) : Place :=
  .stream none stream

/-- The fault of asking a value that is no stream for what only a stream has. -/
def lacking (v : Value) (member : String) : Fault :=
  .missingMember v.typeName member

/-- The stream at a place, asked for its `member`. -/
def stream? (place : Place) (member : String) : Except Fault Stream :=
  match place with
  | .stream _ s => .ok s
  | .stray v => .error (lacking v member)

/-- The position of a place. -/
def position (place : Place) : Except Fault Position :=
  (place.stream? "position").map (·.position)

/-- The number of elements consumed at a place. A sequence has an index of its own, which does not
work without an argument. -/
def index (place : Place) : Except Fault Nat :=
  match place with
  | .stream _ s => .ok s.index
  | .stray v =>
    match v.elements? with
    | some _ => .error (.unsuitable "index expected at least 1 argument, got 0")
    | none => .error (lacking v "index")

/-- The preview of what is left at a place. -/
def preview (place : Place) : Except Fault String :=
  (place.stream? "as_text").map (·.preview)

end Place

/-- What a parse answers. -/
inductive Reply where
  /-- The parse failed; the reasons are in the log. -/
  | failure
  /-- The parse succeeded with a value and left the rest of the input. -/
  | success (rest : Place) (value : Value)
  /-- A parse function written by hand answered something that is no reply. -/
  | malformed (v : Value)

namespace Reply

/-- The reply that a value is. -/
def ofValue : Value → Reply
  | .null => .failure
  | .tuple [rest, value] => .success (.stray rest) value
  | v => .malformed v

/-- The two parts of a reply that is no failure. -/
def parts : Reply → Except Fault (Place × Value)
  | .failure => .error (.unsuitable "cannot unpack non-iterable NoneType object")
  | .success rest value => .ok (rest, value)
  | .malformed v =>
    match v.elements? with
    | some [rest, value] => .ok (.stray rest, value)
    | some items => .error (if items.length < 2 then .tooFewParts items.length else .tooManyParts)
    | none => .error (.unsuitable ("cannot unpack non-iterable " ++ v.typeName ++ " object"))

/-- The first part of a reply that is no failure. -/
def first : Reply → Except Fault Place
  | .failure => .error (.unsuitable "'NoneType' object is not subscriptable")
  | .success rest _ => .ok rest
  | .malformed v => (v.at? 0).map .stray

/-- The second part of a reply that is no failure. -/
def second : Reply → Except Fault Value
  | .failure => .error (.unsuitable "'NoneType' object is not subscriptable")
  | .success _ value => .ok value
  | .malformed v => v.at? 1

/-- A reply that is a failure or has exactly two parts; anything else is the fault of the parse
function. -/
def checked : Reply → Except Fault Reply
  | .malformed v => .error (.malformedReply v)
  | reply => .ok reply

end Reply

end DiagnosticParsing
