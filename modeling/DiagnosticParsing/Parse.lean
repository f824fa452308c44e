import DiagnosticParsing.Run

/-!
# Parsing

What each way of building a parser does, as an operation on `Parse`. A parser that gives up logs why
at the place where it started, and an operation that goes on after a failure first takes back what
the failed attempt logged.
-/

set_option autoImplicit false

namespace DiagnosticParsing.Parse

open Run (ofExcept ofCall)

/-- Gives up, logging an error at a place. -/
def giveUp (place : Place) (text : String) : Run Reply := do
  let position ← ofExcept place.position
  Run.complain ⟨.error, position, text⟩
  return .failure

/-- Goes on with a reply unless it is a failure. -/
@[inline]
def whenSuccess (reply : Reply) (next : Reply → Run Reply) : Run Reply :=
  match reply with
  | .failure => pure .failure
  | reply => next reply

/-- Runs a parser and goes on with the two parts of its reply unless it failed. -/
@[inline]
def andThen (p : Parse) (next : Place → Value → Run Reply) : Parse := fun place ↦ do
  match ← p place with
  | .failure => return .failure
  | reply =>
    let (rest, value) ← ofExcept reply.parts
    next rest value

/-! ### Parsers without parts -/

/-- Succeeds with a value and consumes nothing. -/
def succeed (v : Value) : Parse := fun place ↦
  return .success place v

/-- Fails and says nothing. -/
def empty : Parse := fun _ ↦
  return .failure

/-- Succeeds where nothing is left. -/
def eof : Parse := fun place ↦ do
  let stream ← ofExcept (place.stream? "is_empty")
  if stream.isEmpty then
    return .success place .null
  giveUp place "expecting end of input."

/-- What a parser says that found the end of the input instead of an element. A null element says
the same. -/
def endOfInput : String :=
  "unexpected end of input."

/-- Consumes one element that passes a test. -/
def element (test : Value → Except Fault Bool) (describe : Value → Except Fault String) : Parse :=
  fun place ↦ do
    let stream ← ofExcept (place.stream? "copy")
    match ← ofExcept stream.next with
    | (.null, _) => giveUp place endOfInput
    | (found, rest) =>
      if ← ofExcept (test found) then
        return .success (.fresh rest) found
      giveUp place (← ofExcept (describe found))

/-- Consumes one element that a function maps to a value other than null, with that value. -/
def token (test describe : Value → Call Value) : Parse := fun place ↦ do
  let stream ← ofExcept (place.stream? "copy")
  match ← ofExcept stream.next with
  | (.null, _) => giveUp place endOfInput
  | (found, rest) =>
    match ← ofCall (test found) with
    | .null =>
      let shown ← ofCall (describe found)
      giveUp place ("unexpected " ++ shown.display ++ ".")
    | value => return .success (.fresh rest) value

/-- The stream behind the given elements, if the next ones are equal to them one by one. -/
def expectAll : List Value → Stream → Except Fault (Option Stream)
  | [], stream => .ok (some stream)
  | expected :: more, stream => do
    let (found, rest) ← stream.next
    if found.same expected then expectAll more rest else return none

/-- Consumes exactly the elements of a sequence, with that sequence as value. -/
def literal (expected : Value) : Parse := fun place ↦
  match place with
  | .stream _ stream => do
    let items ← ofExcept expected.elements
    match ← ofExcept (expectAll items stream) with
    | some rest => return .success (.fresh rest) expected
    | none => giveUp place ("expecting \"" ++ expected.display ++ "\".")
  | .stray v =>
    match v with
    | .list _ | .byteArray _ => do
      let items ← ofExcept expected.elements
      if items.isEmpty then
        return .success place expected
      Run.fault (Place.lacking v "next")
    | _ => Run.fault (Place.lacking v "copy")

/-- Consumes what a pattern matches, with the text matched as value. -/
def regex (pattern : Pattern) : Parse := fun place ↦ do
  let stream ← ofExcept (place.stream? "buffer")
  let (data, index) := stream.buffer
  match ← ofExcept (pattern.find data index) with
  | none => giveUp place ("expecting \"" ++ pattern.source.display ++ "\".")
  | some found =>
    let rest ← ofExcept (stream.advance (found.stop - index))
    return .success (.fresh rest) found.value

/-- Raises a fault. -/
def raise (fault : Fault) : Parse := fun _ ↦
  Run.fault fault

/-- Answers the same whatever the input. -/
def reply (answer : Reply) : Parse := fun _ ↦
  return answer

/-! ### Values -/

/-- Applies a function to the value of a parser. -/
def map (p : Parse) (f : Value → Call Value) : Parse :=
  andThen p fun rest value ↦ return .success rest (← ofCall (f value))

/-- Applies a function to the value of a parser; the function rejects the value by null. -/
def mapOption (p : Parse) (f : Value → Call Value) : Parse :=
  andThen p fun rest value ↦ do
    match ← ofCall (f value) with
    | .null => return .failure
    | mapped => return .success rest mapped

/-- Applies a function to the value of a parser; the function rejects the value by a fault, which is
logged where the parser started. -/
def mapResult (p : Parse) (f : Value → Call Value) : Parse := fun place ↦
  andThen p (fun rest value ↦ do
    match ← Run.attempt (f value) with
    | .ok mapped => return .success rest mapped
    | .error fault => giveUp place fault.display) place

/-- Applies the function that one parser produces to the value of the next. -/
def compose (p q : Parse) : Parse :=
  andThen p fun middle f ↦
    andThen q (fun rest value ↦ return .success rest (← ofCall (f.apply value))) middle

/-- Goes on with a parser chosen by the value of another. Choosing is a call of its own. -/
def chooseNext (p : Parse) (choose : Value → Call Unit) (next : Value → Parse) : Parse :=
  andThen p fun rest value ↦ do
    ofCall (choose value)
    next value rest

/-! ### One parser after another -/

/-- Runs two parsers and keeps both values. -/
def both (p q : Parse) : Parse :=
  andThen p fun middle first ↦
    andThen q (fun rest second ↦ return .success rest (.tuple [first, second])) middle

/-- Runs two parsers and keeps the first value. -/
def left (p q : Parse) : Parse := fun place ↦ do
  whenSuccess (← p place) fun first ↦ do
    whenSuccess (← q (← ofExcept first.first)) fun second ↦
      return .success (← ofExcept second.first) (← ofExcept first.second)

/-- Runs two parsers and keeps the second value. -/
def right (p q : Parse) : Parse := fun place ↦ do
  whenSuccess (← p place) fun first ↦ do
    q (← ofExcept first.first)

/-- Runs three parsers and keeps the value in the middle. -/
def mid (p q r : Parse) : Parse := fun place ↦ do
  whenSuccess (← p place) fun first ↦ do
    whenSuccess (← q (← ofExcept first.first)) fun second ↦ do
      whenSuccess (← r (← ofExcept second.first)) fun third ↦
        return .success (← ofExcept third.first) (← ofExcept second.second)

/-! ### Alternatives and repetition -/

/-- Runs a parser and, if it fails, another one from the same place. -/
def either (p q : Parse) : Parse := fun place ↦ do
  let mark ← Run.mark
  match ← p place with
  | .failure =>
    Run.rollback mark
    q place
  | reply => return reply

/-- Runs a parser; null stands in for its value if it fails. -/
def optional (p : Parse) : Parse := fun place ↦ do
  let mark ← Run.mark
  match ← p place with
  | .failure =>
    Run.rollback mark
    return .success place .null
  | reply => return reply

/-- Runs a parser until it fails and collects its values behind the given ones, the latest first.
The bound limits the number of attempts. -/
def repeatFrom (p : Parse) : (bound : Nat) → Place → List Value → Run Reply
  | 0, _, _ => Run.unfinished
  | bound + 1, place, values => do
    let mark ← Run.mark
    match ← p place with
    | .failure =>
      Run.rollback mark
      return .success place (.list values.reverse)
    | reply =>
      let (rest, value) ← ofExcept reply.parts
      repeatFrom p bound rest (value :: values)

/-- Runs a parser as often as it succeeds. -/
def many (bound : Nat) (p : Parse) : Parse := fun place ↦
  repeatFrom p bound place []

/-- Runs a parser as often as it succeeds, and at least once. -/
def oneOrMore (bound : Nat) (p : Parse) : Parse :=
  andThen p fun rest first ↦ repeatFrom p bound rest [first]

/-- Runs a parser a number of times more and collects its values behind the given ones, the latest
first. -/
def countFrom (p : Parse) : (count : Nat) → Place → List Value → Run Reply
  | 0, place, values => return .success place (.list values.reverse)
  | count + 1, place, values =>
    andThen p (fun rest value ↦ countFrom p count rest (value :: values)) place

/-- Runs a parser a fixed number of times. -/
def count (n : Nat) (p : Parse) : Parse := fun place ↦
  countFrom p n place []

/-- One operator and its right operand. -/
structure Link where
  /-- The function that the operator produced. -/
  operator : Value
  /-- The right operand. -/
  operand : Value

/-- Runs an operator and its right operand. What they logged is taken back unless both succeed. -/
def link (p op : Parse) (place : Place) : Run (Option (Place × Link)) := do
  let mark ← Run.mark
  match ← op place with
  | .failure =>
    Run.rollback mark
    return none
  | operator =>
    match ← p (← ofExcept operator.first) with
    | .failure =>
      Run.rollback mark
      return none
    | operand =>
      let f ← ofExcept operator.second
      let (rest, value) ← ofExcept operand.parts
      return some (rest, ⟨f, value⟩)

/-- Goes on with a chain of operators whose operands so far have been combined to a value. -/
def chainLeftFrom (p op : Parse) : (bound : Nat) → Place → Value → Run Reply
  | 0, _, _ => Run.unfinished
  | bound + 1, place, combined => do
    match ← link p op place with
    | none => return .success place combined
    | some (rest, next) =>
      let combined ← ofCall (next.operator.apply₂ combined next.operand)
      chainLeftFrom p op bound rest combined

/-- A chain of operators that associate to the left. -/
def chainLeft (bound : Nat) (p op : Parse) : Parse :=
  andThen p (chainLeftFrom p op bound)

/-- Goes on with a chain of operators that will be applied from the right. The operands before
`last` are given with the operators behind them, the latest first. -/
def chainRightFrom (p op : Parse) : (bound : Nat) → Place → (last : Value) → List Link → Run Reply
  | 0, _, _, _ => Run.unfinished
  | bound + 1, place, last, links => do
    match ← link p op place with
    | none =>
      let combined ← links.foldlM (fun combined pending ↦
        ofCall (pending.operator.apply₂ pending.operand combined)) last
      return .success place combined
    | some (rest, next) =>
      chainRightFrom p op bound rest next.operand (⟨next.operator, last⟩ :: links)

/-- A chain of operators that associate to the right. -/
def chainRight (bound : Nat) (p op : Parse) : Parse :=
  andThen p fun rest first ↦ chainRightFrom p op bound rest first []

/-! ### Looking without consuming -/

/-- Runs a parser and stays where it started. -/
def lookAhead (p : Parse) : Parse := fun place ↦ do
  whenSuccess (← p place) fun reply ↦
    return .success place (← ofExcept reply.second)

/-- Succeeds where a parser fails, and the other way round. What it logged is taken back. -/
def notFollowedBy (p : Parse) : Parse := fun place ↦ do
  let mark ← Run.mark
  let reply ← p place
  Run.rollback mark
  match reply with
  | .failure => return .success place .null
  | reply =>
    let value ← ofExcept reply.second
    giveUp place ("unexpected " ++ value.repr ++ ".")

/-! ### Diagnostics -/

/-- Logs a message and runs a parser. -/
def annotate (severity : Severity) (p : Parse) (text : String) : Parse := fun place ↦ do
  let position ← ofExcept place.position
  Run.complain ⟨severity, position, text⟩
  p place

/-- Runs a parser and, if it fails, logs what was expected where it started. -/
def label (p : Parse) (name : String) : Parse := fun place ↦ do
  match ← p place with
  | .failure => giveUp place ("expecting " ++ name ++ ".")
  | reply => return reply

/-- Runs a parser and shows an observer where it started and what it replied. -/
def inspect (p : Parse) (observe : Place → Reply → Call Unit) : Parse := fun place ↦ do
  let reply ← p place
  ofCall (observe place reply)
  return reply

/-- Runs a parser; a fixed value stands in for its value if it fails. What it logged stays. -/
def recover (p : Parse) (default : Value) : Parse := fun place ↦ do
  match ← p place with
  | .failure => return .success place default
  | reply => return reply

/-- Runs a parser between two notes. -/
def trace (name : String) (p : Parse) : Parse := fun place ↦ do
  let start ← ofExcept place.position
  Run.note (.entered name start (← ofExcept place.preview))
  match ← p place with
  | .failure =>
    Run.note (.backtracked name start)
    return .failure
  | reply =>
    let value ← ofExcept reply.second
    let rest ← ofExcept reply.first
    Run.note (.matched name value (← ofExcept rest.position))
    return reply

end DiagnosticParsing.Parse
