import DiagnosticParsing.Session.Step

/-!
# Sessions

A `Session` holds parsers, streams and logs under names. `Session.step` carries out one step, and
`Session.answers` a list of them. A stream lives in a slot to which several names can refer: when a
parse consumes nothing and hands back the very stream it was given, the name under which the rest is
kept comes to refer to the same slot, and consuming under one name shows under the other.
-/

set_option autoImplicit false

namespace DiagnosticParsing

/-- What a name for a stream refers to. -/
inductive Holding where
  /-- The stream in a slot. -/
  | slot (index : Nat)
  /-- A value that a parse left and that is no stream. -/
  | stray (v : Value)

/-- Parsers, streams and logs under names. -/
structure Session where
  /-- What grammars refer to by name. -/
  definitions : Definitions
  /-- The parsers. -/
  parsers : List (String × Operand)
  /-- The slots. -/
  slots : Array Stream
  /-- What the names of streams refer to. -/
  streams : List (String × Holding)
  /-- The logs. -/
  logs : List (String × Log)
  /-- What the cells hold. -/
  memory : Memory

namespace Session

/-- The session before its first step. -/
def start (definitions : Definitions) (parsers : List (String × Operand)) : Session :=
  ⟨definitions, parsers, #[], [], [], ∅⟩

/-- A list of named things with one of them set. -/
def put {α : Type} (name : String) (a : α) (entries : List (String × α)) : List (String × α) :=
  (name, a) :: entries.filter (·.1 != name)

/-- The thing of a name. -/
def find {α : Type} (name : String) (entries : List (String × α)) : Except Fault α :=
  match entries.lookup name with
  | some a => .ok a
  | none => .error (.missingKey (.text name))

/-- What a name for a stream refers to, as a place. -/
def place (session : Session) (name : String) : Except Fault Place := do
  match ← find name session.streams with
  | .stray v => return .stray v
  | .slot index =>
    match session.slots[index]? with
    | some stream => return .stream (some index) stream
    | none => .error (.missingKey (.text name))

/-- The stream of a name, and its slot, when it is asked for a member of streams. -/
def stream (session : Session) (name member : String) : Except Fault (Nat × Stream) := do
  match ← session.place name with
  | .stream (some index) stream => return (index, stream)
  | .stream none stream => return (session.slots.size, stream)
  | .stray v => .error (Place.lacking v member)

/-- The session with a stream in a slot of its own under a name. -/
def hold (session : Session) (name : String) (stream : Stream) : Session :=
  { session with
    slots := session.slots.push stream
    streams := put name (.slot session.slots.size) session.streams }

/-- The session with a place under a name; a stream that has a slot shares it. -/
def holdPlace (session : Session) (name : String) (place : Place) : Session :=
  match place with
  | .stream (some index) _ => { session with streams := put name (.slot index) session.streams }
  | .stream none stream => session.hold name stream
  | .stray v => { session with streams := put name (.stray v) session.streams }

/-- The session with the log of a name set. -/
def setLog (session : Session) (name : String) (log : Log) : Session :=
  { session with logs := put name log session.logs }

/-- Runs a parser on a stream. -/
def parse (session : Session) (parser stream : String) (log rest : Option String) :
    Except Fault (Answer × Session) := do
  let p ← find parser session.parsers
  let place ← session.place stream
  let before ← match log with
    | some name => find name session.logs
    | none => pure .empty
  let (report, memory) := Report.ofRun session.definitions p place before session.memory
  let logged := match log with
    | some name => session.setLog name report.log
    | none => session
  let kept := match rest, report.ending with
    | some name, .succeeded _ left => logged.holdPlace name left
    | _, _ => logged
  return (.report report, { kept with memory := memory })

/-- Consumes elements of a stream one by one. A rule for positions that raises ends it, with the
element consumed. -/
def consume : (times : Nat) → (taken : List Value) → Stream → Except Fault (List Value) × Stream
  | 0, taken, stream => (.ok taken.reverse, stream)
  | times + 1, taken, stream =>
    match stream.next with
    | .ok (element, rest) => consume times (element :: taken) rest
    | .error fault => (.error fault, stream.stranded)

/-- Consumes elements of the stream of a name. -/
def next (session : Session) (name : String) (times : Nat) : Except Fault (Answer × Session) := do
  let (index, stream) ← session.stream name "next"
  let (taken, rest) := consume times [] stream
  let session := { session with slots := session.slots.setIfInBounds index rest }
  match taken with
  | .ok elements => return (.consumed elements rest.state, session)
  | .error fault => return (.fault fault, session)

/-- Whether two places are equal: streams over sequences by what they stand on, and any other stream
only when it is the very same one. -/
def samePlaces (first second : Place) : Bool :=
  match first, second with
  | .stream slot stream, .stream slot' stream' =>
    match stream.source, stream'.source with
    | .minimal _, _ => slot == slot'
    | _, .minimal _ => slot == slot'
    | _, _ => stream.same stream'
  | .stray v, .stray w => v.same w
  | _, _ => false

/-- The positions behind each of some elements. -/
def positionsAfter (newline : Value) : Position → List Value → List Position
  | _, [] => []
  | position, element :: rest =>
    let next := position.advance element newline
    next :: positionsAfter newline next rest

/-- Shows a log that has been set. -/
def showLog (session : Session) (name : String) (log : Log) : Answer × Session :=
  (.messages log.toList, session.setLog name log)

/-- Carries out a step. A fault leaves the session as it was. -/
def tryStep (session : Session) (step : Step) : Except Fault (Answer × Session) := do
  match step with
  | .parse parser stream log rest => session.parse parser stream log rest
  | .newStream name stream => return (.state stream.state, session.hold name stream)
  | .next name times => session.next name times
  | .copy name copy =>
    let (_, stream) ← session.stream name "copy"
    return (.state stream.state, session.hold copy stream)
  | .state name =>
    let (_, stream) ← session.stream name "as_text"
    return (.state stream.state, session)
  | .isEmpty name =>
    let (_, stream) ← session.stream name "is_empty"
    return (.flag stream.isEmpty, session)
  | .size name =>
    let (_, stream) ← session.stream name "len"
    if stream.remaining < 0 then .error .negativeLength
    else return (.number stream.remaining, session)
  | .buffer name =>
    let (_, stream) ← session.stream name "buffer"
    return (.buffer stream.buffer.1.toValue stream.buffer.2, session)
  | .display name =>
    match ← session.place name with
    | .stream _ stream => return (.text stream.display, session)
    | .stray v => return (.text v.repr, session)
  | .sameStreams first second =>
    return (.flag (samePlaces (← session.place first) (← session.place second)), session)
  | .sameAsValue name value =>
    return (.flag (samePlaces (← session.place name) (.stray value)), session)
  | .newLog name => return session.showLog name .empty
  | .logWith name message => return session.showLog name (Log.empty.add message)
  | .add name message => return session.showLog name ((← find name session.logs).add message)
  | .clear name =>
    discard (find name session.logs)
    return session.showLog name .empty
  | .dump name => return (.messages (← find name session.logs).toList, session)
  | .mark name => return (.number (← find name session.logs).mark, session)
  | .rollback name index =>
    let log ← find name session.logs
    return session.showLog name (log.rollback (log.markAt index))
  | .summary name => return (.summary (← find name session.logs), session)
  | .get name index =>
    match (← find name session.logs).get? index with
    | some message => return (.message message, session)
    | none => .error (.indexOutOfRange "list")
  | .sameLogs first second =>
    return (.flag ((← find first session.logs) == (← find second session.logs)), session)
  | .sameMessages first second => return (.flag (first == second), session)
  | .displayMessage message => return (.text message.display, session)
  | .positions start elements newline =>
    return (.positions (positionsAfter newline start (← elements.elements)), session)
  | .compare first second =>
    return (.flags [first < second, first ≤ second, first = second, second ≤ first, second < first],
      session)
  | .displayPosition position => return (.text position.display, session)
  | .sort positions => return (.positions (Position.sort positions), session)

/-- Carries out a step, a fault being an answer too. -/
def step (session : Session) (step : Step) : Answer × Session :=
  match session.tryStep step with
  | .ok answer => answer
  | .error fault => (.fault fault, session)

/-- The answers to steps carried out one after the other. -/
def answers : Session → List Step → List Answer
  | _, [] => []
  | session, step :: rest =>
    let (answer, session) := session.step step
    answer :: session.answers rest

end Session

end DiagnosticParsing
