import DiagnosticParsing.Position

/-!
# Logs

A `Log` is the ordered record of what a parse has to say. Messages are added at its end. A mark
remembers how long the log was, and rolling back to it takes away whatever came after.
-/

set_option autoImplicit false

namespace DiagnosticParsing

/-- How much a message matters. -/
inductive Severity where
  /-- A remark. -/
  | info
  /-- A warning. -/
  | warning
  /-- Something that went wrong. -/
  | error
  deriving DecidableEq, Inhabited

/-- The name of a severity. -/
def Severity.name : Severity → String
  | info => "info"
  | warning => "warning"
  | error => "error"

/-- A diagnostic: what is to be said, and about which place of the input. -/
structure Message where
  /-- How much it matters. -/
  severity : Severity
  /-- The place it is about. -/
  position : Position
  /-- The wording. -/
  text : String
  deriving DecidableEq, Inhabited

/-- The written form of a message. -/
def Message.display (message : Message) : String :=
  message.severity.name ++ " at " ++ message.position.display ++ ": " ++ message.text

/-- The messages of a parse in the order in which they were logged. -/
structure Log where
  /-- The messages. -/
  messages : Array Message
  deriving DecidableEq, Inhabited

namespace Log

/-- The log without messages. -/
def empty : Log :=
  ⟨#[]⟩

/-- The messages as a list. -/
def toList (log : Log) : List Message :=
  log.messages.toList

/-- The log with one more message at its end. -/
def add (log : Log) (message : Message) : Log :=
  ⟨log.messages.push message⟩

/-- The number of messages, which is also the mark to roll back to. -/
def mark (log : Log) : Nat :=
  log.messages.size

/-- The log as it was at a mark. -/
def rollback (log : Log) (mark : Nat) : Log :=
  ⟨log.messages.shrink mark⟩

/-- The mark that an index denotes when a negative one counts from the end. -/
def markAt (log : Log) (index : Int) : Nat :=
  if index < 0 then (log.mark + index).toNat else index.toNat

/-- The message at an index, a negative one counting from the end. -/
def get? (log : Log) (index : Int) : Option Message :=
  if index < 0 then
    if log.mark + index < 0 then none else log.messages[(log.mark + index).toNat]?
  else log.messages[index.toNat]?

/-- The messages of one severity. -/
def ofSeverity (log : Log) (severity : Severity) : List Message :=
  log.toList.filter (·.severity == severity)

/-- Whether something went wrong. -/
def hasErrors (log : Log) : Bool :=
  log.messages.any (·.severity == .error)

@[simp]
theorem toList_empty : empty.toList = [] :=
  rfl

@[simp]
theorem toList_add (log : Log) (message : Message) :
    (log.add message).toList = log.toList ++ [message] := by
  simp [toList, add]

@[simp]
theorem length_toList (log : Log) : log.toList.length = log.mark :=
  rfl

@[simp]
theorem toList_rollback (log : Log) (mark : Nat) :
    (log.rollback mark).toList = log.toList.take mark := by
  simp [toList, rollback]

end Log

end DiagnosticParsing
