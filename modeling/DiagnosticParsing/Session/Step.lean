import DiagnosticParsing.Report

/-!
# Steps of a session

What can be asked in a session (`Step`) and what is answered (`Answer`). Streams, logs and parsers
are referred to by name.
-/

set_option autoImplicit false

namespace DiagnosticParsing

/-- A step of a session. -/
inductive Step where
  /-- Runs a parser on a stream, with a log or with a new one, and keeps the rest under a name. -/
  | parse (parser stream : String) (log rest : Option String)
  /-- Sets up a stream. -/
  | newStream (stream : String) (value : Stream)
  /-- Consumes elements one by one. -/
  | next (stream : String) (times : Nat)
  /-- Copies a stream. -/
  | copy (stream copy : String)
  /-- Shows a stream. -/
  | state (stream : String)
  /-- Tells whether nothing is left. -/
  | isEmpty (stream : String)
  /-- Tells how many elements are left. -/
  | size (stream : String)
  /-- Shows what matchers see that work in place. -/
  | buffer (stream : String)
  /-- Shows the written form of a stream. -/
  | display (stream : String)
  /-- Compares two streams. -/
  | sameStreams (first second : String)
  /-- Compares a stream with a value. -/
  | sameAsValue (stream : String) (value : Value)
  /-- Sets up an empty log. -/
  | newLog (log : String)
  /-- Sets up a log with one message. -/
  | logWith (log : String) (message : Message)
  /-- Logs a message. -/
  | add (log : String) (message : Message)
  /-- Empties a log. -/
  | clear (log : String)
  /-- Shows the messages of a log. -/
  | dump (log : String)
  /-- Shows the mark of a log. -/
  | mark (log : String)
  /-- Rolls a log back. -/
  | rollback (log : String) (index : Int)
  /-- Sums up a log. -/
  | summary (log : String)
  /-- Shows one message of a log. -/
  | get (log : String) (index : Int)
  /-- Compares two logs. -/
  | sameLogs (first second : String)
  /-- Compares two messages. -/
  | sameMessages (first second : Message)
  /-- Shows the written form of a message. -/
  | displayMessage (message : Message)
  /-- Follows a position through the elements of a sequence. -/
  | positions (start : Position) (elements newline : Value)
  /-- Compares two positions in every way. -/
  | compare (first second : Position)
  /-- Shows the written form of a position. -/
  | displayPosition (position : Position)
  /-- Sorts positions. -/
  | sort (positions : List Position)

/-- The answer to a step. -/
inductive Answer where
  /-- What came of a parse. -/
  | report (report : Report)
  /-- A stream. -/
  | state (state : StreamState)
  /-- Elements consumed, and the stream behind them. -/
  | consumed (elements : List Value) (state : StreamState)
  /-- A truth value. -/
  | flag (b : Bool)
  /-- Several truth values. -/
  | flags (bs : List Bool)
  /-- A number. -/
  | number (n : Int)
  /-- A text. -/
  | text (s : String)
  /-- A sequence and an index in it. -/
  | buffer (data : Value) (index : Nat)
  /-- Messages. -/
  | messages (messages : List Message)
  /-- A message. -/
  | message (message : Message)
  /-- A log summed up. -/
  | summary (log : Log)
  /-- Positions. -/
  | positions (positions : List Position)
  /-- A fault. -/
  | fault (fault : Fault)

end DiagnosticParsing
