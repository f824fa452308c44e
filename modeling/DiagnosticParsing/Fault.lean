import DiagnosticParsing.Pattern.Flaw
import DiagnosticParsing.Value.Rendering

/-!
# Faults

A `Fault` ends a computation. Some faults say that a grammar is badly made, others come from the
functions a grammar uses, or from a value that does not suit what is done with it.
`Fault.message` is the wording of each.
-/

set_option autoImplicit false

namespace DiagnosticParsing

/-- Why a computation ended without an answer. -/
inductive Fault where
  /-- A fixed number of repetitions that is negative. -/
  | negativeCount (n : Int)
  /-- A value where a parser is needed. -/
  | notParsable (v : Value)
  /-- A deferred parser turned out to be a value. -/
  | deferredNotParsable (v : Value)
  /-- A parse function returned something that is no reply. -/
  | malformedReply (v : Value)
  /-- A pattern that cannot be read. -/
  | badPattern (pattern : Value) (flaw : Pattern.Flaw)
  /-- An exception that a user's function raised on purpose. -/
  | raised (kind : String) (text : Option String)
  /-- A table has no entry for a key. -/
  | missingKey (key : Value)
  /-- A text that is no numeral. -/
  | badNumeral (numeral : Value)
  /-- A division by zero. -/
  | divisionByZero
  /-- A length below zero. -/
  | negativeLength
  /-- More parts than the two that are wanted. -/
  | tooManyParts
  /-- Fewer parts than the two that are wanted. -/
  | tooFewParts (count : Nat)
  /-- A value of a type that does not suit what is done with it. -/
  | unsuitable (text : String)
  /-- A value that lacks what is asked of it. -/
  | missingMember (typeName member : String)
  /-- An index beyond the elements. -/
  | indexOutOfRange (what : String)

namespace Fault

/-- The wording of a fault. -/
def message : Fault → String
  | negativeCount n => "count() needs a non-negative repetition count, got " ++ toString n
  | notParsable v => v.repr ++ " is not parsable (it has no parse method)"
  | deferredNotParsable v =>
    "deferred parser callback <callback> returned " ++ v.repr ++ ", which is not parsable"
  | malformedReply v =>
    "parse function <function> returned " ++ v.repr ++ "; expected None or a (stream, value) pair"
  | badPattern pattern flaw =>
    "invalid regular expression " ++ pattern.repr ++ ": " ++ flaw.message
  | raised kind (some text) => if kind == "KeyError" then Text.quoted text else text
  | raised _ none => ""
  | missingKey key => key.repr
  | badNumeral numeral => "invalid literal for int() with base 10: " ++ numeral.repr
  | divisionByZero => "integer division or modulo by zero"
  | negativeLength => "__len__() should return >= 0"
  | tooManyParts => "too many values to unpack (expected 2)"
  | tooFewParts count =>
    "not enough values to unpack (expected 2, got " ++ toString count ++ ")"
  | unsuitable text => text
  | missingMember typeName member =>
    "'" ++ typeName ++ "' object has no attribute '" ++ member ++ "'"
  | indexOutOfRange what => what ++ " index out of range"

/-- The name of the kind of a fault, which stands in for a wording that is empty. -/
def kind : Fault → String
  | negativeCount _ | notParsable _ | deferredNotParsable _ | malformedReply _
  | badPattern _ _ => "GrammarError"
  | raised kind _ => kind
  | missingKey _ => "KeyError"
  | badNumeral _ | negativeLength | tooManyParts | tooFewParts _ => "ValueError"
  | divisionByZero => "ZeroDivisionError"
  | unsuitable _ => "TypeError"
  | missingMember _ _ => "AttributeError"
  | indexOutOfRange _ => "IndexError"

/-- What a log says about a fault: its wording, or its kind when the wording is empty. -/
def display (fault : Fault) : String :=
  if fault.message.isEmpty then fault.kind else fault.message

end Fault

end DiagnosticParsing
