import DiagnosticParsing.Fault
import DiagnosticParsing.Pattern.Matcher
import DiagnosticParsing.Pattern.Reader
import DiagnosticParsing.Sequence

/-!
# Patterns

A `Pattern` is a regular pattern ready for use: the text or the bytes it was read from, and what it
was read as. `Pattern.find` matches it with a sequence in place. A pattern read from a text goes
with texts only, and one read from bytes with runs of bytes only.
-/

set_option autoImplicit false

namespace DiagnosticParsing

/-- A regular pattern ready for use. -/
structure Pattern where
  /-- What the pattern was read from, a text or a run of bytes. -/
  source : Value
  /-- Whether it is for runs of bytes. -/
  overBytes : Bool
  /-- What it was read as. -/
  node : Pattern.Node
  /-- The number of its groups, the whole match among them. -/
  groups : Nat

namespace Pattern

/-- The pattern that a text or a run of bytes describes under flags. -/
def ofValue (source : Value) (flags : Flags) : Except Fault Pattern :=
  let build := fun (pattern : List Char) (overBytes : Bool) ↦
    match read pattern flags overBytes with
    | .ok (node, groups) => .ok ⟨source, overBytes, node, groups⟩
    | .error flaw => .error (.badPattern source flaw)
  match source with
  | .text s => build s.toList false
  | .bytes items => build (items.map fun byte ↦ Char.ofNat byte.toNat) true
  | _ => .error (.unsuitable "first argument must be string or compiled pattern")

/-- The part of a sequence that a match covers, and the index at its end. -/
structure Match where
  /-- The index behind the match. -/
  stop : Nat
  /-- What was matched. -/
  value : Value

/-- Matches a pattern with a sequence from an index on, the end of the sequence standing in for any
index beyond it. -/
def find (pattern : Pattern) (data : Sequence) (index : Nat) : Except Fault (Option Match) :=
  let start := min index data.size
  let search := fun (subject : Subject) (part : Nat → Value) ↦
    (pattern.node.matchFrom pattern.groups subject start).map fun stop ↦ ⟨stop, part stop⟩
  match data, pattern.overBytes with
  | .text chars, false => .ok (search (.text chars) fun stop ↦ (data.slice start stop).toValue)
  | .bytes items, true => .ok (search (.bytes items) fun stop ↦ (data.slice start stop).toValue)
  | .byteArray items, true =>
    .ok (search (.bytes items) fun stop ↦ .bytes (items.extract start stop).toList)
  | .text _, true => .error (.unsuitable "cannot use a bytes pattern on a string-like object")
  | .bytes _, false | .byteArray _, false =>
    .error (.unsuitable "cannot use a string pattern on a bytes-like object")
  | _, _ => .error (.unsuitable
      ("expected string or bytes-like object, got '" ++ data.toValue.typeName ++ "'"))

end Pattern

end DiagnosticParsing
