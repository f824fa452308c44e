import DiagnosticParsing.Grammar.Characters
import DiagnosticParsing.Grammar.OperatorTable

/-!
# Construction

Whoever builds a grammar may hand in something that is no parser. An `Operand` is what is handed in:
a parser, something foreign that can parse but is no parser of this library, or a plain value. Most
ways of building take any operand and let a plain value raise when it is run (`Operand.entry`); some
insist on something that can parse (`Operand.asParser`) and raise at once. What can be wrong with
the other arguments also shows here.
-/

set_option autoImplicit false

namespace DiagnosticParsing

/-- What is handed in where a parser is wanted. -/
inductive Operand where
  /-- A parser. -/
  | parser (p : Grammar)
  /-- Something that can parse and has nothing else of a parser. -/
  | foreign (p : Grammar)
  /-- A value that cannot parse. -/
  | value (v : Value)

namespace Operand

/-- What running an operand does. -/
def entry : Operand → Grammar
  | parser p => p
  | foreign p => p
  | value v => .raise (.missingMember v.typeName "parse")

/-- The operand as a parser; a value that cannot parse is a fault. -/
def asParser : Operand → Except Fault Grammar
  | parser p => .ok p
  | foreign p => .ok p
  | value v => .error (.notParsable v)

/-- What calling an operand as a function does. -/
def called : Operand → Grammar
  | parser p => p
  | foreign _ => .raise (.unsuitable "'Foreign' object is not callable")
  | value v => .raise v.notCallable

/-- The operand as something that has the methods of a parser. -/
def withMethods : Operand → Except Fault Grammar
  | parser p => .ok p
  | foreign _ => .error (.missingMember "Foreign" "map")
  | value v => .error (.missingMember v.typeName "map")

/-- The operand on the left of an operator between parsers. -/
def onTheLeft : Operand → Except Fault Grammar
  | parser p => .ok p
  | foreign _ => .error (.unsuitable "unsupported operand type(s)")
  | value _ => .error (.unsuitable "unsupported operand type(s)")

/-- What a deferred parser becomes when the callback that builds it ends like this. -/
def deferred (outcome : Except Fault Operand) : Except Fault Grammar :=
  match outcome with
  | .ok (.parser p) => .ok p
  | .ok (.foreign p) => .ok p
  | .ok (.value v) => .error (.deferredNotParsable v)
  | .error fault => .error fault

end Operand

namespace Grammar

/-- A parser a fixed number of times. -/
def countOf (n : Int) (p : Operand) : Except Fault Grammar :=
  if n < 0 then .error (.negativeCount n) else .ok (.count n.toNat p.entry)

/-- What a pattern under flags matches. -/
def regexOf (source : Value) (flags : Pattern.Flags) : Except Fault Grammar :=
  (Pattern.ofValue source flags).map .regex

/-- The first of several operands that succeeds. The first one has to be able to parse. -/
def choiceOf : List Operand → Except Fault Grammar
  | [] => .ok .empty
  | p :: rest => p.asParser.map fun p ↦ choice (p :: rest.map Operand.entry)

/-- A cell with a variable for itself, whose body was built with this outcome. -/
def fixOf (label : Nat) (name : String) (body : Except Fault Operand) : Grammar :=
  match Operand.deferred body with
  | .ok p => .fix label name p
  | .error fault => .unbuildable label name fault

/-- A deferred parser whose callback returns a value. -/
def deferredValue (v : Value) : Grammar :=
  .raise (.deferredNotParsable v)

/-- The operators of a level as parsers. The first one of each kind has to be able to parse. -/
def operatorsOf (operators : List (Operator Operand)) : Except Fault (List (Operator Grammar)) := do
  for kind in [OperatorKind.before, .behind, .leftward, .rightward, .alone] do
    discard (choiceOf (Operator.ofKind kind operators))
  return operators.map fun operator ↦ ⟨operator.kind, operator.parser.entry⟩

/-- The expression parser of a table over an operand. Without levels it is the operand. -/
def expressionOf (table : List (List (Operator Operand))) (term : Operand) :
    Except Fault Operand := do
  let levels ← table.mapM operatorsOf
  match levels with
  | [] => return term
  | levels => return .parser (expression levels term.entry)

end Grammar

/-- A way of choosing the next parser by a value. -/
inductive Chooser where
  /-- The parser of the first equal key of a table, or else a fixed one. -/
  | cases (table : List (Value × Operand)) (otherwise : Operand)
  /-- A fixed parser. -/
  | const (p : Operand)
  /-- A parser that succeeds with the value. -/
  | succeed
  /-- A parser of the elements of the value. -/
  | literal
  /-- A parser of the value as an element. -/
  | char
  /-- A parser as many times as the value says. -/
  | count (p : Operand)
  /-- Another choice, reported under a name. -/
  | reporting (id : Value) (chooser : Chooser)

namespace Chooser

/-- What is chosen for a value. -/
def choose : Chooser → Value → Call Operand
  | cases table otherwise, x =>
    match table.find? (·.1.same x) with
    | some entry => .pure entry.2
    | none => .pure otherwise
  | const p, _ => .pure p
  | succeed, x => .pure (.parser (.succeed x))
  | literal, x => .pure (.parser (.literal x))
  | char, x => .pure (.parser (.char x))
  | count p, x => .ofExcept do
      match ← x.toInteger with
      | .int n => return .parser (← Grammar.countOf n p)
      | _ => return p
  | reporting id chooser, x => (chooser.choose x).reporting (.chosen id x)

/-- The call that makes the choice, which raises when what is chosen cannot parse. -/
def check (chooser : Chooser) (x : Value) : Call Unit := do
  let chosen ← chooser.choose x
  .ofExcept (chosen.asParser.map fun _ ↦ ())

/-- The parser that is chosen. -/
def next (chooser : Chooser) (x : Value) : Grammar :=
  match (chooser.choose x).outcome with
  | .ok chosen => chosen.entry
  | .error fault => .raise fault

end Chooser

/-- A parser chosen by the value of another. -/
def Grammar.bindTo (p : Grammar) (chooser : Chooser) : Grammar :=
  .bind p chooser.check chooser.next

end DiagnosticParsing
