import DiagnosticParsing.Call
import DiagnosticParsing.Text.Alphabetic
import DiagnosticParsing.Text.Cased
import DiagnosticParsing.Text.Numeral
import DiagnosticParsing.Text.Numeric
import DiagnosticParsing.Value.Arithmetic

/-!
# Application of functions

What functions and conditions compute. `Function.call` and `Operation.call` give the outcome for
every argument, `Condition.holds` judges a value, and `Value.apply` and `Value.apply₂` apply a value
that is meant to be a function.
-/

set_option autoImplicit false

namespace DiagnosticParsing

/-- The outcome of an operation. -/
def Operation.call (g : Operation) (x y : Value) : Call Value :=
  match g with
  | .add => .ofExcept (x.add y)
  | .sub => .ofExcept (x.sub y)
  | .mul => .ofExcept (x.mul y)
  | .floorDiv => .ofExcept (x.floorDiv y)
  | .pow => .ofExcept (x.pow y)
  | .less => .ofExcept ((x.less y).map .bool)
  | .equal => .pure (.bool (x.same y))
  | .pair => .pure (.tuple [x, y])
  | .first => .pure x
  | .second => .pure y
  | .node name => .pure (.list [.text name, x, y])
  | .compose => .pure (.function (.composed x y))
  | .raise kind text => .fault (.raised kind text)

/-- A condition on the characters of a text; the empty text never fulfils it. -/
def Condition.allChars (test : Char → Bool) (x : Value) : Except Fault Bool :=
  match x with
  | .text s => .ok (!s.isEmpty && s.toList.all test)
  | _ => .error (.unsuitable ("a text is required, not '" ++ x.typeName ++ "'"))

/-- Whether a condition holds of a value. -/
def Condition.holds : Condition → Value → Except Fault Bool
  | .upper, x =>
    match x with
    | .text s => .ok (s.toList.any Text.isUpper &&
        s.toList.all fun c ↦ !(Text.isLower c || Text.isTitle c))
    | _ => .error (.unsuitable ("a text is required, not '" ++ x.typeName ++ "'"))
  | .alphabetic, x => allChars Text.isAlphabetic x
  | .digits, x => allChars Text.isDigit x
  | .alphanumeric, x => allChars (fun c ↦ Text.isAlphabetic c || Text.isNumeric c) x
  | .always, _ => .ok true
  | .never, _ => .ok false
  | .truthy, x => .ok x.isTruthy
  | .equals v, x => .ok (x.same v)
  | .member vs, x => .ok (vs.any (x.same ·))
  | .between low high, x => do
    if ← x.less low then return false
    return !(← high.less x)
  | .negation condition, x => (condition.holds x).map (!·)

/-- The integer that a value denotes: the numeral it holds, or the number it is. -/
def Value.toInteger (x : Value) : Except Fault Value :=
  match x with
  | .text s => (Text.numeral? s).elim (.error (.badNumeral x)) fun n ↦ .ok (.int n)
  | _ =>
    match x.number? with
    | some n => .ok (.int n)
    | none => .error (.unsuitable
        ("int() argument must be a string, a bytes-like object or a real number, not '" ++
          x.typeName ++ "'"))

/-- The content of a token. -/
def Value.tokenContent (x : Value) : Except Fault Value :=
  match x with
  | .token _ content => .ok content
  | _ => .error (.unsuitable ("'" ++ x.typeName ++ "' object is no token"))

/-- The kind of a token. -/
def Value.tokenKind (x : Value) : Except Fault String :=
  match x with
  | .token kind _ => .ok kind
  | _ => .error (.unsuitable ("'" ++ x.typeName ++ "' object is no token"))

/-- The number of elements of a value. -/
def Value.length (x : Value) : Except Fault Nat :=
  match x.elements? with
  | some items => .ok items.length
  | none => .error (.unsuitable ("object of type '" ++ x.typeName ++ "' has no len()"))

/-- The elements of a value. -/
def Value.elements (x : Value) : Except Fault (List Value) :=
  match x.elements? with
  | some items => .ok items
  | none => .error (.unsuitable ("'" ++ x.typeName ++ "' object is not iterable"))

/-- The fault of calling a value that is no function. -/
def Value.notCallable (f : Value) : Fault :=
  .unsuitable ("'" ++ f.typeName ++ "' object is not callable")

mutual

/-- The outcome of a function. -/
def Function.call : Function → Value → Call Value
  | .identity, x => .pure x
  | .repr, x => .pure (.text x.repr)
  | .toText, x => .pure (.text x.display)
  | .upper, x =>
    match x with
    | .text s => .pure (.text (Text.upperText s))
    | _ => .fault (.unsuitable ("'" ++ x.typeName ++ "' object has no attribute 'upper'"))
  | .length, x => .ofExcept (x.length.map fun n ↦ .int n)
  | .join, x => .ofExcept (x.joined.map .text)
  | .toInt, x => .ofExcept x.toInteger
  | .negate, x =>
    match x.number? with
    | some n => .pure (.int (-n))
    | none => .fault (.unsuitable ("bad operand type for unary -: '" ++ x.typeName ++ "'"))
  | .increment, x => .ofExcept (x.add (.int 1))
  | .duplicate, x => .pure (.tuple [x, x])
  | .first, x => .ofExcept (x.at? 0)
  | .second, x => .ofExcept (x.at? 1)
  | .double, x => .ofExcept (x.mul (.int 2))
  | .toHex, x =>
    match x.number? with
    | some n => .pure (.text (Text.hexNumeral n))
    | none => .fault (.unsuitable
        ("'" ++ x.typeName ++ "' object cannot be interpreted as an integer"))
  | .tokenKind, x => .ofExcept (x.tokenKind.map .text)
  | .tokenContent, x => .ofExcept x.tokenContent
  | .toList, x => .ofExcept (x.elements.map .list)
  | .cons, x => .ofExcept do
      let head ← x.at? 0
      let tail ← x.at? 1
      Value.add (.list [head]) tail
  | .const v, _ => .pure v
  | .node name, x => .pure (.list [.text name, x])
  | .raise kind text, _ => .fault (.raised kind text)
  | .lookup table, x =>
    match table.find? (·.1.same x) with
    | some entry => .pure entry.2
    | none => .fault (.missingKey x)
  | .ifBelow bound, x => .ofExcept ((x.less bound).map fun below ↦ if below then x else .null)
  | .whenHolds condition, x =>
    .ofExcept ((condition.holds x).map fun holds ↦ if holds then x else .null)
  | .ofKind kind, x => .ofExcept do
      if (← x.tokenKind) == kind then x.tokenContent else return .null
  | .append suffix, x => .ofExcept (x.add suffix)
  | .andThen f g, x => (f.call x).bind g.call
  | .curry g, x => .pure (.function (.applied g x))
  | .applied g x, y => g.call x y
  | .composed f g, x => (g.apply x).bind f.apply
  | .reporting id f, x => (f.call x).reporting (.applied id x)

/-- The outcome of applying a value to an argument. A function that is a value is applied
unobserved: it reports nothing. -/
def Value.apply : Value → Value → Call Value
  | .function f, x => .ofExcept (f.call x).outcome
  | .operation _, _ => .fault (.unsuitable "one argument given to a function of two")
  | f, _ => .fault f.notCallable

end

/-- The outcome of applying a value to two arguments. -/
def Value.apply₂ (f x y : Value) : Call Value :=
  match f with
  | .operation g => g.call x y
  | .function _ => .fault (.unsuitable "two arguments given to a function of one")
  | _ => .fault f.notCallable

@[simp]
theorem Operation.notes_call (g : Operation) (x y : Value) : (g.call x y).notes = [] := by
  cases g <;> rfl

@[simp]
theorem Value.notes_apply (f x : Value) : (f.apply x).notes = [] := by
  cases f <;> rfl

@[simp]
theorem Value.notes_apply₂ (f x y : Value) : (f.apply₂ x y).notes = [] := by
  unfold Value.apply₂
  split
  · exact Operation.notes_call _ x y
  · rfl
  · rfl

end DiagnosticParsing
