import DiagnosticParsing.Grammar.Lists

/-!
# Operator tables

An expression parser is made from a table of operators and a parser of simple terms. The levels of
the table go from the tightest binding to the loosest. `level` adds one level around the parser of
its operands: first the operators before and behind an operand, then the ones that associate to the
left, to the right, and not at all.
-/

set_option autoImplicit false

namespace DiagnosticParsing

/-- Where an operator stands, and how a chain of it is grouped. -/
inductive OperatorKind where
  /-- Between two operands, grouped from the left. -/
  | leftward
  /-- Between two operands, grouped from the right. -/
  | rightward
  /-- Between two operands, once only. -/
  | alone
  /-- Before an operand. -/
  | before
  /-- Behind an operand. -/
  | behind
  /-- Nowhere. -/
  | inert
  deriving DecidableEq

/-- An operator of a table. Its parser produces the function to apply. -/
structure Operator (α : Type) where
  /-- Where it stands. -/
  kind : OperatorKind
  /-- What reads it. -/
  parser : α

/-- The parsers of the operators of one kind. -/
def Operator.ofKind {α : Type} (kind : OperatorKind) (operators : List (Operator α)) : List α :=
  (operators.filter (·.kind == kind)).map (·.parser)

namespace Grammar

/-- Applies a function to a value, null standing for no function. -/
def applyIfAny (f x : Value) : Call Value :=
  match f with
  | .null => .pure x
  | f => f.apply x

/-- Applies the operators around an operand, the one before it first. -/
def applyAround : Value → Call Value
  | .tuple [.tuple [before, x], behind] => do
    let y ← applyIfAny before x
    applyIfAny behind y
  | _ => .fault (.unsuitable "cannot unpack")

theorem notes_applyIfAny (f x : Value) : (applyIfAny f x).notes = [] := by
  unfold applyIfAny
  split
  · rfl
  · exact Value.notes_apply f x

theorem notes_applyAround (x : Value) : (applyAround x).notes = [] := by
  unfold applyAround
  split
  · rename_i before x behind
    simp only [Bind.bind, Call.bind]
    split
    · simp only [notes_applyIfAny, List.append_nil]
    · exact notes_applyIfAny before x
  · rfl

/-- An operand with at most one operator before it and one behind it. -/
def affixed (before behind : List Grammar) (term : Grammar) : Grammar :=
  map (both (both (optional (choice before)) term) (optional (choice behind))) applyAround

/-- Applies an operator to the operand read before it and the one read behind it. -/
def applyBetween (x : Value) : Value → Call Value
  | .tuple [f, y] => f.apply₂ x y
  | _ => .fault (.unsuitable "cannot unpack")

theorem notes_applyBetween (x y : Value) : (applyBetween x y).notes = [] := by
  unfold applyBetween
  split
  · exact Value.notes_apply₂ _ x _
  · rfl

/-- An operand, and an operator with a second operand at most once. -/
def unchained (operand op : Grammar) : Grammar :=
  bind operand (fun _ ↦ .pure ()) fun x ↦
    either (map (both op operand) (applyBetween x)) (succeed x)

/-- One level of a table around the parser of its operands. -/
def level (term : Grammar) (operators : List (Operator Grammar)) : Grammar :=
  let operand :=
    affixed (Operator.ofKind .before operators) (Operator.ofKind .behind operators) term
  let leftward := match Operator.ofKind .leftward operators with
    | [] => operand
    | ops => chainLeft operand (choice ops)
  let rightward := match Operator.ofKind .rightward operators with
    | [] => leftward
    | ops => chainRight leftward (choice ops)
  match Operator.ofKind .alone operators with
  | [] => rightward
  | ops => unchained rightward (choice ops)

/-- The expression parser of a table over a parser of simple terms. -/
def expression (table : List (List (Operator Grammar))) (term : Grammar) : Grammar :=
  table.foldl level term

end Grammar

end DiagnosticParsing
