import DiagnosticParsing.Fault
import DiagnosticParsing.Value.Equality

/-!
# Arithmetic and order of values

Sums, products, quotients and powers of values, their order, and access to the elements of a
sequence by index. Truth values count as numbers throughout, and an operand of a type that does not
suit raises `Fault.unsuitable`.
-/

set_option autoImplicit false

namespace DiagnosticParsing.Value

/-- The fault of an operator between operands of types it does not know. -/
def unsupported (operator : String) (x y : Value) : Fault :=
  .unsuitable ("unsupported operand type(s) for " ++ operator ++ ": '" ++ x.typeName ++ "' and '" ++
    y.typeName ++ "'")

/-- The fault of a concatenation with something of another type. -/
def unsuitableTail (x y : Value) : Fault :=
  .unsuitable ("can only concatenate " ++ x.typeName ++ " (not \"" ++ y.typeName ++ "\") to " ++
    x.typeName)

/-- The sum of two numbers, or the concatenation of two sequences of one kind. -/
def add : Value → Value → Except Fault Value
  | .text s, .text t => .ok (.text (s ++ t))
  | .list xs, .list ys => .ok (.list (xs ++ ys))
  | .tuple xs, .tuple ys => .ok (.tuple (xs ++ ys))
  | x, y =>
    match x.number?, y.number?, x.bytes?, y.bytes? with
    | some m, some n, _, _ => .ok (.int (m + n))
    | _, _, some bs, some cs =>
      .ok (match x with
        | .bytes _ => .bytes (bs ++ cs)
        | _ => .byteArray (bs ++ cs))
    | _, _, some _, none =>
      .error (.unsuitable ("can't concat " ++ y.typeName ++ " to " ++ x.typeName))
    | _, _, _, _ =>
      .error (match x with
        | .text _ | .list _ | .tuple _ => unsuitableTail x y
        | _ => unsupported "+" x y)

/-- The difference of two numbers. -/
def sub (x y : Value) : Except Fault Value :=
  match x.number?, y.number? with
  | some m, some n => .ok (.int (m - n))
  | _, _ => .error (unsupported "-" x y)

/-- A sequence repeated a number of times, which is empty for a number below one. -/
def repeated? (n : Int) : Value → Option Value
  | .text s => some (.text (String.ofList (List.replicate n.toNat s.toList).flatten))
  | .list xs => some (.list (List.replicate n.toNat xs).flatten)
  | .tuple xs => some (.tuple (List.replicate n.toNat xs).flatten)
  | .bytes xs => some (.bytes (List.replicate n.toNat xs).flatten)
  | .byteArray xs => some (.byteArray (List.replicate n.toNat xs).flatten)
  | _ => none

/-- The product of two numbers, or a sequence repeated. -/
def mul (x y : Value) : Except Fault Value :=
  match x.number?, y.number? with
  | some m, some n => .ok (.int (m * n))
  | some m, none => (y.repeated? m).elim (.error (unsupported "*" x y)) .ok
  | none, some n => (x.repeated? n).elim (.error (unsupported "*" x y)) .ok
  | none, none =>
    if x.elements?.isSome then
      .error (.unsuitable ("can't multiply sequence by non-int of type '" ++ y.typeName ++ "'"))
    else if y.elements?.isSome then
      .error (.unsuitable ("can't multiply sequence by non-int of type '" ++ x.typeName ++ "'"))
    else .error (unsupported "*" x y)

/-- The quotient of two numbers, rounded down. -/
def floorDiv (x y : Value) : Except Fault Value :=
  match x.number?, y.number? with
  | some m, some n => if n = 0 then .error .divisionByZero else .ok (.int (Int.fdiv m n))
  | _, _ => .error (unsupported "//" x y)

/-- A power of a number with an exponent that is not negative. -/
def pow (x y : Value) : Except Fault Value :=
  match x.number?, y.number? with
  | some m, some n =>
    if n < 0 then .error (.unsuitable "negative exponent") else .ok (.int (m.pow n.toNat))
  | _, _ => .error (unsupported "** or pow()" x y)

/-- The fault of an order that two values do not have. -/
def unordered (x y : Value) : Fault :=
  .unsuitable ("'<' not supported between instances of '" ++ x.typeName ++ "' and '" ++
    y.typeName ++ "'")

mutual

/-- The order of two values: of numbers by size, of texts and runs of bytes by their elements, of
lists and tuples by the first elements that differ. -/
def less : Value → Value → Except Fault Bool
  | .text s, .text t => .ok (decide (s < t))
  | .list xs, .list ys => lessList xs ys
  | .tuple xs, .tuple ys => lessList xs ys
  | x, y =>
    match x.number?, y.number?, x.bytes?, y.bytes? with
    | some m, some n, _, _ => .ok (decide (m < n))
    | _, _, some bs, some cs => .ok (decide (bs < cs))
    | _, _, _, _ => .error (unordered x y)

/-- The order of two lists of values. -/
def lessList : List Value → List Value → Except Fault Bool
  | [], ys => .ok (!ys.isEmpty)
  | _ :: _, [] => .ok false
  | x :: xs, y :: ys => if x.same y then lessList xs ys else less x y

end

/-- The element of a sequence at an index. -/
def at? (x : Value) (index : Nat) : Except Fault Value :=
  match x.elements? with
  | none => .error (.unsuitable ("'" ++ x.typeName ++ "' object is not subscriptable"))
  | some items =>
    match items[index]? with
    | some item => .ok item
    | none =>
      .error (match x with
        | .bytes _ => .indexOutOfRange "index"
        | .text _ => .indexOutOfRange "string"
        | _ => .indexOutOfRange x.typeName)

/-- Whether a list occurs in another one as a run of neighbours. -/
def occursIn {α : Type} [BEq α] (part : List α) : List α → Bool
  | [] => part.isEmpty
  | x :: xs => part.isPrefixOf (x :: xs) || occursIn part xs

/-- Whether a value is among the elements of a container: in a text, as a part of it. -/
def isIn (x container : Value) : Except Fault Bool :=
  match container with
  | .text s =>
    match x with
    | .text t => .ok (occursIn t.toList s.toList)
    | _ => .error (.unsuitable
        ("'in <string>' requires string as left operand, not " ++ x.typeName))
  | .list items => .ok (items.any (x.same ·))
  | .tuple items => .ok (items.any (x.same ·))
  | .bytes _ | .byteArray _ =>
    match x.number?, x.bytes?, container.bytes? with
    | some n, _, some items =>
      if 0 ≤ n ∧ n < 256 then .ok (items.any fun b ↦ (b.toNat : Int) == n)
      else .error (.raised "ValueError" (some "byte must be in range(0, 256)"))
    | none, some part, some items => .ok (occursIn part items)
    | _, _, _ =>
      .error (.unsuitable ("a bytes-like object is required, not '" ++ x.typeName ++ "'"))
  | _ => .error (.unsuitable ("argument of type '" ++ container.typeName ++ "' is not iterable"))

/-- The texts of a list, the first of which has the given index, one after the other. -/
def joinedFrom (index : Nat) : List Value → Except Fault String
  | [] => .ok ""
  | .text s :: rest => (joinedFrom (index + 1) rest).map (s ++ ·)
  | item :: _ => .error (.unsuitable ("sequence item " ++ toString index ++
      ": expected str instance, " ++ item.typeName ++ " found"))

/-- The texts of a sequence one after the other. -/
def joined (x : Value) : Except Fault String :=
  match x.elements? with
  | none => .error (.unsuitable "can only join an iterable")
  | some items => joinedFrom 0 items

theorem occursIn_singleton (c : Char) (text : List Char) :
    occursIn [c] text = decide (c ∈ text) := by
  induction text with
  | nil => rfl
  | cons d text ih =>
    rw [occursIn, ih]
    by_cases h : c = d <;> simp [h, List.isPrefixOf]

theorem isIn_text (c : Char) (text : String) :
    (char c).isIn (.text text) = .ok (decide (c ∈ text.toList)) := by
  rw [char, isIn, String.toList_singleton, occursIn_singleton]

/-- The characters of a text can be joined. -/
theorem joinedFrom_chars (text : List Char) (index : Nat) :
    ∃ joined, joinedFrom index (text.map .char) = .ok joined := by
  induction text generalizing index with
  | nil => exact ⟨"", rfl⟩
  | cons c text ih =>
    obtain ⟨joined, hjoined⟩ := ih (index + 1)
    refine ⟨String.singleton c ++ joined, ?_⟩
    rw [List.map_cons, char, joinedFrom, hjoined]
    rfl

end DiagnosticParsing.Value
