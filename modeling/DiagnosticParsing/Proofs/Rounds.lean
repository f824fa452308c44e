import DiagnosticParsing.Grammar.Reading

/-!
# Repetitions as rounds

Every repetition goes from round to round: a round gives up, or goes on from a place with what has
been gathered so far. `Parse.rounds` is this recursion, and how often it may be entered is its
bound. Repetitions and chains of operators are instances of it that differ in what a round does and
in what is made of the result (`many_eq`, `oneOrMore_eq`, `chainLeft_eq`, `chainRight_eq`). With the
recursion set apart, a statement about every repetition is a statement about `Parse.rounds`, and
another way of repeating can be put in its place.
-/

set_option autoImplicit false

namespace DiagnosticParsing

namespace Parse

open Run (ofExcept ofCall)

variable {σ : Type}

/-- What a round of a repetition does with what has been gathered: it gives up, or goes on. -/
abbrev Round (σ : Type) : Type :=
  Place → σ → Run (Option (Place × σ))

/-- A way of repeating a round until it gives up. -/
abbrev Repetition : Type 1 :=
  ∀ {σ : Type}, Round σ → Place → σ → Run (Place × σ)

/-- Repeats a round until it gives up. The bound limits the number of rounds. -/
def rounds (bound : Nat) (round : Round σ) (place : Place) (gathered : σ) : Run (Place × σ) :=
  match bound with
  | 0 => Run.unfinished
  | bound + 1 => do
    match ← round place gathered with
    | none => return (place, gathered)
    | some (rest, more) => rounds bound round rest more

/-! ### What a round does -/

/-- One attempt at a parser, whose value is gathered in front of the others. -/
def attempt (p : Parse) : Round (List Value) := fun place values ↦ do
  let mark ← Run.mark
  match ← p place with
  | .failure =>
    Run.rollback mark
    return none
  | reply =>
    let (rest, value) ← ofExcept reply.parts
    return some (rest, value :: values)

/-- One operator and operand, combined with what stands in front of them. -/
def combine (p op : Parse) : Round Value := fun place combined ↦ do
  match ← link p op place with
  | none => return none
  | some (rest, next) =>
    let combined ← ofCall (next.operator.apply₂ combined next.operand)
    return some (rest, combined)

/-- One operator and operand, gathered to be combined later. -/
def gather (p op : Parse) : Round (Value × List Link) := fun place gathered ↦ do
  match ← link p op place with
  | none => return none
  | some (rest, next) =>
    return some (rest, next.operand, ⟨next.operator, gathered.1⟩ :: gathered.2)

/-! ### What is made of the result -/

/-- The values of a repetition, behind the given ones. -/
def collect (repetition : Repetition) (p : Parse) (place : Place) (values : List Value) :
    Run Reply := do
  let (rest, values) ← repetition (attempt p) place values
  return .success rest (.list values.reverse)

/-- A chain of operators, combined from the left. -/
def foldLeft (repetition : Repetition) (p op : Parse) (place : Place) (first : Value) :
    Run Reply := do
  let (rest, combined) ← repetition (combine p op) place first
  return .success rest combined

/-- A chain of operators, combined from the right. -/
def foldRight (repetition : Repetition) (p op : Parse) (place : Place) (last : Value)
    (links : List Link) : Run Reply := do
  let (rest, last, links) ← repetition (gather p op) place (last, links)
  let combined ← links.foldlM (fun combined pending ↦
    ofCall (pending.operator.apply₂ pending.operand combined)) last
  return .success rest combined

theorem repeatFrom_eq (p : Parse) (bound : Nat) :
    ∀ place values, repeatFrom p bound place values = collect (rounds bound) p place values := by
  induction bound with
  | zero => exact fun _ _ ↦ rfl
  | succ bound ih =>
    intro place values
    simp only [repeatFrom, collect, rounds, attempt, bind_assoc]
    refine bind_congr fun mark ↦ bind_congr fun reply ↦ ?_
    cases reply with
    | failure => simp
    | success rest value => simp [ih, collect]
    | malformed v => simp [ih, collect]

theorem chainLeftFrom_eq (p op : Parse) (bound : Nat) :
    ∀ place first,
      chainLeftFrom p op bound place first = foldLeft (rounds bound) p op place first := by
  induction bound with
  | zero => exact fun _ _ ↦ rfl
  | succ bound ih =>
    intro place first
    simp only [chainLeftFrom, foldLeft, rounds, combine, bind_assoc]
    refine bind_congr fun found ↦ ?_
    cases found with
    | none => simp
    | some found => simp [ih, foldLeft]

theorem chainRightFrom_eq (p op : Parse) (bound : Nat) :
    ∀ place last links, chainRightFrom p op bound place last links =
      foldRight (rounds bound) p op place last links := by
  induction bound with
  | zero => exact fun _ _ _ ↦ rfl
  | succ bound ih =>
    intro place last links
    simp only [chainRightFrom, foldRight, rounds, gather, bind_assoc]
    refine bind_congr fun found ↦ ?_
    cases found with
    | none => simp
    | some found => simp [ih, foldRight]

/-! ### Repetitions and chains -/

/-- Any number of times. -/
def manyBy (repetition : Repetition) (p : Parse) : Parse := fun place ↦
  collect repetition p place []

/-- Any number of times but none. -/
def oneOrMoreBy (repetition : Repetition) (p : Parse) : Parse :=
  andThen p fun rest first ↦ collect repetition p rest [first]

/-- A chain of operators that associate to the left. -/
def chainLeftBy (repetition : Repetition) (p op : Parse) : Parse :=
  andThen p (foldLeft repetition p op)

/-- A chain of operators that associate to the right. -/
def chainRightBy (repetition : Repetition) (p op : Parse) : Parse :=
  andThen p fun rest first ↦ foldRight repetition p op rest first []

theorem many_eq (bound : Nat) (p : Parse) : many bound p = manyBy (rounds bound) p := by
  funext place
  exact repeatFrom_eq p bound place []

theorem oneOrMore_eq (bound : Nat) (p : Parse) :
    oneOrMore bound p = oneOrMoreBy (rounds bound) p := by
  simp only [oneOrMore, oneOrMoreBy, repeatFrom_eq]

theorem chainLeft_eq (bound : Nat) (p op : Parse) :
    chainLeft bound p op = chainLeftBy (rounds bound) p op := by
  have h : chainLeftFrom p op bound = foldLeft (rounds bound) p op := by
    funext place first
    exact chainLeftFrom_eq p op bound place first
  rw [chainLeft, chainLeftBy, h]

theorem chainRight_eq (bound : Nat) (p op : Parse) :
    chainRight bound p op = chainRightBy (rounds bound) p op := by
  simp only [chainRight, chainRightBy, chainRightFrom_eq]

end Parse

/-- Repetitions and chains that go round in a given way. -/
def Loops.going (repetition : Parse.Repetition) : Loops :=
  ⟨Parse.manyBy repetition, Parse.oneOrMoreBy repetition, Parse.chainLeftBy repetition,
    Parse.chainRightBy repetition⟩

/-- A bound on the rounds is one way of going round. -/
theorem Loops.within_eq (bound : Nat) : Loops.within bound = .going (Parse.rounds bound) := by
  simp only [within, going, Loops.mk.injEq]
  exact ⟨funext (Parse.many_eq bound), funext (Parse.oneOrMore_eq bound),
    funext fun p ↦ funext (Parse.chainLeft_eq bound p),
    funext fun p ↦ funext (Parse.chainRight_eq bound p)⟩

end DiagnosticParsing
