import DiagnosticParsing.Grammar.Reading

/-!
# Meaning of grammars

What a grammar means is told without cells: a reference does what stands behind it, each time anew.
Two things are left open by `Grammar.meaning`: how what stands behind a reference is entered, and a
bound on the number of rounds of each repetition. `Grammar.eval` closes both with one number, which
bounds the rounds of repetitions and the depth to which references can be nested; with a number too
small the run stays unfinished.

A run keeps what it has built (`DiagnosticParsing.Grammar.Execution`). It ends as the grammar means
(`Grammar.ending?_runWithin`).
-/

set_option autoImplicit false

namespace DiagnosticParsing.Grammar

/-- The reading in which `enter` tells what a grammar does that a reference leads to. -/
def plain (definitions : Definitions) (enter : Scope → Grammar → Parse) (loops : Loops) :
    Reading Scope where
  loops
  refer scope p :=
    match definitions.behind scope p with
    | .ok closure => enter closure.scope closure.grammar
    | .error fault => Parse.raise fault
  afresh scope parse := parse scope
  copied _ _ parse := parse

/-- What a grammar does in a scope, when `enter` tells what a grammar referred to does in the scope
in which it stands. -/
def meaning (definitions : Definitions) (enter : Scope → Grammar → Parse) (bound : Nat)
    (scope : Scope) (p : Grammar) : Parse :=
  p.read (plain definitions enter (.within bound)) scope

/-- What a grammar does in a scope, within a bound on the rounds of its repetitions and on the depth
of its references. -/
def eval (definitions : Definitions) : (bound : Nat) → Scope → Grammar → Parse
  | 0, _, _ => fun _ ↦ Run.unfinished
  | bound + 1, scope, p => meaning definitions (eval definitions bound) (bound + 1) scope p

end DiagnosticParsing.Grammar
