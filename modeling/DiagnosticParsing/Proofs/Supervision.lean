import DiagnosticParsing.Grammar.Meaning
import DiagnosticParsing.Proofs.Rounds

/-!
# Supervised parsing

A parse can go on for ever in two ways: by a repetition whose rounds succeed without consuming
anything, and by a deferred part that is entered again and again at the same place. A supervised
parse is watched for both, and a fault is raised where one of them occurs:

* a round of a repetition that succeeds has to leave a greater index than it started from
  (`Supervision.advancing`);
* a deferred part has to be entered at a greater index than every entry to the same definition that
  is still running (`Supervision.entering`).

`Supervision.paced` reads a grammar in this way. As every round consumes something, a repetition is
given no more attempts than elements are left, and one (`Place.attempts`); if it needed more it
would stay unfinished. Everything else is as in `Grammar.eval`.

Which deferred parts count as entries to the same definition is up to the supervision, which numbers
them. It can tell the cells apart, or their labels, or the names of the definitions they build.
-/

set_option autoImplicit false

namespace DiagnosticParsing

/-- One attempt for each element left, and one more. -/
def Place.attempts : Place → Nat
  | .stream _ s => s.remaining.toNat + 1
  | .stray _ => 1

theorem Place.attempts_pos (place : Place) : 0 < place.attempts := by
  cases place with
  | stream slot s => exact Nat.succ_pos _
  | stray v => exact Nat.one_pos

/-- The other place has a greater index. -/
def Place.isBefore (place other : Place) : Bool :=
  match place, other with
  | .stream _ s, .stream _ t => decide (s.index < t.index)
  | _, _ => false

/-- Repetitions with no more attempts than one for each element left, and one more. -/
def Loops.sparing : Loops :=
  .going fun round place gathered ↦ Parse.rounds place.attempts round place gathered

/-- What a grammar does in a scope, within a bound on the depth of its references and without any
bound on its repetitions but the number of elements left. -/
def Grammar.evalSparingly (definitions : Definitions) : (depth : Nat) → Scope → Grammar → Parse
  | 0, _, _ => fun _ ↦ Run.unfinished
  | depth + 1, scope, p =>
    p.read (plain definitions (evalSparingly definitions depth) .sparing) scope

/-- The entries to definitions that are still running, with the index of each. -/
abbrev Entries (n : Nat) : Type :=
  List (Fin n × Nat)

/-- What a supervised parse is watched by. -/
structure Supervision (n : Nat) where
  /-- The number of the definition to which a deferred part in a scope is an entry. -/
  definitionOf : Scope → Grammar → Fin n
  /-- The fault raised where a parse does not get on. -/
  refusal : Fault

namespace Supervision

open Parse

variable {n : Nat} (supervision : Supervision n)

/-- A round that is refused if it goes on from where it started. -/
def advancing {σ : Type} (round : Round σ) : Round σ := fun place gathered ↦ do
  match ← round place gathered with
  | none => return none
  | some (rest, more) =>
    if place.isBefore rest then return some (rest, more) else Run.fault supervision.refusal

/-- Repeats a round as long as it goes on from a greater index. -/
def repeating : Repetition := fun round place gathered ↦
  rounds place.attempts (supervision.advancing round) place gathered

/-- Enters a definition, which is refused if an entry to it is running that has not been left behind
in the input. -/
def entering (entries : Entries n) (definition : Fin n) (p : Entries n → Parse) : Parse :=
  fun place ↦ do
    let index ← Run.ofExcept place.index
    if entries.any fun entry ↦ entry.1 == definition && decide (index ≤ entry.2) then
      Run.fault supervision.refusal
    else p ((definition, index) :: entries) place

/-- The entry to a cell, which counts as one to the definition of the cell. `enter` tells what the
grammar behind it does among the entries that are running. -/
def entered (definitions : Definitions) (enter : Entries n → Scope → Grammar → Parse)
    (entries : Entries n) (cell : Closure) : Parse :=
  match definitions.behind cell.scope cell.grammar with
  | .ok inside =>
    supervision.entering entries (supervision.definitionOf cell.scope cell.grammar) fun entries ↦
      enter entries inside.scope inside.grammar
  | .error fault => Parse.raise fault

/-- The reading under supervision, in an environment of entries that are running and of a scope. -/
def reading (definitions : Definitions) (enter : Entries n → Scope → Grammar → Parse) :
    Reading (Entries n × Scope) where
  loops := .going supervision.repeating
  refer env p :=
    match p with
    | .use name =>
      match definitions.get name with
      | .ok q => enter env.1 (.shared name) q
      | .error fault => Parse.raise fault
    | .var name =>
      match env.2.lookup name with
      | some cell => supervision.entered definitions enter env.1 cell
      | none => Parse.raise (.missingKey (.text name))
    | cell => supervision.entered definitions enter env.1 ⟨env.2, cell⟩
  afresh env parse := parse env
  copied _ _ parse := parse

/-- What a grammar does in a scope under supervision, within a bound on the depth of its
references. -/
def paced (definitions : Definitions) : (depth : Nat) → Entries n → Scope → Grammar → Parse
  | 0, _, _, _ => fun _ ↦ Run.unfinished
  | depth + 1, entries, scope, p =>
    p.read (supervision.reading definitions (paced definitions depth)) (entries, scope)

end Supervision

end DiagnosticParsing
