import DiagnosticParsing.Grammar.Meaning
import DiagnosticParsing.Proofs.Parallel

/-!
# Invariants of parsers

A relation that every way of building a parser keeps (`Grammar.Hereditary`) relates every grammar
to itself. `Grammar.Hereditary.eval` says so of what grammars mean, by induction on the bound.

A property of parsers is a relation in which the second side does not count. A `Grammar.Invariant`
lists what has to be shown of a property, one condition for each constructor of `Grammar`. The
constructors that only hand on what their parts do have to keep it whatever the parts are.
-/

set_option autoImplicit false

namespace DiagnosticParsing.Grammar

variable {definitions : Definitions} {allowed : Grammar → Prop} {related : Parse → Parse → Prop}
  {holds : Parse → Prop}

/-- What a grammar means on two sides is related, when that is so of whatever the grammar refers
to. -/
theorem Preserved.meaning (hpreserved : Preserved allowed related) {bound bound' : Nat}
    (hoperations : Operations.Preserve allowed related (.standard (.within bound))
      (.standard (.within bound')))
    {enter enter' : Scope → Grammar → Parse} (hdefinitions : definitions.Everywhere allowed)
    (henter : ∀ scope p, scope.Everywhere allowed → p.Everywhere allowed →
      related (enter scope p) (enter' scope p))
    (scope : Scope) (p : Grammar) (hscope : scope.Everywhere allowed) (hp : p.Everywhere allowed) :
    related (p.meaning definitions enter bound scope)
      (p.meaning definitions enter' bound' scope) := by
  refine hpreserved.read hoperations (fun {scope q} _ hscope hallowed ↦ ?_)
    (fun {scope _} hscope _ ih ↦ ih scope hscope) (fun _ _ ih ↦ ih) scope p hscope hp
  simp only [plain]
  cases hbehind : definitions.behind scope q with
  | error fault => exact hpreserved.raise fault
  | ok closure =>
    obtain ⟨hinner, hclosure⟩ := Definitions.everywhere_behind hdefinitions hscope hallowed hbehind
    exact henter closure.scope closure.grammar hinner hclosure

/-- A relation between parsers that passes from the parts of every allowed grammar to the whole. -/
structure Hereditary (allowed : Grammar → Prop) (related : Parse → Parse → Prop) : Prop where
  unfinished : related (fun _ ↦ Run.unfinished) fun _ ↦ Run.unfinished
  preserved : Preserved allowed related
  preserve : ∀ bound, Operations.Preserve allowed related (.standard (.within bound))
    (.standard (.within bound))

/-- Every grammar of allowed parts over definitions of allowed parts is related to itself, whatever
the bound. -/
theorem Hereditary.eval (hereditary : Hereditary allowed related)
    (hdefinitions : definitions.Everywhere allowed) (bound : Nat) :
    ∀ (scope : Scope) (p : Grammar), scope.Everywhere allowed → p.Everywhere allowed →
      related (p.eval definitions bound scope) (p.eval definitions bound scope) := by
  induction bound with
  | zero => exact fun _ _ _ _ ↦ hereditary.unfinished
  | succ bound ih =>
    intro scope p hscope hp
    exact hereditary.preserved.meaning (hereditary.preserve _) hdefinitions ih scope p hscope hp

/-- A property that holds of every parser built from allowed parts, because each way of building a
parser keeps it. -/
structure Invariant (allowed : Grammar → Prop) (holds : Parse → Prop) : Prop where
  unfinished : holds fun _ ↦ Run.unfinished
  succeed : ∀ v, allowed (.succeed v) → holds (Parse.succeed v)
  empty : allowed .empty → holds Parse.empty
  eof : allowed .eof → holds Parse.eof
  element : ∀ test describe, allowed (.element test describe) → holds (Parse.element test describe)
  token : ∀ test describe, allowed (.token test describe) → holds (Parse.token test describe)
  literal : ∀ v, allowed (.literal v) → holds (Parse.literal v)
  regex : ∀ pattern, allowed (.regex pattern) → holds (Parse.regex pattern)
  raise : ∀ fault, holds (Parse.raise fault)
  reply : ∀ answer, allowed (.reply answer) → holds (Parse.reply answer)
  map : ∀ part p f, allowed (.map part f) → holds p → holds (Parse.map p f)
  mapOption : ∀ part p f, allowed (.mapOption part f) → holds p → holds (Parse.mapOption p f)
  mapResult : ∀ part p f, allowed (.mapResult part f) → holds p → holds (Parse.mapResult p f)
  compose : ∀ p q, holds p → holds q → holds (Parse.compose p q)
  chooseNext : ∀ p choose next, holds p → (∀ v, holds (next v)) →
    holds (Parse.chooseNext p choose next)
  both : ∀ p q, holds p → holds q → holds (Parse.both p q)
  left : ∀ p q, holds p → holds q → holds (Parse.left p q)
  right : ∀ p q, holds p → holds q → holds (Parse.right p q)
  mid : ∀ p q r, holds p → holds q → holds r → holds (Parse.mid p q r)
  either : ∀ p q, holds p → holds q → holds (Parse.either p q)
  many : ∀ bound p, holds p → holds (Parse.many bound p)
  oneOrMore : ∀ bound p, holds p → holds (Parse.oneOrMore bound p)
  optional : ∀ p, holds p → holds (Parse.optional p)
  optionalEmpty : holds (Parse.optional Parse.empty)
  count : ∀ n p, holds p → holds (Parse.count n p)
  chainLeft : ∀ bound p op, holds p → holds op → holds (Parse.chainLeft bound p op)
  chainRight : ∀ bound p op, holds p → holds op → holds (Parse.chainRight bound p op)
  lookAhead : ∀ p, holds p → holds (Parse.lookAhead p)
  notFollowedBy : ∀ p, holds p → holds (Parse.notFollowedBy p)
  annotate : ∀ severity part p text, allowed (.annotate severity part text) → holds p →
    holds (Parse.annotate severity p text)
  label : ∀ part p name, allowed (.label part name) → holds p → holds (Parse.label p name)
  inspect : ∀ part p observe, allowed (.inspect part observe) → holds p →
    holds (Parse.inspect p observe)
  recover : ∀ part p default, allowed (.recover part default) → holds p →
    holds (Parse.recover p default)
  trace : ∀ name p, holds p → holds (Parse.trace name p)

namespace Invariant

/-- An invariant as a relation in which the second side does not count. -/
theorem preserved (invariant : Invariant allowed holds) :
    Preserved allowed fun p _ ↦ holds p where
  succeed := invariant.succeed
  empty := invariant.empty
  eof := invariant.eof
  element := invariant.element
  token := invariant.token
  literal := invariant.literal
  regex := invariant.regex
  raise := invariant.raise
  reply := invariant.reply
  map := fun part f ↦ invariant.map part _ f
  mapOption := fun part f ↦ invariant.mapOption part _ f
  mapResult := fun part f ↦ invariant.mapResult part _ f
  compose := fun _ _ _ ↦ invariant.compose _ _
  chooseNext := fun _ choose _ _ ↦ invariant.chooseNext _ choose _
  both := fun _ _ _ ↦ invariant.both _ _
  left := fun _ _ _ ↦ invariant.left _ _
  right := fun _ _ _ ↦ invariant.right _ _
  mid := fun _ _ _ _ ↦ invariant.mid _ _ _
  either := fun _ _ _ ↦ invariant.either _ _
  optional := fun _ _ ↦ invariant.optional _
  optionalEmpty := fun _ ↦ invariant.optionalEmpty
  count := fun n _ _ ↦ invariant.count n _
  lookAhead := fun _ _ ↦ invariant.lookAhead _
  notFollowedBy := fun _ _ ↦ invariant.notFollowedBy _

theorem preserve (invariant : Invariant allowed holds) (bound : Nat) :
    Operations.Preserve allowed (fun p _ ↦ holds p) (.standard (.within bound))
      (.standard (.within bound)) where
  many := fun _ _ ↦ invariant.many bound _
  oneOrMore := fun _ _ ↦ invariant.oneOrMore bound _
  chainLeft := fun _ _ _ ↦ invariant.chainLeft bound _ _
  chainRight := fun _ _ _ ↦ invariant.chainRight bound _ _
  annotate := fun severity part text ↦ invariant.annotate severity part _ text
  label := fun part name ↦ invariant.label part _ name
  inspect := fun part observe ↦ invariant.inspect part _ observe
  recover := fun part default ↦ invariant.recover part _ default
  trace := fun name _ _ ↦ invariant.trace name _

/-- What holds of every parser built from allowed parts, holds of every grammar. -/
theorem hereditary (invariant : Invariant allowed holds) :
    Hereditary allowed fun p _ ↦ holds p where
  unfinished := invariant.unfinished
  preserved := invariant.preserved
  preserve := invariant.preserve

/-- An invariant holds of every grammar of allowed parts over definitions of allowed parts, whatever
the bound. -/
theorem eval (invariant : Invariant allowed holds)
    (hdefinitions : definitions.Everywhere allowed) (bound : Nat) :
    ∀ (scope : Scope) (p : Grammar), scope.Everywhere allowed → p.Everywhere allowed →
      holds (p.eval definitions bound scope) :=
  invariant.hereditary.eval hdefinitions bound

/-- An invariant for which every grammar is allowed holds of every grammar. -/
theorem eval_of_forall (invariant : Invariant allowed holds) (hallowed : ∀ p, allowed p)
    (definitions : Definitions) (bound : Nat) (scope : Scope) (p : Grammar) :
    holds (p.eval definitions bound scope) :=
  invariant.eval (fun _ q _ ↦ everywhere_of_forall hallowed q) bound scope p
    (Scope.everywhere_of_forall hallowed scope) (everywhere_of_forall hallowed p)

end Invariant

end DiagnosticParsing.Grammar
