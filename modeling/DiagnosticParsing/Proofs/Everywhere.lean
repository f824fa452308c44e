import DiagnosticParsing.Grammar.Lists
import DiagnosticParsing.Grammar.OperatorTable

/-!
# Allowed parts of grammars

Some properties hold only of grammars that avoid certain constructors. `p.Everywhere allowed` says
that every part of `p` is allowed, the parsers that binders choose among them. A level of an
operator table has `optional empty` in the place of the operators that it lacks, and this counts as
one constructor: no part of it is looked at. The lemmas `everywhere_choice` and
`everywhere_expression` say when choices and expression parsers consist of allowed parts, and
`Definitions.everywhere_behind` that references lead to allowed parts only.
-/

set_option autoImplicit false

namespace DiagnosticParsing

namespace Grammar

/-! ### Allowed parts -/

/-- Every part of a grammar is allowed. -/
def Everywhere (allowed : Grammar → Prop) : Grammar → Prop
  | map p f => allowed (map p f) ∧ p.Everywhere allowed
  | mapOption p f => allowed (mapOption p f) ∧ p.Everywhere allowed
  | mapResult p f => allowed (mapResult p f) ∧ p.Everywhere allowed
  | compose p q => allowed (compose p q) ∧ p.Everywhere allowed ∧ q.Everywhere allowed
  | bind p choose next =>
    allowed (bind p choose next) ∧ p.Everywhere allowed ∧ ∀ v, (next v).Everywhere allowed
  | both p q => allowed (both p q) ∧ p.Everywhere allowed ∧ q.Everywhere allowed
  | left p q => allowed (left p q) ∧ p.Everywhere allowed ∧ q.Everywhere allowed
  | right p q => allowed (right p q) ∧ p.Everywhere allowed ∧ q.Everywhere allowed
  | mid p q r =>
    allowed (mid p q r) ∧ p.Everywhere allowed ∧ q.Everywhere allowed ∧ r.Everywhere allowed
  | either p q => allowed (either p q) ∧ p.Everywhere allowed ∧ q.Everywhere allowed
  | many p => allowed (many p) ∧ p.Everywhere allowed
  | oneOrMore p => allowed (oneOrMore p) ∧ p.Everywhere allowed
  | optional p => allowed (optional p) ∧ (p = empty ∨ p.Everywhere allowed)
  | count n p => allowed (count n p) ∧ p.Everywhere allowed
  | chainLeft p op => allowed (chainLeft p op) ∧ p.Everywhere allowed ∧ op.Everywhere allowed
  | chainRight p op => allowed (chainRight p op) ∧ p.Everywhere allowed ∧ op.Everywhere allowed
  | lookAhead p => allowed (lookAhead p) ∧ p.Everywhere allowed
  | notFollowedBy p => allowed (notFollowedBy p) ∧ p.Everywhere allowed
  | annotate severity p text => allowed (annotate severity p text) ∧ p.Everywhere allowed
  | label p name => allowed (label p name) ∧ p.Everywhere allowed
  | inspect p observe => allowed (inspect p observe) ∧ p.Everywhere allowed
  | recover p default => allowed (recover p default) ∧ p.Everywhere allowed
  | trace name p => allowed (trace name p) ∧ p.Everywhere allowed
  | fix tag name body => allowed (fix tag name body) ∧ body.Everywhere allowed
  | afresh p => allowed (afresh p) ∧ p.Everywhere allowed
  | copied p => allowed (copied p) ∧ p.Everywhere allowed
  | p => allowed p

/-- When every grammar is allowed, so is every part of one. -/
theorem everywhere_of_forall {allowed : Grammar → Prop} (hallowed : ∀ p, allowed p) (p : Grammar) :
    p.Everywhere allowed := by
  induction p <;> simp_all [Everywhere]

/-- When all that is allowed is good, a grammar of allowed parts has good parts only. -/
theorem Everywhere.mono {allowed good : Grammar → Prop} (hgood : ∀ p, allowed p → good p)
    {p : Grammar} (hp : p.Everywhere allowed) : p.Everywhere good := by
  induction p with
  | optional p ih =>
    obtain ⟨hallowed, hpart⟩ := hp
    exact ⟨hgood _ hallowed, hpart.imp id ih⟩
  | bind p choose next ih ihnext =>
    obtain ⟨hallowed, hpart, hnext⟩ := hp
    exact ⟨hgood _ hallowed, ih hpart, fun v ↦ ihnext v (hnext v)⟩
  | _ => simp_all [Everywhere]

/-- Parts that are allowed in two senses are allowed in both. -/
theorem Everywhere.and {allowed also : Grammar → Prop} {p : Grammar} (hp : p.Everywhere allowed)
    (hp' : p.Everywhere also) : p.Everywhere fun q ↦ allowed q ∧ also q := by
  induction p with
  | optional p ih =>
    refine ⟨⟨hp.1, hp'.1⟩, ?_⟩
    rcases hp.2 with hempty | hpart
    · exact .inl hempty
    · exact hp'.2.imp id (ih hpart)
  | bind p choose next ih ihnext =>
    exact ⟨⟨hp.1, hp'.1⟩, ih hp.2.1 hp'.2.1, fun v ↦ ihnext v (hp.2.2 v) (hp'.2.2 v)⟩
  | _ => simp_all [Everywhere]

end Grammar

/-- Every part of every definition is allowed. -/
def Definitions.Everywhere (definitions : Definitions) (allowed : Grammar → Prop) : Prop :=
  ∀ name p, definitions.get name = .ok p → p.Everywhere allowed

/-- Where no name is defined there is nothing that is not allowed. -/
theorem Definitions.everywhere_none (allowed : Grammar → Prop) :
    Definitions.none.Everywhere allowed :=
  fun _ _ hget ↦ nomatch hget

/-- Every part of every cell that a variable can refer to is allowed. -/
def Scope.Everywhere (allowed : Grammar → Prop) : Scope → Prop
  | .bound tag name body outer =>
    (Grammar.fix tag name body).Everywhere allowed ∧ outer.Everywhere allowed
  | .anew _ outer => outer.Everywhere allowed
  | .afresh _ outer => outer.Everywhere allowed
  | _ => True

/-- When every grammar is allowed, so are the cells that a variable can refer to. -/
theorem Scope.everywhere_of_forall {allowed : Grammar → Prop} (hallowed : ∀ p, allowed p)
    (scope : Scope) : scope.Everywhere allowed := by
  induction scope with
  | top => trivial
  | shared home => trivial
  | anew tag outer ih => exact ih
  | bound tag name body outer ih => exact ⟨Grammar.everywhere_of_forall hallowed _, ih⟩
  | afresh stamp outer ih => exact ih

/-- What a variable refers to consists of allowed parts and stands in a scope that does too. -/
theorem Scope.everywhere_lookup {allowed : Grammar → Prop} {scope : Scope} {name : String}
    {cell : Closure} (hscope : scope.Everywhere allowed)
    (hlookup : scope.lookup name = some cell) :
    cell.scope.Everywhere allowed ∧ cell.grammar.Everywhere allowed := by
  induction scope with
  | top => simp [lookup] at hlookup
  | shared home => simp [lookup] at hlookup
  | anew tag inner ih => simp [lookup] at hlookup
  | afresh stamp inner ih => exact ih hscope hlookup
  | bound tag own body inner ih =>
    rw [lookup] at hlookup
    by_cases hname : own = name
    · rw [if_pos hname] at hlookup
      obtain rfl := Option.some.inj hlookup
      exact ⟨hscope.2, hscope.1⟩
    · rw [if_neg hname] at hlookup
      exact ih hscope.2 hlookup

/-- What a variable refers to is a cell with a variable for itself. -/
theorem Scope.lookup_eq_fix {scope : Scope} {name : String} {cell : Closure}
    (hlookup : scope.lookup name = some cell) :
    ∃ outer tag own body, cell = ⟨outer, .fix tag own body⟩ := by
  induction scope with
  | top => simp [lookup] at hlookup
  | shared home => simp [lookup] at hlookup
  | anew tag inner ih => simp [lookup] at hlookup
  | afresh stamp inner ih => exact ih hlookup
  | bound tag own body inner ih =>
    rw [lookup] at hlookup
    by_cases hname : own = name
    · rw [if_pos hname] at hlookup
      exact ⟨inner, tag, own, body, (Option.some.inj hlookup).symm⟩
    · rw [if_neg hname] at hlookup
      exact ih hlookup

/-- The inside of a cell consists of allowed parts and stands in a scope that does too. -/
theorem Closure.everywhere_opened {allowed : Grammar → Prop} {cell : Closure}
    (hscope : cell.scope.Everywhere allowed) (hcell : cell.grammar.Everywhere allowed) :
    cell.opened.scope.Everywhere allowed ∧ cell.opened.grammar.Everywhere allowed := by
  obtain ⟨scope, p⟩ := cell
  cases p with
  | fix tag name body => exact ⟨⟨hcell, hscope⟩, hcell.2⟩
  | _ => exact ⟨hscope, hcell⟩

/-- What a reference leads to consists of allowed parts and stands in a scope that does too. -/
theorem Definitions.everywhere_behind {allowed : Grammar → Prop} {definitions : Definitions}
    (hdefinitions : definitions.Everywhere allowed) {scope : Scope} {p : Grammar}
    {closure : Closure} (hscope : scope.Everywhere allowed) (hp : p.Everywhere allowed)
    (hbehind : definitions.behind scope p = .ok closure) :
    closure.scope.Everywhere allowed ∧ closure.grammar.Everywhere allowed := by
  cases p with
  | use name | lazy tag name | lazyShared tag name =>
    simp only [behind] at hbehind
    cases hget : definitions.get name with
    | error fault => simp [hget, Except.map] at hbehind
    | ok q =>
      simp only [hget, Except.map, Except.ok.injEq] at hbehind
      subst hbehind
      exact ⟨by trivial, hdefinitions name q hget⟩
  | var name =>
    simp only [behind] at hbehind
    cases hlookup : scope.lookup name with
    | none => simp [hlookup] at hbehind
    | some cell =>
      simp only [hlookup, Except.ok.injEq] at hbehind
      subst hbehind
      obtain ⟨houter, hcell⟩ := Scope.everywhere_lookup hscope hlookup
      exact Closure.everywhere_opened houter hcell
  | fix tag name body =>
    simp only [behind, Except.ok.injEq] at hbehind
    subst hbehind
    exact Closure.everywhere_opened hscope hp
  | unbuildable tag name fault => simp [behind] at hbehind
  | _ =>
    simp only [behind, Except.ok.injEq] at hbehind
    subst hbehind
    exact ⟨hscope, hp⟩

namespace Grammar

variable {allowed : Grammar → Prop}

/-! ### Allowed parts of choices and expression parsers -/

/-- Whatever a level of an operator table is made of, operators and operands apart, is allowed. The
functions in it report nothing. -/
structure AllowsLevels (allowed : Grammar → Prop) : Prop where
  succeed : ∀ v, allowed (.succeed v)
  map : ∀ p f, (∀ x, (f x).notes = []) → allowed (.map p f)
  bind : ∀ p choose next, (∀ x, (choose x).notes = []) → allowed (.bind p choose next)
  both : ∀ p q, allowed (.both p q)
  either : ∀ p q, allowed (.either p q)
  optional : ∀ p, allowed (.optional p)
  chainLeft : ∀ p op, allowed (.chainLeft p op)
  chainRight : ∀ p op, allowed (.chainRight p op)

theorem everywhere_foldl_either (heither : ∀ p q, allowed (.either p q)) (rest : List Grammar) :
    ∀ p : Grammar, p.Everywhere allowed → (∀ q ∈ rest, q.Everywhere allowed) →
      (rest.foldl either p).Everywhere allowed := by
  induction rest with
  | nil => exact fun p hp _ ↦ hp
  | cons q rest ih =>
    intro p hp hrest
    obtain ⟨hq, hrest⟩ := List.forall_mem_cons.mp hrest
    exact ih (either p q) ⟨heither p q, hp, hq⟩ hrest

/-- A choice among at least one parser consists of allowed parts when the parsers do. -/
theorem everywhere_choice_cons (heither : ∀ p q, allowed (.either p q)) {p : Grammar}
    {rest : List Grammar} (hparsers : ∀ q ∈ p :: rest, q.Everywhere allowed) :
    (choice (p :: rest)).Everywhere allowed := by
  obtain ⟨hp, hrest⟩ := List.forall_mem_cons.mp hparsers
  exact everywhere_foldl_either heither rest p hp hrest

/-- A choice among parsers of allowed parts consists of allowed parts, unless it is empty. -/
theorem everywhere_choice (hallowed : AllowsLevels allowed) {parsers : List Grammar}
    (hparsers : ∀ p ∈ parsers, p.Everywhere allowed) :
    choice parsers = empty ∨ (choice parsers).Everywhere allowed := by
  cases parsers with
  | nil => exact .inl rfl
  | cons p rest => exact .inr (everywhere_choice_cons hallowed.either hparsers)

/-- The operators of one kind are among the operators of the level. -/
theorem everywhere_ofKind {operators : List (Operator Grammar)}
    (hoperators : ∀ operator ∈ operators, operator.parser.Everywhere allowed)
    (kind : OperatorKind) : ∀ p ∈ Operator.ofKind kind operators, p.Everywhere allowed := by
  intro p hp
  obtain ⟨operator, hmem, rfl⟩ := List.mem_map.mp hp
  exact hoperators operator (List.mem_filter.mp hmem).1

/-- A chain of allowed operators from the left, if there are any, over an allowed operand. -/
theorem everywhere_leftward (hallowed : AllowsLevels allowed) {operand : Grammar}
    {parsers : List Grammar} (hoperand : operand.Everywhere allowed)
    (hparsers : ∀ p ∈ parsers, p.Everywhere allowed) :
    (match parsers with
      | [] => operand
      | ops => chainLeft operand (choice ops)).Everywhere allowed := by
  cases parsers with
  | nil => exact hoperand
  | cons p rest =>
    have hop := everywhere_choice_cons hallowed.either hparsers
    exact ⟨hallowed.chainLeft _ _, hoperand, hop⟩

/-- A chain of allowed operators from the right, if there are any, over an allowed operand. -/
theorem everywhere_rightward (hallowed : AllowsLevels allowed) {operand : Grammar}
    {parsers : List Grammar} (hoperand : operand.Everywhere allowed)
    (hparsers : ∀ p ∈ parsers, p.Everywhere allowed) :
    (match parsers with
      | [] => operand
      | ops => chainRight operand (choice ops)).Everywhere allowed := by
  cases parsers with
  | nil => exact hoperand
  | cons p rest =>
    have hop := everywhere_choice_cons hallowed.either hparsers
    exact ⟨hallowed.chainRight _ _, hoperand, hop⟩

/-- An allowed operator that stands alone, if there is one, between allowed operands. -/
theorem everywhere_alone (hallowed : AllowsLevels allowed) {operand : Grammar}
    {parsers : List Grammar} (hoperand : operand.Everywhere allowed)
    (hparsers : ∀ p ∈ parsers, p.Everywhere allowed) :
    (match parsers with
      | [] => operand
      | ops => unchained operand (choice ops)).Everywhere allowed := by
  cases parsers with
  | nil => exact hoperand
  | cons p rest =>
    have hop := everywhere_choice_cons hallowed.either hparsers
    refine ⟨hallowed.bind _ _ _ fun _ ↦ rfl, hoperand, fun x ↦ ?_⟩
    refine ⟨hallowed.either _ _, ?_, hallowed.succeed x⟩
    exact ⟨hallowed.map _ _ (notes_applyBetween x), hallowed.both _ _, hop, hoperand⟩

/-- One level over allowed parts consists of allowed parts. The operators before and behind an
operand that the level lacks are the one place where an empty choice stands. -/
theorem everywhere_level (hallowed : AllowsLevels allowed) {term : Grammar}
    {operators : List (Operator Grammar)} (hterm : term.Everywhere allowed)
    (hoperators : ∀ operator ∈ operators, operator.parser.Everywhere allowed) :
    (level term operators).Everywhere allowed := by
  have hkind := everywhere_ofKind hoperators
  have hoperand : (affixed (Operator.ofKind .before operators) (Operator.ofKind .behind operators)
      term).Everywhere allowed :=
    ⟨hallowed.map _ _ notes_applyAround, hallowed.both _ _,
      ⟨hallowed.both _ _, ⟨hallowed.optional _, everywhere_choice hallowed (hkind .before)⟩, hterm⟩,
      hallowed.optional _, everywhere_choice hallowed (hkind .behind)⟩
  have hleftward := everywhere_leftward hallowed hoperand (hkind .leftward)
  have hrightward := everywhere_rightward hallowed hleftward (hkind .rightward)
  exact everywhere_alone hallowed hrightward (hkind .alone)

/-- An expression parser over allowed parts consists of allowed parts. -/
theorem everywhere_expression (hallowed : AllowsLevels allowed)
    {table : List (List (Operator Grammar))} :
    ∀ {term : Grammar}, term.Everywhere allowed →
      (∀ operators ∈ table, ∀ operator ∈ operators, operator.parser.Everywhere allowed) →
        (expression table term).Everywhere allowed := by
  induction table with
  | nil => exact fun hterm _ ↦ hterm
  | cons operators rest ih =>
    intro term hterm htable
    obtain ⟨hoperators, hrest⟩ := List.forall_mem_cons.mp htable
    exact ih (everywhere_level hallowed hterm hoperators) hrest

end Grammar

end DiagnosticParsing
