import DiagnosticParsing.Grammar.Lists
import DiagnosticParsing.Proofs.Endings.Parsers

/-!
# Ordered choice

An alternative tries its first parser and, if that one fails, the second one from the same place and
with the log from before. A choice among several parsers is made of alternatives, and they can be
put together in more than one way (`Grammar.Alternatives`). Each way takes marks of the log at other
moments: the alternative on the outside may take one before a parser that takes several itself.

All of these marks are the same as long as a parser that fails leaves the log as long as it was or
longer, and takes back nothing from before. Every grammar is like that, so that alternatives can be
put together in any order (`Parse.either_assoc`), and the way in which they are put together makes
no difference to any run (`Grammar.eval_toGrammar`). What comes out is the end of a single parser,
run alone at the same place and with the same log: the first one that does not fail, or the last one
(`Grammar.endsWith_choice`). So nothing that an earlier one has logged remains. What fails silently
makes no difference in front of a parser; behind it, it takes back what the parser has logged where
that fails, and leaves every other end as it is. The main result is `Grammar.ordered_choice`.
-/

set_option autoImplicit false

namespace DiagnosticParsing

namespace Parse

/-- Alternatives can be put together in any order: where the first parser has failed, the log is as
long as it was before. -/
theorem either_assoc {p : Parse} (hp : Framed p) (q r : Parse) :
    either (either p q) r = either p (either q r) := by
  funext place
  ext journal
  by_cases hfirst : ∃ final, p place journal = .done .failure final
  · obtain ⟨final, hfirst⟩ := hfirst
    have hlog := rollback_log_of_done hp hfirst
    have hinner : either p q place journal = q place (final.rollback journal.log.mark) :=
      either_of_failed hfirst
    rw [either_of_failed hfirst]
    by_cases hsecond : ∃ last, q place (final.rollback journal.log.mark) = .done .failure last
    · obtain ⟨last, hsecond⟩ := hsecond
      rw [either_of_failed (hinner.trans hsecond), either_of_failed hsecond, hlog]
    · rw [either_of_not_failed (not_exists.mp hsecond), ← hinner]
      refine either_of_not_failed fun last hlast ↦ hsecond ⟨last, ?_⟩
      rw [← hinner, hlast]
  · have hnot := not_exists.mp hfirst
    have hinner : either p q place journal = p place journal := either_of_not_failed hnot
    rw [either_of_not_failed hnot, ← hinner]
    refine either_of_not_failed fun last hlast ↦ hnot last ?_
    rw [← hinner, hlast]

/-- What fails and says nothing is no alternative. -/
theorem empty_either (p : Parse) : either empty p = p := by
  funext place
  ext journal
  have hempty : empty place journal = .done .failure journal := rfl
  rw [either_of_failed hempty, Journal.rollback_mark]

/-- In a row of alternatives the first one can be set apart. -/
theorem foldl_either {p : Parse} (hp : Framed p) (more : List Parse) :
    ∀ q, more.foldl either (either p q) = either p (more.foldl either q) := by
  induction more with
  | nil => exact fun _ ↦ rfl
  | cons r more ih =>
    intro q
    rw [List.foldl_cons, List.foldl_cons, either_assoc hp, ih]

end Parse

namespace Grammar

variable {definitions : Definitions} {scope : Scope} {p q : Grammar} {place : Place} {log : Log}
  {ending : Except Fault Reply × Log}

/-! ### Choices among several parsers -/

/-- A choice among parsers does what a row of alternatives does. -/
theorem eval_choice (definitions : Definitions) (scope : Scope) (bound : Nat) (p : Grammar)
    (rest : List Grammar) :
    (choice (p :: rest)).eval definitions (bound + 1) scope =
      (rest.map fun q ↦ q.eval definitions (bound + 1) scope).foldl Parse.either
        (p.eval definitions (bound + 1) scope) := by
  rw [choice]
  induction rest generalizing p with
  | nil => rfl
  | cons q rest ih => exact ih (either p q)

/-- What fails and says nothing is no alternative. -/
theorem eval_empty_either (definitions : Definitions) (scope : Scope) (p : Grammar) (bound : Nat) :
    (either empty p).eval definitions bound scope = p.eval definitions bound scope := by
  cases bound with
  | zero => rfl
  | succ bound => exact Parse.empty_either _

/-- A choice among some parsers and more is an alternative between the choices among each. -/
theorem eval_choice_append (definitions : Definitions) (scope : Scope) (xs : List Grammar)
    (y : Grammar) (ys : List Grammar) (bound : Nat) :
    (choice (xs ++ y :: ys)).eval definitions bound scope =
      (either (choice xs) (choice (y :: ys))).eval definitions bound scope := by
  cases bound with
  | zero => rfl
  | succ bound =>
    cases xs with
    | nil => exact (eval_empty_either definitions scope _ _).symm
    | cons x xs =>
      have hframed := framed_eval definitions (bound + 1) scope (choice (x :: xs))
      have heither : (either (choice (x :: xs)) (choice (y :: ys))).eval definitions (bound + 1)
          scope = Parse.either ((choice (x :: xs)).eval definitions (bound + 1) scope)
            ((choice (y :: ys)).eval definitions (bound + 1) scope) :=
        rfl
      rw [heither, eval_choice _ _ _ y, ← Parse.foldl_either hframed, eval_choice, List.cons_append,
        eval_choice, List.map_append, List.foldl_append, List.map_cons, List.foldl_cons]

/-! ### Ways of putting alternatives together -/

/-- A way of putting parsers together as alternatives, two at a time. -/
inductive Alternatives where
  /-- One parser. -/
  | only (p : Grammar)
  /-- The first alternatives or, when they fail, the others. -/
  | either (first others : Alternatives)

/-- The parser in which the alternatives are put together like this. -/
def Alternatives.toGrammar : Alternatives → Grammar
  | only p => p
  | either first others => .either first.toGrammar others.toGrammar

/-- The parsers that are put together, in order. -/
def Alternatives.members : Alternatives → List Grammar
  | only p => [p]
  | either first others => first.members ++ others.members

theorem Alternatives.exists_members (alternatives : Alternatives) :
    ∃ p rest, alternatives.members = p :: rest := by
  induction alternatives with
  | only p => exact ⟨p, [], rfl⟩
  | either first others ihfirst _ =>
    obtain ⟨p, rest, hfirst⟩ := ihfirst
    exact ⟨p, rest ++ others.members, by rw [members, hfirst, List.cons_append]⟩

/-- However alternatives are put together, they do what the choice among them does. -/
theorem eval_toGrammar (definitions : Definitions) (scope : Scope) (alternatives : Alternatives)
    (bound : Nat) :
    alternatives.toGrammar.eval definitions bound scope =
      (choice alternatives.members).eval definitions bound scope := by
  cases bound with
  | zero => rfl
  | succ bound =>
    induction alternatives with
    | only p => rfl
    | either first others ihfirst ihothers =>
      obtain ⟨y, ys, hothers⟩ := others.exists_members
      have heither : (Alternatives.either first others).toGrammar.eval definitions (bound + 1)
          scope = Parse.either (first.toGrammar.eval definitions (bound + 1) scope)
            (others.toGrammar.eval definitions (bound + 1) scope) :=
        rfl
      rw [heither, ihfirst, ihothers, Alternatives.members, hothers, eval_choice_append]
      rfl

/-! ### How a choice ends -/

/-- A choice ends as one of its parsers does when that is run alone: the first one that does not
fail, or the last one. -/
theorem endsWith_choice (p : Grammar) (rest : List Grammar) :
    (choice (p :: rest)).EndsWith definitions scope place log ending ↔
      ∃ before q after, p :: rest = before ++ q :: after ∧
        (∀ other ∈ before, ∃ log', other.Fails definitions scope place log log') ∧
        q.EndsWith definitions scope place log ending ∧
        (after = [] ∨ ∀ log', ending ≠ (.ok .failure, log')) := by
  induction rest generalizing p with
  | nil =>
    constructor
    · exact fun h ↦ ⟨[], p, [], rfl, List.forall_mem_nil _, h, .inl rfl⟩
    · rintro ⟨before, q, after, hlist, -, hends, -⟩
      cases before with
      | nil =>
        obtain ⟨rfl, -⟩ := List.cons.inj hlist
        exact hends
      | cons => simp at hlist
  | cons r rest ih =>
    have hsame : SameEnds definitions scope (choice (p :: r :: rest)) definitions scope
        (either p (choice (r :: rest))) :=
      .of_eval_eq (eval_choice_append definitions scope [p] r rest)
    rw [hsame place log, endsWith_either, ih]
    constructor
    · rintro (⟨hnot, hends⟩ | ⟨log', hfails, before, q, after, hlist, hbefore, hends, hlast⟩)
      · exact ⟨[], p, r :: rest, rfl, List.forall_mem_nil _, hends, .inr hnot⟩
      · refine ⟨p :: before, q, after, by rw [hlist, List.cons_append], ?_, hends, hlast⟩
        exact List.forall_mem_cons.mpr ⟨⟨log', hfails⟩, hbefore⟩
    · rintro ⟨before, q, after, hlist, hbefore, hends, hlast⟩
      cases before with
      | nil =>
        obtain ⟨rfl, rfl⟩ := List.cons.inj hlist
        exact .inl ⟨hlast.resolve_left (List.cons_ne_nil r rest), hends⟩
      | cons other before =>
        obtain ⟨rfl, hmore⟩ := List.cons.inj hlist
        obtain ⟨⟨log', hfails⟩, hbefore⟩ := List.forall_mem_cons.mp hbefore
        exact .inr ⟨log', hfails, before, q, after, hmore, hbefore, hends, hlast⟩

theorem endsWith_empty :
    empty.EndsWith definitions scope place log ending ↔ ending = (.ok .failure, log) :=
  endsWith_eval_succ.trans (Run.endsWith_pure _)

/-- Ordered choice is associative and keeps its branches apart. However parsers are put together as
alternatives, two at a time, the result does at every place and with every journal what the choice
among them does, and comes to the end to which the first one comes that does not fail, or the last
one where all fail. A choice among some parsers and more is an alternative between the choices among
each, and what fails silently is a unit of it. -/
theorem ordered_choice (definitions : Definitions) (scope : Scope) :
    (∀ (alternatives : Alternatives) (bound : Nat),
      alternatives.toGrammar.eval definitions bound scope =
        (choice alternatives.members).eval definitions bound scope) ∧
    (∀ (alternatives : Alternatives) place log ending,
      alternatives.toGrammar.EndsWith definitions scope place log ending ↔
        ∃ before p after, alternatives.members = before ++ p :: after ∧
          (∀ other ∈ before, ∃ log', other.Fails definitions scope place log log') ∧
          p.EndsWith definitions scope place log ending ∧
          (after = [] ∨ ∀ log', ending ≠ (.ok .failure, log'))) ∧
    (∀ (xs : List Grammar) (y : Grammar) (ys : List Grammar) (bound : Nat),
      (choice (xs ++ y :: ys)).eval definitions bound scope =
        (either (choice xs) (choice (y :: ys))).eval definitions bound scope) ∧
    (∀ (p : Grammar) (bound : Nat),
      (either empty p).eval definitions bound scope = p.eval definitions bound scope) ∧
    ∀ (p : Grammar) place log ending,
      (either p empty).EndsWith definitions scope place log ending ↔
        ((∀ log', ending ≠ (.ok .failure, log')) ∧
          p.EndsWith definitions scope place log ending) ∨
        (∃ log', p.Fails definitions scope place log log') ∧ ending = (.ok .failure, log) := by
  refine ⟨eval_toGrammar definitions scope, fun alternatives place log ending ↦ ?_,
    eval_choice_append definitions scope, eval_empty_either definitions scope,
    fun p place log ending ↦ ?_⟩
  · have hsame : SameEnds definitions scope alternatives.toGrammar definitions scope
        (choice alternatives.members) :=
      .of_eval_eq (eval_toGrammar definitions scope alternatives)
    obtain ⟨p, rest, hmembers⟩ := alternatives.exists_members
    rw [hsame place log, hmembers, endsWith_choice]
  · rw [endsWith_either]
    simp only [endsWith_empty, exists_and_right]

end Grammar

end DiagnosticParsing
