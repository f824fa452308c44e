import DiagnosticParsing.Proofs.Chains.Folding
import DiagnosticParsing.Proofs.Endings

/-!
# The recursive definition of a chain

A chain that is folded from the right is an operand, and behind it an operator and a chain again, or
nothing. The parser that is defined so refers to itself by a cell (`Grammar.chainCell`). The loop
reads all the links before it applies the last operator; the recursive definition enters itself with
each link and applies the operators on its way back.
-/

set_option autoImplicit false

namespace DiagnosticParsing

namespace Parse

open Run (ofExcept ofCall)

/-- What stands behind an operand: an operator and a chain again, applied to that operand, or
nothing. The bound limits the number of operators. -/
def chainBehind (p op : Parse) : (bound : Nat) → Value → Parse
  | 0, _ => fun _ ↦ Run.unfinished
  | bound + 1, first =>
    either (chooseNext op (fun _ ↦ .pure ()) fun f ↦
      map (chooseNext p (fun _ ↦ .pure ()) (chainBehind p op bound)) (f.apply₂ first))
      (succeed first)

variable {op : Parse}

/-- What has been gathered before stays behind a link that is read. -/
theorem readLink_append (p op : Parse) (before : List Link) (place : Place) (links : List Link) :
    readLink p op place (links ++ before) =
      (readLink p op place links >>= fun found ↦
        pure (found.map (Prod.map id (· ++ before)))) := by
  simp only [readLink, bind_assoc]
  refine bind_congr fun found ↦ ?_
  cases found <;> simp

/-- What stands behind an operand is read as links and folded from the right. -/
theorem chainBehind_eq (p : Parse) (hop : Proper op) (bound : Nat) :
    ∀ first place, chainBehind p op bound first place = (do
      let (rest, links) ← rounds bound (readLink p op) place []
      return .success rest (← ofExcept (Link.foldRight first links.reverse))) := by
  induction bound with
  | zero => exact fun _ _ ↦ rfl
  | succ bound ih =>
    intro first place
    have hnext (next : Link) (rest : Place) :=
      rounds_map (· ++ [next]) (readLink_append p op [next]) bound rest []
    simp only [List.nil_append] at hnext
    simp only [chainBehind, either, chooseNext, andThen_apply, rounds, readLink, link, bind_assoc]
    refine bind_congr fun mark ↦ (hop place).bind_congr fun operator hoperator ↦ ?_
    cases operator with
    | malformed v => exact hoperator.elim
    | failure => simp [follow, succeed, Link.foldRight]
    | success middle f =>
      simp only [map, andThen_apply, follow_success, Reply.first, Reply.second,
        Run.ofExcept_ok_bind, Run.ofCall_pure, pure_bind, bind_assoc]
      refine bind_congr fun operand ↦ ?_
      cases operand with
      | failure => simp [follow, succeed, Link.foldRight]
      | success rest value => simp [ih, hnext, Link.ofExcept_foldRight_cons]
      | malformed v => simp [follow, ih, hnext, Link.ofExcept_foldRight_cons]

/-- A chain that is folded from the right is an operand and what stands behind it. -/
theorem chainRight_eq_chooseNext (p : Parse) (hop : Proper op) (bound : Nat) :
    chainRight bound p op = chooseNext p (fun _ ↦ .pure ()) (chainBehind p op bound) := by
  rw [chainRight_eq_chainBy, chainBy, chooseNext]
  congr 1
  funext middle first
  rw [chainBehind_eq p hop, Run.ofCall_pure, pure_bind]

end Parse

namespace Grammar

/-- An operand, and behind it an operator and whatever the variable refers to, applied to that
operand, or nothing. -/
def chainBody (name : String) (p op : Grammar) : Grammar :=
  bind p (fun _ ↦ .pure ()) fun x ↦
    either (bind op (fun _ ↦ .pure ()) fun f ↦ map (var name) (f.apply₂ x)) (succeed x)

/-- The chain as a parser that refers to itself: an operand, and behind it an operator and the chain
again, or nothing. -/
def recursiveChain (tag : Nat) (name : String) (p op : Grammar) : Grammar :=
  fix tag name (chainBody name p op)

section Cell

open Parse

variable {definitions : Definitions} {scope : Scope} {p op : Grammar}

/-- A grammar in which a name is not free does the same in the cell that binds the name as it does
around it. -/
theorem approximates_in_cell {tag : Nat} {name : String} {q : Grammar}
    (hq : q.Scoped (fun _ ↦ False) (· ≠ name)) (body : Grammar) {bound bound' : Nat}
    (hle : bound ≤ bound') :
    (q.eval definitions bound (.bound tag name body scope)).Approximates
        (q.eval definitions bound' scope) ∧
      (q.eval definitions bound scope).Approximates
        (q.eval definitions bound' (.bound tag name body scope)) := by
  have hlookup (x : String) (hx : x ≠ name) :
      (Scope.bound tag name body scope).lookup x = scope.lookup x :=
    Scope.lookup_bound_of_ne tag body scope hx
  refine ⟨fun place ↦ ?_, fun place ↦ ?_⟩
  · exact (approximates_eval bound q hq hlookup place).trans
      (approximates_eval_of_le hle scope q place)
  · exact (approximates_eval bound q hq (fun x hx ↦ (hlookup x hx).symm) place).trans
      (approximates_eval_of_le hle _ q place)

/-- The cell enters itself behind every operator. -/
theorem eval_recursiveChain (tag : Nat) (name : String) (p op : Grammar) (bound : Nat) :
    (recursiveChain tag name p op).eval definitions (bound + 2) scope =
      chooseNext (p.eval definitions (bound + 1) (.bound tag name (chainBody name p op) scope))
        (fun _ ↦ .pure ()) fun x ↦ Parse.either
          (chooseNext
            (op.eval definitions (bound + 1) (.bound tag name (chainBody name p op) scope))
            (fun _ ↦ .pure ()) fun f ↦
            Parse.map ((recursiveChain tag name p op).eval definitions (bound + 1) scope)
              (f.apply₂ x))
          (Parse.succeed x) := by
  have hvar : (var name).eval definitions (bound + 1)
      (.bound tag name (chainBody name p op) scope) =
        (recursiveChain tag name p op).eval definitions (bound + 1) scope :=
    eval_var (Scope.lookup_bound_self tag name _ scope)
  rw [← hvar]
  rfl

section Fresh

variable {tag : Nat} {name : String} (hp : p.Scoped (fun _ ↦ False) (· ≠ name))
  (hop : op.Scoped (fun _ ↦ False) (· ≠ name))

include hp hop

/-- The cell approximates the chain that takes as many operators as its bound allows. -/
theorem approximates_of_recursiveChain {limit : Nat} (bound : Nat) (hle : bound ≤ limit) :
    ((recursiveChain tag name p op).eval definitions bound scope).Approximates
      (chooseNext (p.eval definitions limit scope) (fun _ ↦ .pure ())
        (chainBehind (p.eval definitions limit scope) (op.eval definitions limit scope)
          bound)) := by
  induction bound with
  | zero => exact approximates_zero _ _
  | succ bound ih =>
    have congruence := Run.approximates_congruence
    cases bound with
    | zero => exact fun _ ↦ Run.approximates_unfinished _
    | succ bound =>
      have hle' : bound + 1 ≤ limit := Nat.le_of_succ_le hle
      rw [eval_recursiveChain]
      refine congruence.chooseNext (fun _ _ _ ↦ trivial) (approximates_in_cell hp _ hle').1
        fun x ↦ congruence.either ?_ (congruence.succeed x)
      exact congruence.chooseNext (fun _ _ _ ↦ trivial) (approximates_in_cell hop _ hle').1
        fun f ↦ congruence.map (fun _ _ _ ↦ trivial) (ih hle')

/-- A chain with a bound on its operators approximates the cell, which needs a greater one. -/
theorem approximates_recursiveChain (limit bound : Nat) :
    (chooseNext (p.eval definitions limit scope) (fun _ ↦ .pure ())
        (chainBehind (p.eval definitions limit scope) (op.eval definitions limit scope)
          bound)).Approximates
      ((recursiveChain tag name p op).eval definitions (limit + bound + 2) scope) := by
  induction bound with
  | zero =>
    rw [Nat.add_zero, eval_recursiveChain]
    exact Run.approximates_congruence.chooseNext (fun _ _ _ ↦ trivial)
      (approximates_in_cell hp _ (Nat.le_succ limit)).2 fun _ _ ↦ Run.approximates_unfinished _
  | succ bound ih =>
    have congruence := Run.approximates_congruence
    have hle : limit ≤ limit + (bound + 1) + 1 := by omega
    rw [eval_recursiveChain]
    refine congruence.chooseNext (fun _ _ _ ↦ trivial) (approximates_in_cell hp _ hle).2
      fun x ↦ congruence.either ?_ (congruence.succeed x)
    exact congruence.chooseNext (fun _ _ _ ↦ trivial) (approximates_in_cell hop _ hle).2 fun f ↦
      congruence.map (fun _ _ _ ↦ trivial) ih

/-- A chain that is folded from the right and the recursive definition come to the same ends.
Assumes: the replies of operators are proper, and the name of the cell is not free in either
parser. -/
theorem sameEnds_recursiveChain (hproper : op.Proper definitions scope) :
    SameEnds definitions scope (chainRight p op) definitions scope
      (recursiveChain tag name p op) := by
  have hchain (bound : Nat) : (chainRight p op).eval definitions (bound + 1) scope =
      chooseNext (p.eval definitions (bound + 1) scope) (fun _ ↦ .pure ())
        (chainBehind (p.eval definitions (bound + 1) scope) (op.eval definitions (bound + 1) scope)
          (bound + 1)) :=
    chainRight_eq_chooseNext _ (hproper (bound + 1)) (bound + 1)
  refine .of_approximates (fun bound ↦ ?_) fun bound ↦ ?_
  · cases bound with
    | zero => exact ⟨0, approximates_zero _ _⟩
    | succ bound =>
      refine ⟨bound + 1 + (bound + 1) + 2, ?_⟩
      rw [hchain]
      exact approximates_recursiveChain hp hop (bound + 1) (bound + 1)
  · cases bound with
    | zero => exact ⟨0, approximates_zero _ _⟩
    | succ bound =>
      refine ⟨bound + 1, ?_⟩
      rw [hchain]
      exact approximates_of_recursiveChain hp hop (bound + 1) (Nat.le_refl _)

end Fresh

end Cell

end Grammar

end DiagnosticParsing
