import DiagnosticParsing.Proofs.ProperReplies
import DiagnosticParsing.Proofs.Rounds.Simulation
import DiagnosticParsing.Proofs.Sequencing

/-!
# Chains as folds

Both chains of operators read an operand and then links, an operator and an operand each. They
differ in when the operators are applied and in what order: from the left while the chain is read
(`Parse.Link.foldLeft`), or from the right when all of it has been read (`Parse.Link.foldRight`).

`Parse.chainBy` reads a chain with a repetition that does nothing but gather links, and folds them
afterwards. A chain that is folded from the right is an instance (`Parse.chainRight_eq_chainBy`),
whatever its operators do. So is a repetition of pairs behind an operand whose value is folded
(`Parse.map_both_many_both`). A chain that is folded from the left while it is read is an instance
as long as no operator faults (`Parse.foldLeft_eq_of_keeps`), since a fault ends the reading.
-/

set_option autoImplicit false

namespace DiagnosticParsing

namespace Parse

open Run (ofExcept ofCall)

/-! ### Folds of links -/

namespace Link

/-- What becomes of a left operand when the link is applied to it. -/
def applied (link : Link) (first : Value) : Except Fault Value :=
  (link.operator.apply₂ first link.operand).outcome

/-- Applies the links one after another, the first one first. -/
def foldLeft (first : Value) (links : List Link) : Except Fault Value :=
  links.foldlM (fun combined link ↦ link.applied combined) first

/-- Applies the operators one after another, the last one first. -/
def foldRight : (first : Value) → List Link → Except Fault Value
  | first, [] => .ok first
  | first, link :: links => do
    let combined ← foldRight link.operand links
    (link.operator.apply₂ first combined).outcome

/-- A link as the pair of its operator and its operand. -/
def pair (link : Link) : Value :=
  .tuple [link.operator, link.operand]

/-- The link that a pair is. -/
def ofPair? : Value → Option Link
  | .tuple [operator, operand] => some ⟨operator, operand⟩
  | _ => none

/-- A fold as a function of an operand and a list of pairs. -/
def folded (fold : Value → List Link → Except Fault Value) : Value → Call Value
  | .tuple [first, .list pairs] => .ofExcept (fold first (pairs.filterMap ofPair?))
  | v => .fault (.unsuitable ("'" ++ v.typeName ++ "' object is no chain"))

@[simp]
theorem folded_tuple (fold : Value → List Link → Except Fault Value) (first : Value)
    (links : List Link) :
    folded fold (.tuple [first, .list (links.map pair)]) = .ofExcept (fold first links) := by
  have hlinks : (links.map pair).filterMap ofPair? = links := by
    rw [List.filterMap_map]
    exact List.filterMap_some
  simp only [folded, hlinks]

/-- The first link is applied to what the others come to. -/
theorem ofExcept_foldRight_cons (first : Value) (link : Link) (links : List Link) :
    ofExcept (foldRight first (link :: links)) =
      ofExcept (foldRight link.operand links) >>= fun combined ↦
        ofCall (link.operator.apply₂ first combined) := by
  rw [foldRight, Run.ofExcept_bind]
  refine bind_congr fun combined ↦ ?_
  exact (Run.ofCall_of_notes_nil (Value.notes_apply₂ _ _ _)).symm

theorem foldLeft_cons (first : Value) (link : Link) (links : List Link) :
    foldLeft first (link :: links) = link.applied first >>= fun combined ↦
      foldLeft combined links :=
  rfl

theorem foldLeft_append_singleton (first : Value) (links : List Link) (link : Link) :
    foldLeft first (links ++ [link]) = foldLeft first links >>= link.applied := by
  simp [foldLeft]

end Link

/-! ### Reading links -/

/-- One link, gathered in front of the others. -/
def readLink (p op : Parse) : Round (List Link) := fun place links ↦ do
  match ← link p op place with
  | none => return none
  | some (rest, next) => return some (rest, next :: links)

/-- A chain that is folded when all of it has been read. -/
def chainBy (fold : Value → List Link → Except Fault Value) (bound : Nat) (p op : Parse) : Parse :=
  andThen p fun middle first ↦ do
    let (rest, links) ← rounds bound (readLink p op) middle []
    return .success rest (← ofExcept (fold first links.reverse))

variable {op : Parse}

/-- An attempt at an operator and an operand reads a link, when the replies of operators are
proper. -/
theorem attempt_both (p : Parse) (hop : Proper op) (place : Place) (links : List Link) :
    attempt (both op p) place (links.map Link.pair) =
      (readLink p op place links >>= fun found ↦
        pure (found.map (Prod.map id (List.map Link.pair)))) := by
  simp only [attempt, readLink, link, both, andThen_apply, bind_assoc]
  refine bind_congr fun mark ↦ (hop place).bind_congr fun operator hoperator ↦ ?_
  cases operator with
  | malformed v => exact hoperator.elim
  | failure => simp [follow]
  | success middle f =>
    simp only [follow_success, Reply.first, Reply.second, Run.ofExcept_ok_bind, bind_assoc]
    refine bind_congr fun operand ↦ ?_
    cases operand with
    | failure => simp [follow]
    | success rest value => simp [Link.pair]
    | malformed v => simp [follow, Link.pair]

theorem map_both_many_both (fold : Value → List Link → Except Fault Value) (bound : Nat)
    (p : Parse) (hop : Proper op) :
    map (both p (many bound (both op p))) (Link.folded fold) = chainBy fold bound p op := by
  rw [map_both, chainBy]
  congr 1
  funext middle first
  have hrounds := rounds_map (List.map Link.pair) (attempt_both p hop) bound middle []
  rw [List.map_nil] at hrounds
  simp [many_eq, manyBy, collect, andThen_apply, hrounds, ← List.map_reverse]

/-! ### From the right -/

/-- One more link behind a last operand and the operands before it, which are gathered with the
operators behind them, the latest first. -/
def arrangeNext (gathered : Value × List Link) (next : Link) : Value × List Link :=
  (next.operand, ⟨next.operator, gathered.1⟩ :: gathered.2)

/-- The last operand of a chain and the operands before it, when the links are given the latest
first. -/
def arrange (first : Value) (links : List Link) : Value × List Link :=
  links.reverse.foldl arrangeNext (first, [])

theorem arrange_cons (first : Value) (next : Link) (links : List Link) :
    arrange first (next :: links) = arrangeNext (arrange first links) next := by
  simp [arrange]

/-- What a chain does in the end that is folded from the right. -/
def closeRight (last : Value) (links : List Link) : Run Value :=
  links.foldlM (fun combined pending ↦
    ofCall (pending.operator.apply₂ pending.operand combined)) last

/-- Going back through the operands gathered is folding from the right. -/
theorem closeRight_foldl (links : List Link) : ∀ (first : Value) (pending : List Link),
    closeRight (links.foldl arrangeNext (first, pending)).1
        (links.foldl arrangeNext (first, pending)).2 =
      ofExcept (Link.foldRight first links) >>= fun combined ↦ closeRight combined pending := by
  induction links with
  | nil => exact fun _ _ ↦ rfl
  | cons link links ih =>
    intro first pending
    rw [List.foldl_cons, arrangeNext, ih, Link.ofExcept_foldRight_cons, bind_assoc]
    simp only [closeRight, List.foldlM_cons]

theorem closeRight_arrange (first : Value) (links : List Link) :
    closeRight (arrange first links).1 (arrange first links).2 =
      ofExcept (Link.foldRight first links.reverse) := by
  rw [arrange, closeRight_foldl]
  simp [closeRight]

theorem gather_arrange (p op : Parse) (first : Value) (place : Place) (links : List Link) :
    gather p op place (arrange first links) =
      (readLink p op place links >>= fun found ↦
        pure (found.map (Prod.map id (arrange first)))) := by
  simp only [gather, readLink, bind_assoc]
  refine bind_congr fun found ↦ ?_
  cases found with
  | none => simp
  | some found => simp [arrange_cons, arrangeNext]

theorem chainRight_eq_chainBy (bound : Nat) (p op : Parse) :
    chainRight bound p op = chainBy Link.foldRight bound p op := by
  rw [chainRight_eq, chainRightBy, chainBy]
  congr 1
  funext middle first
  have hrounds := rounds_map (arrange first) (gather_arrange p op first) bound middle []
  have hfirst : arrange first [] = (first, []) := rfl
  rw [hfirst] at hrounds
  simp only [foldRight, hrounds, bind_assoc, pure_bind]
  refine bind_congr fun last ↦ ?_
  rw [← closeRight_arrange]
  rfl

/-! ### From the left -/

/-- What the links have been combined to so far, when they are given the latest first; null stands
in for it when an operator has faulted. -/
def combined (first : Value) (links : List Link) : Value :=
  match Link.foldLeft first links.reverse with
  | .ok v => v
  | .error _ => .null

/-- Where no operator can fault, combining a link is reading it. -/
theorem combine_combined {p op : Parse} {first : Value} {place : Place} {links : List Link}
    {journal : Journal} (hnow : ∃ v, Link.foldLeft first links.reverse = .ok v)
    (hnext : (readLink p op place links).Ensures journal fun found _ ↦
      ∀ rest more, found = some (rest, more) → ∃ v, Link.foldLeft first more.reverse = .ok v) :
    combine p op place (combined first links) journal =
      (readLink p op place links >>= fun found ↦
        pure (found.map (Prod.map id (combined first)))) journal := by
  simp only [readLink, combine, bind_assoc]
  rw [readLink, Run.ensures_bind] at hnext
  refine Run.bind_congr_of_ensures hnext fun found final hfound ↦ ?_
  cases found with
  | none => rfl
  | some found =>
    obtain ⟨v, hv⟩ := hnow
    have hlast := hfound _ final rfl _ _ rfl
    obtain ⟨v', hv'⟩ := hlast
    rw [List.reverse_cons] at hv'
    have happlied : Link.applied found.2 v = .ok v' := by
      rwa [Link.foldLeft_append_singleton, hv] at hv'
    have hnotes : ofCall (found.2.operator.apply₂ v found.2.operand) =
        ofExcept (found.2.applied v) :=
      Run.ofCall_of_notes_nil (Value.notes_apply₂ _ _ _)
    simp [combined, hv, hv', hnotes, happlied]

/-- As long as no operator can fault, a chain that is folded from the left while it is read is one
that is folded when all of it has been read. -/
theorem foldLeft_eq_of_keeps {p op : Parse} {first : Value} {place : Place} {journal : Journal}
    {Condition : Place → List Link → Journal → Prop}
    (hkeeps : Round.Keeps Condition (readLink p op))
    (hreturns : ∀ place links journal, Condition place links journal →
      ∃ v, Link.foldLeft first links.reverse = .ok v)
    (hstart : Condition place [] journal) (bound : Nat) :
    foldLeft (rounds bound) p op place first journal =
      (do
        let (rest, links) ← rounds bound (readLink p op) place []
        return Reply.success rest (← ofExcept (Link.foldLeft first links.reverse))) journal := by
  have hround (place : Place) (links : List Link) (journal : Journal)
      (hlinks : Condition place links journal) :=
    combine_combined (hreturns place links journal hlinks)
      ((hkeeps place links journal hlinks).mono fun found final hfound rest more heq ↦
        hreturns rest more final (hfound rest more heq))
  have hrounds := rounds_map_of_keeps (combined first) hkeeps hround bound place [] journal hstart
  have hfirst : combined first [] = first := rfl
  rw [hfirst] at hrounds
  have hsame : foldLeft (rounds bound) p op place first journal =
      (rounds bound (readLink p op) place [] >>= fun last ↦
        pure (Reply.success last.1 (combined first last.2))) journal := by
    rw [foldLeft, Run.bind_apply, hrounds, Run.bind_apply, Run.bind_apply]
    cases rounds bound (readLink p op) place [] journal <;> rfl
  rw [hsame]
  refine Run.bind_congr_of_ensures (ensures_rounds hkeeps bound place [] journal hstart)
    fun last final hlast ↦ ?_
  obtain ⟨before, hlast⟩ := hlast
  obtain ⟨v, hv⟩ := hreturns _ _ before hlast
  simp [combined, hv]

end Parse

end DiagnosticParsing
