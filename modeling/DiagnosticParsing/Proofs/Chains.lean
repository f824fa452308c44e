import DiagnosticParsing.Grammar.Characters
import DiagnosticParsing.Proofs.Chains.Recursion
import DiagnosticParsing.Proofs.Repetition

/-!
# Chains of operators

The two chains of operators read the same phrase. `Grammar.Links` tells what links can be read one
after another, each an operator and an operand, and what is logged by them. A *phrase* is an operand
with all the links behind it (`Grammar.Phrase`): where it ends there is no operator, or one without
an operand. There is one phrase at most, and of the attempt behind its end nothing is left, neither
in the input nor in the log. Both chains fail where there is no first operand, with what that
attempt has logged. Otherwise both end right behind the last operand of the phrase, with the log as
it is there, and both raise the same faults; they differ in the side from which the operators are
applied.

Both chains are folds of what a repetition of pairs gives behind an operand
(`Grammar.eval_chainRight`, `Grammar.eval_chainLeft`), and that is a phrase
(`Grammar.gives_reading`). For the chain that is folded from the left this needs that operators do
not fault (`Grammar.OperatorsReturn`), since it applies them while it reads. The chain that is
folded from the right comes to the same ends as its recursive definition. The main result is
`Grammar.chains_read_alike`.
-/

set_option autoImplicit false

namespace DiagnosticParsing.Grammar

open Parse (Link)

/-! ### Phrases -/

/-- At the place an operator is followed by an operand, these by a second operator and operand, and
so on. Behind the last operand the input and the log are those given. -/
inductive Links (definitions : Definitions) (scope : Scope) (p op : Grammar) :
    Place → Log → List Link → Place → Log → Prop where
  /-- No operator at all. -/
  | none (place : Place) (log : Log) : Links definitions scope p op place log [] place log
  /-- An operator, an operand, and the links behind them. -/
  | next {place middle rest last : Place} {log log₁ log₂ log' : Log} {operator operand : Value}
      {links : List Link}
      (hoperator : op.Gives definitions scope place log operator middle log₁)
      (hoperand : p.Gives definitions scope middle log₁ operand rest log₂)
      (hlinks : Links definitions scope p op rest log₂ links last log') :
      Links definitions scope p op place log (⟨operator, operand⟩ :: links) last log'

/-- An operand with the links behind it, up to where there is no operator, or none with an
operand. -/
structure Phrase (definitions : Definitions) (scope : Scope) (p op : Grammar) (place : Place)
    (log : Log) (first : Value) (links : List Link) (last : Place) (log' : Log) : Prop where
  /-- The operand and the links. -/
  read : ∃ rest middle, p.Gives definitions scope place log first rest middle ∧
    Links definitions scope p op rest middle links last log'
  /-- The end of the links. -/
  ended : (∃ log'', op.Fails definitions scope last log' log'') ∨
    ∃ operator middle log₁ log'', op.Gives definitions scope last log' operator middle log₁ ∧
      p.Fails definitions scope middle log₁ log''

/-- Whatever operands and operators are read one after another, applying the operators from the left
or from the right has a result. -/
def OperatorsReturn (definitions : Definitions) (scope : Scope) (p op : Grammar) : Prop :=
  ∀ ⦃place rest last : Place⦄ ⦃log middle log' : Log⦄ ⦃first : Value⦄ ⦃links : List Link⦄,
    p.Gives definitions scope place log first rest middle →
      Links definitions scope p op rest middle links last log' →
        (∃ x, Link.foldLeft first links = .ok x) ∧ ∃ y, Link.foldRight first links = .ok y

variable {definitions : Definitions} {scope : Scope} {p op q : Grammar}
  {place rest middle last last' : Place} {log log₁ log₂ log' log'' : Log}
  {operator operand first first' value : Value} {links links' : List Link}

/-- One more link behind the others. -/
theorem Links.snoc (h : Links definitions scope p op place log links middle log₁)
    {next : Place} (hoperator : op.Gives definitions scope middle log₁ operator next log₂)
    (hoperand : p.Gives definitions scope next log₂ operand rest log') :
    Links definitions scope p op place log (links ++ [⟨operator, operand⟩]) rest log' := by
  induction h with
  | none => exact .next hoperator hoperand (.none rest log')
  | next hoperator' hoperand' _ ih => exact .next hoperator' hoperand' (ih hoperator)

/-- Links are successes of operator and operand in sequence. -/
theorem successes_both {values : List Value} :
    Successes definitions scope (both op p) place log values last log' ↔
      ∃ links, values = links.map Link.pair ∧
        Links definitions scope p op place log links last log' := by
  constructor
  · intro h
    induction h with
    | none place log => exact ⟨[], rfl, .none place log⟩
    | next hvalue _ ih =>
      obtain ⟨operator, middle, log₁, operand, hoperator, hoperand, rfl⟩ := gives_both.mp hvalue
      obtain ⟨links, rfl, hlinks⟩ := ih
      exact ⟨⟨operator, operand⟩ :: links, rfl, .next hoperator hoperand hlinks⟩
  · rintro ⟨links, rfl, h⟩
    induction h with
    | none place log => exact .none place log
    | next hoperator hoperand _ ih =>
      exact .next (gives_both.mpr ⟨_, _, _, _, hoperator, hoperand, rfl⟩) ih

/-- An operand and a repetition of pairs behind it give a phrase. -/
theorem gives_reading :
    (both p (many (both op p))).Gives definitions scope place log value last log' ↔
      ∃ first links, value = .tuple [first, .list (links.map Link.pair)] ∧
        Phrase definitions scope p op place log first links last log' := by
  simp only [gives_both, gives_many, successes_both, fails_both]
  constructor
  · rintro ⟨first, rest, middle, _, hfirst, ⟨_, rfl, ⟨links, rfl, hlinks⟩, log'', hended⟩, rfl⟩
    refine ⟨first, links, rfl, ⟨rest, middle, hfirst, hlinks⟩, ?_⟩
    rcases hended with hended | ⟨operator, middle, log₁, hoperator, hended⟩
    · exact .inl ⟨log'', hended⟩
    · exact .inr ⟨operator, middle, log₁, log'', hoperator, hended⟩
  · rintro ⟨first, links, rfl, ⟨rest, middle, hfirst, hlinks⟩, hended⟩
    refine ⟨first, rest, middle, _, hfirst, ⟨_, rfl, ⟨links, rfl, hlinks⟩, ?_⟩, rfl⟩
    rcases hended with ⟨log'', hended⟩ | ⟨operator, middle, log₁, log'', hoperator, hended⟩
    · exact ⟨log'', .inl hended⟩
    · exact ⟨log'', .inr ⟨operator, middle, log₁, hoperator, hended⟩⟩

/-- There is one phrase at most. -/
theorem Phrase.unique (h : Phrase definitions scope p op place log first links last log')
    (h' : Phrase definitions scope p op place log first' links' last' log'') :
    first = first' ∧ links = links' ∧ last = last' ∧ log' = log'' := by
  have hreading := gives_reading.mpr ⟨first, links, rfl, h⟩
  have hreading' := gives_reading.mpr ⟨first', links', rfl, h'⟩
  obtain ⟨hvalue, hlast, hlog⟩ := hreading.unique hreading'
  have hpair (link link' : Link) (heq : link.pair = link'.pair) : link = link' := by
    rcases link with ⟨operator, operand⟩
    rcases link' with ⟨operator', operand'⟩
    simpa [Link.pair] using heq
  have hparts : first = first' ∧ links.map Link.pair = links'.map Link.pair := by
    simpa using hvalue
  exact ⟨hparts.1, (List.map_inj_right hpair).mp hparts.2, hlast, hlog⟩

/-! ### Operators that return -/

/-- Operators return when operands are ordinary and every operator leads from ordinary values to
ordinary ones. -/
theorem operatorsReturn_of_closed (Ordinary : Value → Prop)
    (hoperand : ∀ {place log value rest log'},
      p.Gives definitions scope place log value rest log' → Ordinary value)
    (hoperator : ∀ {place log operator rest log'},
      op.Gives definitions scope place log operator rest log' →
        ∀ x y, Ordinary x → Ordinary y → ∃ z, (operator.apply₂ x y).outcome = .ok z ∧ Ordinary z) :
    OperatorsReturn definitions scope p op := by
  have hlinks {place : Place} {log : Log} {links : List Link} {last : Place} {log' : Log}
      (h : Links definitions scope p op place log links last log') :
      ∀ first, Ordinary first →
        (∃ x, Link.foldLeft first links = .ok x) ∧
          ∃ y, Link.foldRight first links = .ok y ∧ Ordinary y := by
    induction h with
    | none => exact fun first hfirst ↦ ⟨⟨first, rfl⟩, first, rfl, hfirst⟩
    | @next place middle rest last log log₁ log₂ log' operator operand links hf hx _ ih =>
      intro first hfirst
      obtain ⟨z, hz, hordinary⟩ := hoperator hf first operand hfirst (hoperand hx)
      obtain ⟨x, hleft⟩ := (ih z hordinary).1
      obtain ⟨y, hright, hy⟩ := (ih operand (hoperand hx)).2
      obtain ⟨y', hy', hordinary'⟩ := hoperator hf first y hfirst hy
      refine ⟨⟨x, ?_⟩, y', ?_, hordinary'⟩
      · rw [Link.foldLeft_cons, Link.applied, hz]
        exact hleft
      · rw [Link.foldRight, hright]
        exact hy'
  intro place rest last log middle log' first links hfirst h
  obtain ⟨hleft, y, hright, -⟩ := hlinks h first (hoperand hfirst)
  exact ⟨hleft, y, hright⟩

/-! ### Chains as folds of what is read -/

/-- A chain that is folded from the right. -/
theorem eval_chainRight (p : Grammar) (hop : op.Proper definitions scope) (bound : Nat) :
    (chainRight p op).eval definitions bound scope =
      (map (both p (many (both op p))) (Link.folded Link.foldRight)).eval definitions bound
        scope := by
  cases bound with
  | zero => rfl
  | succ bound =>
    exact (Parse.chainRight_eq_chainBy (bound + 1) _ _).trans
      (Parse.map_both_many_both Link.foldRight (bound + 1) _ (hop (bound + 1))).symm

/-- What is read as a link was given by the two parsers. -/
theorem ensures_link (hop : op.Proper definitions scope) (bound : Nat) (place : Place)
    (journal : Journal) :
    (Parse.link (p.eval definitions bound scope) (op.eval definitions bound scope) place).Ensures
      journal fun found final ↦ ∀ rest next, found = some (rest, next) →
        ∃ middle log₁, op.Gives definitions scope place journal.log next.operator middle log₁ ∧
          p.Gives definitions scope middle log₁ next.operand rest final.log := by
  have hnone (mark : Nat) (journal : Journal) {post : Place → Link → Journal → Prop} :
      (Run.rollback mark >>= fun _ ↦ pure none).Ensures journal fun found final ↦
        ∀ rest next, found = some (rest, next) → post rest next final := by
    simp
  rw [Parse.link, Run.ensures_mark_bind, Run.ensures_bind]
  intro reply middle hdone
  have hoperator := ensures_eval bound journal reply middle hdone
  cases reply with
  | failure => exact hnone _ _
  | malformed v => exact (hop bound place journal _ middle hdone).elim
  | success rest f =>
    simp only [Reply.first, Reply.second, Run.ofExcept_ok_bind, Run.ensures_bind]
    intro reply final hdone
    have hoperand := ensures_eval bound middle reply final hdone
    have hsome {parts : Place × Value} (hparts : reply.parts = .ok parts) :
        ∀ rest next, some (parts.1, Link.mk f parts.2) = some (rest, next) → ∃ middle log₁,
          op.Gives definitions scope place journal.log next.operator middle log₁ ∧
            p.Gives definitions scope middle log₁ next.operand rest final.log := by
      rintro _ _ ⟨⟩
      exact ⟨rest, middle.log, ⟨_, hoperator, rfl⟩, ⟨_, hoperand, hparts⟩⟩
    cases reply with
    | failure => exact hnone _ _
    | _ =>
      simp only [Run.ensures_bind, Run.ensures_ofExcept, Run.ensures_pure]
      exact fun _ hparts ↦ hsome hparts

/-- Every link that is read is one more. -/
theorem keeps_links (hop : op.Proper definitions scope) (bound : Nat) (place : Place) (log : Log) :
    Parse.Round.Keeps
      (fun rest links journal ↦
        Links definitions scope p op place log links.reverse rest journal.log)
      (Parse.readLink (p.eval definitions bound scope) (op.eval definitions bound scope)) := by
  intro rest links journal hlinks
  rw [Parse.readLink, Run.ensures_bind]
  refine (ensures_link hop bound rest journal).mono fun found final hfound ↦ ?_
  cases found with
  | none => simp
  | some found =>
    obtain ⟨middle, log₁, hoperator, hoperand⟩ := hfound found.1 found.2 rfl
    simp only [Run.ensures_pure]
    rintro _ _ ⟨⟩
    rw [List.reverse_cons]
    exact hlinks.snoc hoperator hoperand

/-- A chain that is folded from the left, if no operator faults. -/
theorem eval_chainLeft (hop : op.Proper definitions scope)
    (hreturn : OperatorsReturn definitions scope p op) (bound : Nat) :
    (chainLeft p op).eval definitions bound scope =
      (map (both p (many (both op p))) (Link.folded Link.foldLeft)).eval definitions bound
        scope := by
  cases bound with
  | zero => rfl
  | succ bound =>
    refine Eq.trans ?_ (Parse.map_both_many_both Link.foldLeft (bound + 1) _ (hop (bound + 1))).symm
    refine (Parse.chainLeft_eq (bound + 1) _ _).trans ?_
    funext place
    ext journal
    refine Run.bind_congr_of_ensures (ensures_eval (bound + 1) journal) fun reply final hends ↦ ?_
    have hfirst {rest : Place} {first : Value} (hparts : reply.parts = .ok (rest, first)) :=
      Parse.foldLeft_eq_of_keeps (keeps_links hop (bound + 1) rest final.log)
        (fun _ links _ hlinks ↦ (hreturn ⟨reply, hends, hparts⟩ hlinks).1) (.none rest final.log)
        (bound + 1)
    cases reply with
    | failure => rfl
    | success rest first => exact hfirst rfl
    | malformed v =>
      change (Run.ofExcept (Reply.malformed v).parts >>= _) final =
        (Run.ofExcept (Reply.malformed v).parts >>= _) final
      cases hparts : (Reply.malformed v).parts with
      | error fault => rfl
      | ok parts => exact hfirst hparts

/-! ### How chains end -/

section Folded

variable {fold : Value → List Link → Except Fault Value}
  (hq : SameEnds definitions scope q definitions scope
    (map (both p (many (both op p))) (Link.folded fold)))

include hq

/-- What folds a phrase fails where there is no first operand. -/
theorem fails_of_folded :
    q.Fails definitions scope place log log' ↔ p.Fails definitions scope place log log' :=
  (hq place log _).trans (fails_map.trans fails_both_many)

/-- What folds a phrase succeeds with the value of the fold. -/
theorem endsWith_of_folded {reply : Reply} (hreply : reply ≠ .failure) :
    q.EndsWith definitions scope place log (.ok reply, log') ↔
      ∃ first links last value, Phrase definitions scope p op place log first links last log' ∧
        fold first links = .ok value ∧ reply = .success last value := by
  rw [hq place log, endsWith_ok (proper_map definitions scope _ _)]
  simp only [gives_map, gives_reading]
  constructor
  · rintro (⟨rfl, -⟩ | ⟨last, value, rfl, _, ⟨first, links, rfl, hphrase⟩, hfold⟩)
    · exact absurd rfl hreply
    · rw [Link.folded_tuple] at hfold
      exact ⟨first, links, last, value, hphrase, hfold, rfl⟩
  · rintro ⟨first, links, last, value, hphrase, hfold, rfl⟩
    refine .inr ⟨last, value, rfl, _, ⟨first, links, rfl, hphrase⟩, ?_⟩
    rw [Link.folded_tuple]
    exact hfold

/-- What folds a phrase raises the faults of reading it, when the fold raises none. -/
theorem endsWith_error_of_folded {fault : Fault}
    (hfold : ∀ {first links last log'},
      Phrase definitions scope p op place log first links last log' →
        ∃ value, fold first links = .ok value) :
    q.EndsWith definitions scope place log (.error fault, log') ↔
      (both p (many (both op p))).EndsWith definitions scope place log (.error fault, log') := by
  have hproper : (both p (many (both op p))).Proper definitions scope :=
    proper_of_succ fun _ ↦ Parse.proper_both _ _
  refine (hq place log _).trans (endsWith_map_error hproper fun value rest middle hgives ↦ ?_)
  obtain ⟨first, links, rfl, hphrase⟩ := gives_reading.mp hgives
  rw [Link.folded_tuple]
  exact hfold hphrase

end Folded

/-- The two chains of operators read the same phrase and differ in the fold only. The first one
comes to the same ends as a fold of a repetition behind an operand, and the second one to the same
ends as its recursive definition. Assumes: the replies of operators are proper, applying the
operators that are read to the operands that are read has a result, and the name of the cell in the
recursive definition is not free in either parser. -/
theorem chains_read_alike (definitions : Definitions) (scope : Scope) (p op : Grammar)
    (hproper : op.Proper definitions scope) (hreturn : OperatorsReturn definitions scope p op)
    (tag : Nat) (name : String) (hp : p.Scoped (fun _ ↦ False) (· ≠ name))
    (hop : op.Scoped (fun _ ↦ False) (· ≠ name)) :
    (∀ place log log',
      ((chainLeft p op).Fails definitions scope place log log' ↔
        p.Fails definitions scope place log log') ∧
      ((chainRight p op).Fails definitions scope place log log' ↔
        p.Fails definitions scope place log log')) ∧
    (∀ place log reply log', reply ≠ .failure →
      (chainLeft p op).EndsWith definitions scope place log (.ok reply, log') ∨
        (chainRight p op).EndsWith definitions scope place log (.ok reply, log') →
      ∃ first links last, Phrase definitions scope p op place log first links last log') ∧
    (∀ place log first links last log' first' links' last' log'',
      Phrase definitions scope p op place log first links last log' →
      Phrase definitions scope p op place log first' links' last' log'' →
      first = first' ∧ links = links' ∧ last = last' ∧ log' = log'') ∧
    (∀ place log first links last log',
      Phrase definitions scope p op place log first links last log' →
      ∃ x y, Link.foldLeft first links = .ok x ∧ Link.foldRight first links = .ok y ∧
        (chainLeft p op).EndsWith definitions scope place log (.ok (.success last x), log') ∧
        (chainRight p op).EndsWith definitions scope place log (.ok (.success last y), log')) ∧
    (∀ place log fault log',
      (chainLeft p op).EndsWith definitions scope place log (.error fault, log') ↔
        (chainRight p op).EndsWith definitions scope place log (.error fault, log')) ∧
    SameEnds definitions scope (chainLeft p op) definitions scope
      (map (both p (many (both op p))) (Link.folded Link.foldLeft)) ∧
    SameEnds definitions scope (chainRight p op) definitions scope
      (recursiveChain tag name p op) := by
  have hleft := SameEnds.of_eval_eq (eval_chainLeft hproper hreturn)
  have hright := SameEnds.of_eval_eq (eval_chainRight p hproper)
  have hfolds {place : Place} {log : Log} {first : Value} {links : List Link} {last : Place}
      {log' : Log} (hphrase : Phrase definitions scope p op place log first links last log') :
      (∃ x, Link.foldLeft first links = .ok x) ∧ ∃ y, Link.foldRight first links = .ok y := by
    obtain ⟨rest, middle, hfirst, hlinks⟩ := hphrase.read
    exact hreturn hfirst hlinks
  refine ⟨fun place log log' ↦ ⟨fails_of_folded hleft, fails_of_folded hright⟩, ?_,
    fun _ _ _ _ _ _ _ _ _ _ ↦ Phrase.unique, ?_, ?_, hleft, sameEnds_recursiveChain hp hop hproper⟩
  · rintro place log reply log' hreply (hends | hends)
    · obtain ⟨first, links, last, -, hphrase, -⟩ := (endsWith_of_folded hleft hreply).mp hends
      exact ⟨first, links, last, hphrase⟩
    · obtain ⟨first, links, last, -, hphrase, -⟩ := (endsWith_of_folded hright hreply).mp hends
      exact ⟨first, links, last, hphrase⟩
  · intro place log first links last log' hphrase
    obtain ⟨⟨x, hx⟩, y, hy⟩ := hfolds hphrase
    have hsuccess (value : Value) : Reply.success last value ≠ .failure := nofun
    refine ⟨x, y, hx, hy, ?_, ?_⟩
    · exact (endsWith_of_folded hleft (hsuccess x)).mpr
        ⟨first, links, last, x, hphrase, hx, rfl⟩
    · exact (endsWith_of_folded hright (hsuccess y)).mpr
        ⟨first, links, last, y, hphrase, hy, rfl⟩
  · intro place log fault log'
    rw [endsWith_error_of_folded hleft fun hphrase ↦ (hfolds hphrase).1,
      endsWith_error_of_folded hright fun hphrase ↦ (hfolds hphrase).2]

/-- A digit as a number. -/
def digitNumber : Grammar :=
  map digit Function.toInt.call

/-- A sign that stands for subtraction. -/
def minusSign : Grammar :=
  map (char (.text "-")) (Function.const (.operation .sub)).call

theorem eq_int_of_toInteger {x value : Value} (h : x.toInteger = .ok value) :
    ∃ n, value = .int n := by
  unfold Value.toInteger at h
  split at h
  · next s =>
    cases hnumeral : Text.numeral? s with
    | none =>
      rw [hnumeral] at h
      exact nomatch h
    | some n =>
      rw [hnumeral] at h
      exact ⟨n, (Except.ok.inj h).symm⟩
  · split at h
    · next n _ => exact ⟨n, (Except.ok.inj h).symm⟩
    · exact nomatch h

/-- Numbers can be subtracted. -/
theorem operatorsReturn_minusSign (definitions : Definitions) (scope : Scope) :
    OperatorsReturn definitions scope digitNumber minusSign := by
  refine operatorsReturn_of_closed (fun value ↦ ∃ n, value = .int n) ?_ ?_
  · intro place log value rest log' hgives
    obtain ⟨found, -, houtcome⟩ := gives_map.mp hgives
    exact eq_int_of_toInteger houtcome
  · rintro place log operator rest log' hgives _ _ ⟨m, rfl⟩ ⟨n, rfl⟩
    obtain ⟨_, -, houtcome⟩ := gives_map.mp hgives
    obtain rfl : Value.operation .sub = operator := Except.ok.inj houtcome
    exact ⟨.int (m - n), rfl, m - n, rfl⟩

/-- One phrase of differences, and both chains of it. The sign behind it is left. -/
theorem chains_read_alike_differences :
    let start : Place := .fresh (.ofText "9-3-2-")
    let finish : Place := .fresh ⟨.text "9-3-2-".toList.toArray, 5, ⟨0, 5⟩⟩
    (chainLeft digitNumber minusSign).EndsWith .none .top start .empty
        (.ok (.success finish (.int 4)), .empty) ∧
      (chainRight digitNumber minusSign).EndsWith .none .top start .empty
        (.ok (.success finish (.int 8)), .empty) ∧
      ∃ first links,
        Phrase .none .top digitNumber minusSign start .empty first links finish .empty ∧
          Link.foldLeft first links = .ok (.int 4) ∧ Link.foldRight first links = .ok (.int 8) := by
  intro start finish
  obtain ⟨-, hphrase, -, hfolds, -⟩ :=
    chains_read_alike .none .top digitNumber minusSign (proper_map _ _ _ _)
      (operatorsReturn_minusSign .none .top) 0 "chain" trivial trivial
  have hleft : (chainLeft digitNumber minusSign).EndsWith .none .top start .empty
      (.ok (.success finish (.int 4)), .empty) :=
    endsWith_of_eval 5 .empty rfl
  have hright : (chainRight digitNumber minusSign).EndsWith .none .top start .empty
      (.ok (.success finish (.int 8)), .empty) :=
    endsWith_of_eval 5 .empty rfl
  obtain ⟨first, links, last, hread⟩ := hphrase _ _ (.success finish (.int 4)) _ nofun (.inl hleft)
  obtain ⟨x, y, hx, hy, hendsLeft, hendsRight⟩ := hfolds _ _ _ _ _ _ hread
  obtain ⟨hsuccess, -⟩ := Prod.mk.inj (hleft.unique hendsLeft)
  obtain ⟨rfl, rfl⟩ := Reply.success.inj (Except.ok.inj hsuccess)
  obtain ⟨hsuccess, -⟩ := Prod.mk.inj (hright.unique hendsRight)
  obtain ⟨-, rfl⟩ := Reply.success.inj (Except.ok.inj hsuccess)
  exact ⟨hleft, hright, first, links, hread, hx, hy⟩

end DiagnosticParsing.Grammar
