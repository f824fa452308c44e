import DiagnosticParsing.Grammar.Meaning
import DiagnosticParsing.Proofs.Approximation.Parsers

/-!
# References

A grammar refers to what stands elsewhere in two ways: to a definition by its name, and to a cell
around it by a variable. `Grammar.redirect` changes where the references lead to. It lets cells
refer to the shared parser of a definition where they built the definition anew
(`Grammar.share`), and it lets other grammars stand in for variables (`Grammar.replace`).

Whether one reading of a grammar approximates another one is decided by the variables
(`Grammar.Agree`): if what stands in for each of them on the first side approximates what stands in
for it on the second one, then the grammars do so (`Grammar.approximates_redirect`). The proof is by
induction on the bound, since a variable refers to a cell around it, and for each bound it is a case
of `Grammar.Structural.relates`. If the variables refer to the same cells on both sides, the
agreement holds by itself (`Grammar.approximates_eval`).

A greater bound changes no end that has been reached (`Grammar.approximates_eval_of_le`).
-/

set_option autoImplicit false

namespace DiagnosticParsing

namespace Scope

@[simp]
theorem lookup_bound_self (tag : Nat) (name : String) (body : Grammar) (outer : Scope) :
    (bound tag name body outer).lookup name = some ⟨outer, .fix tag name body⟩ := by
  simp only [lookup, if_true]

theorem lookup_bound_of_ne (tag : Nat) {name x : String} (body : Grammar) (outer : Scope)
    (h : x ≠ name) : (bound tag name body outer).lookup x = outer.lookup x := by
  simp only [lookup, if_neg h.symm]

end Scope

namespace Grammar

/-! ### Redirecting references -/

/-- What stands in for the variables inside a cell that binds one of them. -/
def under (name : String) (given : String → Grammar) : String → Grammar :=
  fun x ↦ if x = name then var x else given x

theorem under_var (name : String) : under name var = var := by
  funext x
  simp only [under, ite_self]

/-- The grammar when the selected cells refer to the shared parser of their definition and the given
grammars stand in for the variables. -/
def redirect (shares : Nat → String → Bool) : (String → Grammar) → Grammar → Grammar
  | given, map p f => map (p.redirect shares given) f
  | given, mapOption p f => mapOption (p.redirect shares given) f
  | given, mapResult p f => mapResult (p.redirect shares given) f
  | given, compose p q => compose (p.redirect shares given) (q.redirect shares given)
  | given, bind p choose next =>
    bind (p.redirect shares given) choose fun v ↦ (next v).redirect shares given
  | given, both p q => both (p.redirect shares given) (q.redirect shares given)
  | given, left p q => left (p.redirect shares given) (q.redirect shares given)
  | given, right p q => right (p.redirect shares given) (q.redirect shares given)
  | given, mid p q r =>
    mid (p.redirect shares given) (q.redirect shares given) (r.redirect shares given)
  | given, either p q => either (p.redirect shares given) (q.redirect shares given)
  | given, many p => many (p.redirect shares given)
  | given, oneOrMore p => oneOrMore (p.redirect shares given)
  | given, optional p => optional (p.redirect shares given)
  | given, count n p => count n (p.redirect shares given)
  | given, chainLeft p op => chainLeft (p.redirect shares given) (op.redirect shares given)
  | given, chainRight p op => chainRight (p.redirect shares given) (op.redirect shares given)
  | given, lookAhead p => lookAhead (p.redirect shares given)
  | given, notFollowedBy p => notFollowedBy (p.redirect shares given)
  | given, annotate severity p text => annotate severity (p.redirect shares given) text
  | given, label p name => label (p.redirect shares given) name
  | given, inspect p observe => inspect (p.redirect shares given) observe
  | given, recover p default => recover (p.redirect shares given) default
  | given, trace name p => trace name (p.redirect shares given)
  | given, afresh p => afresh (p.redirect shares given)
  | given, copied p => copied (p.redirect shares given)
  | _, lazy tag name => if shares tag name then lazyShared tag name else lazy tag name
  | given, fix tag name body => fix tag name (body.redirect shares (under name given))
  | given, var name => given name
  | _, p => p

/-- The grammar when the given grammars stand in for the variables. -/
def replace (given : String → Grammar) (p : Grammar) : Grammar :=
  p.redirect (fun _ _ ↦ false) given

/-- The grammar with another one in the place of a variable. -/
def substitute (p : Grammar) (name : String) (q : Grammar) : Grammar :=
  p.replace fun x ↦ if x = name then q else var x

/-- The grammar when the selected cells refer to the shared parser of their definition. -/
def share (shares : Nat → String → Bool) (p : Grammar) : Grammar :=
  p.redirect shares var

theorem replace_var (p : Grammar) : p.replace var = p := by
  unfold replace
  induction p with
  | fix tag name body ih => simp only [redirect, under_var, ih]
  | bind p choose next ih ihnext => simp only [redirect, ih, ihnext]
  | _ => simp_all only [redirect, Bool.false_eq_true, if_false]

/-- Where no cell is selected, all references stay. -/
theorem share_none (p : Grammar) : p.share (fun _ _ ↦ false) = p :=
  p.replace_var

end Grammar

/-- The definitions when the selected cells refer to the shared parsers. -/
def Definitions.share (shares : Nat → String → Bool) (definitions : Definitions) : Definitions :=
  ⟨fun name ↦ (definitions.get name).map (·.share shares)⟩

theorem Definitions.get_share (shares : Nat → String → Bool) (definitions : Definitions)
    (name : String) :
    (definitions.share shares).get name = (definitions.get name).map (·.share shares) :=
  rfl

theorem Definitions.share_none (definitions : Definitions) :
    definitions.share (fun _ _ ↦ false) = definitions := by
  have hget (name : String) :
      (definitions.get name).map (·.share fun _ _ ↦ false) = definitions.get name := by
    cases definitions.get name with
    | ok p => exact congrArg Except.ok (Grammar.share_none p)
    | error fault => rfl
  unfold share
  simp only [hget]

namespace Grammar

/-! ### Free variables -/

/-- Every variable that is not bound inside the grammar is a known one, and no cell inside it binds
a name that is to be avoided. -/
def Scoped (avoid : String → Prop) : (known : String → Prop) → Grammar → Prop
  | known, map p _ | known, mapOption p _ | known, mapResult p _ => p.Scoped avoid known
  | known, compose p q | known, both p q | known, left p q | known, right p q
  | known, either p q | known, chainLeft p q | known, chainRight p q =>
    p.Scoped avoid known ∧ q.Scoped avoid known
  | known, bind p _ next => p.Scoped avoid known ∧ ∀ v, (next v).Scoped avoid known
  | known, mid p q r => p.Scoped avoid known ∧ q.Scoped avoid known ∧ r.Scoped avoid known
  | known, many p | known, oneOrMore p | known, optional p | known, count _ p
  | known, lookAhead p | known, notFollowedBy p | known, annotate _ p _ | known, label p _
  | known, inspect p _ | known, recover p _ | known, trace _ p | known, afresh p
  | known, copied p => p.Scoped avoid known
  | known, fix _ name body => ¬avoid name ∧ body.Scoped avoid fun x ↦ x = name ∨ known x
  | known, var name => known name
  | _, _ => True

variable {avoid avoid' known known' : String → Prop}

theorem Scoped.mono (havoid : ∀ x, avoid' x → avoid x) {p : Grammar} :
    ∀ {known known' : String → Prop}, (∀ x, known x → known' x) → p.Scoped avoid known →
      p.Scoped avoid' known' := by
  induction p with
  | fix tag name body ih =>
    exact fun hknown hp ↦ ⟨fun h ↦ hp.1 (havoid name h), ih (fun x ↦ Or.imp_right (hknown x)) hp.2⟩
  | var name => exact fun hknown hp ↦ hknown name hp
  | bind p choose next ih ihnext =>
    exact fun hknown hp ↦ ⟨ih hknown hp.1, fun v ↦ ihnext v hknown (hp.2 v)⟩
  | mid p q r ihp ihq ihr =>
    exact fun hknown hp ↦ ⟨ihp hknown hp.1, ihq hknown hp.2.1, ihr hknown hp.2.2⟩
  | compose p q ihp ihq | both p q ihp ihq | left p q ihp ihq | right p q ihp ihq
  | either p q ihp ihq | chainLeft p q ihp ihq | chainRight p q ihp ihq =>
    exact fun hknown hp ↦ ⟨ihp hknown hp.1, ihq hknown hp.2⟩
  | map p _ ih | mapOption p _ ih | mapResult p _ ih | many p ih | oneOrMore p ih
  | optional p ih | count _ p ih | lookAhead p ih | notFollowedBy p ih | annotate _ p _ ih
  | label p _ ih | inspect p _ ih | recover p _ ih | trace _ p ih | afresh p ih | copied p ih =>
    exact fun hknown hp ↦ ih hknown hp
  | _ => exact fun _ _ ↦ trivial

/-- Whatever may be free, every grammar is scoped. -/
theorem scoped_any (p : Grammar) : p.Scoped (fun _ ↦ False) fun _ ↦ True := by
  have hany {known : String → Prop} (hknown : ∀ x, known x) (q : Grammar) :
      q.Scoped (fun _ ↦ False) known := by
    induction q generalizing known with
    | fix tag name body ih => exact ⟨not_false, ih fun x ↦ .inr (hknown x)⟩
    | var name => exact hknown name
    | bind p choose next ih ihnext => exact ⟨ih hknown, fun v ↦ ihnext v hknown⟩
    | mid p q r ihp ihq ihr => exact ⟨ihp hknown, ihq hknown, ihr hknown⟩
    | compose p q ihp ihq | both p q ihp ihq | left p q ihp ihq | right p q ihp ihq
    | either p q ihp ihq | chainLeft p q ihp ihq | chainRight p q ihp ihq =>
      exact ⟨ihp hknown, ihq hknown⟩
    | map p _ ih | mapOption p _ ih | mapResult p _ ih | many p ih | oneOrMore p ih
    | optional p ih | count _ p ih | lookAhead p ih | notFollowedBy p ih | annotate _ p _ ih
    | label p _ ih | inspect p _ ih | recover p _ ih | trace _ p ih | afresh p ih | copied p ih =>
      exact ih hknown
    | _ => trivial
  exact hany (fun _ ↦ trivial) p

/-- A scoped grammar has scoped parts. -/
theorem Scoped.part {p q : Grammar} (hp : p.Scoped avoid known) (hq : q.IsPart p) :
    q.Scoped avoid known := by
  cases p with
  | compose _ _ | both _ _ | left _ _ | right _ _ | either _ _ | chainLeft _ _ | chainRight _ _ =>
    rcases hq with rfl | rfl
    · exact hp.1
    · exact hp.2
  | mid _ _ _ =>
    rcases hq with rfl | rfl | rfl
    · exact hp.1
    · exact hp.2.1
    · exact hp.2.2
  | bind _ _ _ =>
    rcases hq with rfl | ⟨v, rfl⟩
    · exact hp.1
    · exact hp.2 v
  | optional _ => exact hq.2 ▸ hp
  | _ =>
    first
    | exact hq.elim
    | exact hq ▸ hp

/-- Whatever else is asked of the functions in it, a scoped grammar has scoped parts. -/
theorem passesDown_scoped (condition : (String → Prop) → (String → Prop) → Prop) :
    PassesDown (ReportsOnly fun _ ↦ True) fun p ↦
      ∃ known avoid, condition known avoid ∧ p.Scoped avoid known where
  allows := fun {p} _ ↦ p.reportsOnly_any
  part := fun ⟨known, avoid, hcondition, hp⟩ hq ↦ ⟨known, avoid, hcondition, hp.part hq⟩

section

variable {definitions definitions' : Definitions} {bound : Nat} {scope scope' : Scope}
  {given given' : String → Grammar}

open Parse

/-! ### Bounds -/

theorem approximates_zero (p : Grammar) (other : Parse) :
    (p.eval definitions 0 scope).Approximates other :=
  fun _ ↦ Run.approximates_unfinished _

/-- A greater bound changes no end that has been reached, and what has been noted and built before
is of no account. -/
theorem approximates_eval_of_le {bound bound' : Nat} (hbound : bound ≤ bound') (scope : Scope)
    (p : Grammar) :
    (p.eval definitions bound scope).Approximates (p.eval definitions bound' scope) := by
  have congruence := Run.approximates_congruence
  have hany {q : Grammar} : q.Everywhere (ReportsOnly fun _ ↦ True) :=
    everywhere_of_forall reportsOnly_any q
  induction bound generalizing bound' scope p with
  | zero => exact approximates_zero _ _
  | succ bound ih =>
    obtain ⟨bound', rfl⟩ := Nat.exists_eq_add_of_lt hbound
    exact congruence.preserved.meaning
      (congruence.preserve (Run.withinBounds_of_le (by omega)) congruence.trace_any)
      (fun _ _ _ ↦ hany) (fun scope p _ _ ↦ ih (by omega) scope p) scope p
      (Scope.everywhere_of_forall reportsOnly_any scope) hany

/-- A variable does what the cell does that it refers to. -/
theorem eval_var {name : String} {cell : Closure} (h : scope.lookup name = some cell) :
    (var name).eval definitions bound scope = cell.grammar.eval definitions bound cell.scope := by
  obtain ⟨outer, tag, own, body, rfl⟩ := Scope.lookup_eq_fix h
  cases bound with
  | zero => rfl
  | succ bound => simp only [eval, meaning, read, plain, Definitions.behind, h]

theorem eval_var_none {name : String} (h : scope.lookup name = none) :
    (var name).eval definitions (bound + 1) scope = Parse.raise (.missingKey (.text name)) := by
  simp only [eval, meaning, read, plain, Definitions.behind, h]

/-- A variable approximates itself where it refers to the same cell. -/
theorem approximates_var {x : String} (hlookup : scope.lookup x = scope'.lookup x) (bound : Nat) :
    ((var x).eval definitions bound scope).Approximates
      ((var x).eval definitions bound scope') := by
  cases hcell : scope'.lookup x with
  | some cell =>
    rw [eval_var (hlookup.trans hcell), eval_var hcell]
    exact approximates_eval_of_le (Nat.le_refl bound) _ _
  | none =>
    cases bound with
    | zero => exact approximates_zero _ _
    | succ bound =>
      rw [eval_var_none (hlookup.trans hcell), eval_var_none hcell]
      exact Run.approximates_congruence.raise _

/-! ### Agreement -/

/-- What stands in for a known variable on the first side approximates what stands in for it on the
second one, within every bound up to a given one. That is so in all scopes in which the variable and
those to be avoided refer to the same cells, since there may be further cells around it. -/
def Agree (definitions definitions' : Definitions) (bound : Nat) (scope scope' : Scope)
    (given given' : String → Grammar) (known avoid : String → Prop) : Prop :=
  ∀ x, known x → ∀ cut ≤ bound, ∀ inner inner' : Scope,
    (∀ y, y = x ∨ avoid y → inner.lookup y = scope.lookup y) →
    (∀ y, y = x ∨ avoid y → inner'.lookup y = scope'.lookup y) →
    ((given x).eval definitions cut inner).Approximates
      ((given' x).eval definitions' cut inner')

/-- Where no variable refers to anything, the variables agree. -/
theorem agree_of_lookup_none (hscope : ∀ x, scope.lookup x = none)
    (hscope' : ∀ x, scope'.lookup x = none) :
    Agree definitions definitions' bound scope scope' var var known avoid := by
  intro x _ cut _ inner inner' hinner hinner'
  cases cut with
  | zero => exact approximates_zero _ _
  | succ cut =>
    have hx : inner.lookup x = none := (hinner x (.inl rfl)).trans (hscope x)
    have hx' : inner'.lookup x = none := (hinner' x (.inl rfl)).trans (hscope' x)
    rw [eval_var_none hx, eval_var_none hx']
    exact Run.approximates_congruence.raise _

theorem Agree.of_le {cut : Nat} (hcut : cut ≤ bound)
    (h : Agree definitions definitions' bound scope scope' given given' known avoid) :
    Agree definitions definitions' cut scope scope' given given' known avoid :=
  fun x hx cut' hcut' ↦ h x hx cut' (Nat.le_trans hcut' hcut)

/-- Inside a cell the variables still agree, and so does the new one if the cell on the first side
approximates the one on the second within every such bound. -/
theorem Agree.under {tag : Nat} {name : String} {body body' : Grammar} (hname : ¬avoid name)
    (h : Agree definitions definitions' bound scope scope' given given' known avoid)
    (hcell : ∀ cut ≤ bound, ((fix tag name body).eval definitions cut scope).Approximates
      ((fix tag name body').eval definitions' cut scope')) :
    Agree definitions definitions' bound (.bound tag name body scope) (.bound tag name body' scope')
      (Grammar.under name given) (Grammar.under name given') (fun x ↦ x = name ∨ known x)
      avoid := by
  intro x hx cut hcut inner inner' hinner hinner'
  unfold Grammar.under
  by_cases hxname : x = name
  · rw [if_pos hxname, if_pos hxname]
    have hlookup : inner.lookup x = some ⟨scope, .fix tag name body⟩ := by
      rw [hinner x (.inl rfl), hxname, Scope.lookup_bound_self]
    have hlookup' : inner'.lookup x = some ⟨scope', .fix tag name body'⟩ := by
      rw [hinner' x (.inl rfl), hxname, Scope.lookup_bound_self]
    rw [eval_var hlookup, eval_var hlookup']
    exact hcell cut hcut
  · rw [if_neg hxname, if_neg hxname]
    have hother {y : String} (hy : y = x ∨ avoid y) : y ≠ name := by
      rintro rfl
      exact hy.elim (fun hyx ↦ hxname hyx.symm) hname
    refine h x (hx.resolve_left hxname) cut hcut inner inner' (fun y hy ↦ ?_) fun y hy ↦ ?_
    · rw [hinner y hy, Scope.lookup_bound_of_ne tag body scope (hother hy)]
    · rw [hinner' y hy, Scope.lookup_bound_of_ne tag body' scope' (hother hy)]

/-! ### Redirected references approximate others -/

variable {shares shares' : Nat → String → Bool}

/-- A redirected grammar goes by the constructors of the grammar. The environment is a scope with
what stands in for the variables. -/
theorem structural_redirect (shares : Nat → String → Bool) (reading : Reading Scope) :
    Structural (.standard reading.loops) fun (env : Scope × (String → Grammar)) p ↦
      (p.redirect shares env.2).read reading env.1 := by
  constructor <;> intros <;> rfl

/-- A cell that builds a definition enters a scope of its own, be the parser shared or not. -/
theorem behind_lazy_redirect (shares : Nat → String → Bool) (definitions : Definitions)
    (scope : Scope) (tag : Nat) (name : String) (given : String → Grammar) :
    ∃ inner : Scope, (∀ x, inner.lookup x = none) ∧
      ((lazy tag name).redirect shares given).IsReference ∧
      definitions.behind scope ((lazy tag name).redirect shares given) =
        (definitions.get name).map (⟨inner, ·⟩) := by
  rw [redirect]
  by_cases hshares : shares tag name = true
  · rw [if_pos hshares]
    exact ⟨.shared name, fun _ ↦ rfl, trivial, rfl⟩
  · rw [if_neg hshares]
    exact ⟨.anew tag scope, fun _ ↦ rfl, trivial, rfl⟩

/-- One reading of a grammar approximates another one if its variables agree, when that is so of
whatever the grammar refers to, within smaller bounds. -/
theorem approximates_meaning_redirect
    (henter : ∀ cut ≤ bound, ∀ {known avoid : String → Prop} {scope scope' : Scope}
      {given given' : String → Grammar} (q : Grammar),
      Agree (definitions.share shares) (definitions.share shares') cut scope scope' given given'
        known avoid → q.Scoped avoid known →
      ((q.redirect shares given).eval (definitions.share shares) cut scope).Approximates
        ((q.redirect shares' given').eval (definitions.share shares') cut scope'))
    (p : Grammar)
    (hagree : Agree (definitions.share shares) (definitions.share shares') (bound + 1) scope scope'
      given given' known avoid) (hp : p.Scoped avoid known) :
    ((p.redirect shares given).eval (definitions.share shares) (bound + 1) scope).Approximates
      ((p.redirect shares' given').eval (definitions.share shares') (bound + 1) scope') := by
  have congruence := Run.approximates_congruence
  have hdefinition {name : String} {inner inner' scope scope' : Scope} {q q' : Grammar}
      (hinner : ∀ x, inner.lookup x = none) (hinner' : ∀ x, inner'.lookup x = none)
      (hbehind : (definitions.share shares).behind scope q =
        ((definitions.share shares).get name).map (⟨inner, ·⟩))
      (hbehind' : (definitions.share shares').behind scope' q' =
        ((definitions.share shares').get name).map (⟨inner', ·⟩)) :
      ((plain (definitions.share shares) (eval (definitions.share shares) bound)
        (.within (bound + 1))).refer scope q).Approximates
        ((plain (definitions.share shares') (eval (definitions.share shares') bound)
          (.within (bound + 1))).refer scope' q') := by
    simp only [plain, hbehind, hbehind', Definitions.get_share]
    cases definitions.get name with
    | ok q =>
      exact henter bound (Nat.le_refl bound) q (agree_of_lookup_none hinner hinner') q.scoped_any
    | error fault => exact congruence.raise fault
  refine (structural_redirect shares _).relates (structural_redirect shares' _)
    congruence.preserved (congruence.preserve (.inl rfl) congruence.trace_any)
    (fun env env' ↦ passesDown_scoped (Agree (definitions.share shares) (definitions.share shares')
      (bound + 1) env.1 env'.1 env.2 env'.2)) ?_ ?_ ?_ p (scope, given) (scope', given')
    ⟨known, avoid, hagree, hp⟩
  · rintro ⟨scope, given⟩ ⟨scope', given'⟩ q hq ⟨known, avoid, hagree, hq'⟩
    cases q with
    | use name => exact hdefinition (fun _ ↦ rfl) (fun _ ↦ rfl) rfl rfl
    | lazyShared tag name => exact hdefinition (fun _ ↦ rfl) (fun _ ↦ rfl) rfl rfl
    | lazy tag name =>
      obtain ⟨inner, hinner, hreference, hbehind⟩ :=
        behind_lazy_redirect shares (definitions.share shares) scope tag name given
      obtain ⟨inner', hinner', hreference', hbehind'⟩ :=
        behind_lazy_redirect shares' (definitions.share shares') scope' tag name given'
      rw [read_reference _ _ hreference, read_reference _ _ hreference']
      exact hdefinition hinner hinner' hbehind hbehind'
    | fix tag name body =>
      refine henter bound (Nat.le_refl bound) body (.under hq'.1
        (hagree.of_le (Nat.le_succ bound)) fun cut hcut ↦ ?_) hq'.2
      exact henter cut hcut (fix tag name body) (hagree.of_le (Nat.le_succ_of_le hcut)) hq'
    | var name =>
      exact hagree name hq' (bound + 1) (Nat.le_refl _) scope scope' (fun _ _ ↦ rfl) fun _ _ ↦ rfl
    | unbuildable tag name fault => exact congruence.raise fault
    | _ => exact hq.elim
  · rintro env env' q hq ih
    exact ih env env' hq
  · exact fun _ ih ↦ ih

/-- One reading of a grammar approximates another one if its variables agree. Assumes: what is to be
avoided is not bound inside the grammar, and its free variables are known. -/
theorem approximates_redirect (definitions : Definitions) (shares shares' : Nat → String → Bool)
    (bound : Nat) {known avoid : String → Prop} {scope scope' : Scope}
    {given given' : String → Grammar} (p : Grammar)
    (hagree : Agree (definitions.share shares) (definitions.share shares') bound scope scope' given
      given' known avoid) (hp : p.Scoped avoid known) :
    ((p.redirect shares given).eval (definitions.share shares) bound scope).Approximates
      ((p.redirect shares' given').eval (definitions.share shares') bound scope') := by
  induction bound using Nat.strongRecOn generalizing known avoid scope scope' given given' p with
  | _ bound ih =>
    cases bound with
    | zero => exact approximates_zero _ _
    | succ bound =>
      exact approximates_meaning_redirect
        (fun cut hcut _ _ _ _ _ _ q hagree hq ↦ ih cut (Nat.lt_succ_of_le hcut) q hagree hq) p
        hagree hp

/-- The case in which only the selected cells differ. Where no variable refers to anything, it makes
no difference which of them refer to shared parsers. -/
theorem approximates_share (definitions : Definitions) (shares shares' : Nat → String → Bool)
    (bound : Nat) {scope scope' : Scope} (p : Grammar) (hscope : ∀ x, scope.lookup x = none)
    (hscope' : ∀ x, scope'.lookup x = none) :
    ((p.share shares).eval (definitions.share shares) bound scope).Approximates
      ((p.share shares').eval (definitions.share shares') bound scope') :=
  approximates_redirect definitions shares shares' bound p (agree_of_lookup_none hscope hscope')
    p.scoped_any

/-- The case in which only the variables differ. -/
theorem approximates_replace (definitions : Definitions) (bound : Nat)
    {known avoid : String → Prop} {scope scope' : Scope} {given given' : String → Grammar}
    (p : Grammar)
    (hagree : Agree definitions definitions bound scope scope' given given' known avoid)
    (hp : p.Scoped avoid known) :
    ((p.replace given).eval definitions bound scope).Approximates
      ((p.replace given').eval definitions bound scope') := by
  have hsame := definitions.share_none
  have hredirect := approximates_redirect definitions (fun _ _ ↦ false) (fun _ _ ↦ false) bound
    p (by rwa [hsame]) hp
  rwa [hsame] at hredirect

/-- A grammar does the same where its free variables refer to the same cells. -/
theorem approximates_eval (bound : Nat) {known : String → Prop} {scope scope' : Scope}
    (p : Grammar) (hp : p.Scoped (fun _ ↦ False) known)
    (hlookup : ∀ x, known x → scope.lookup x = scope'.lookup x) :
    (p.eval definitions bound scope).Approximates (p.eval definitions bound scope') := by
  have hagree : Agree definitions definitions bound scope scope' var var known fun _ ↦ False := by
    intro x hx cut _ inner inner' hinner hinner'
    refine approximates_var ?_ cut
    rw [hinner x (.inl rfl), hinner' x (.inl rfl), hlookup x hx]
  have hreplace := approximates_replace definitions bound p hagree hp
  rwa [replace_var] at hreplace

end

end Grammar

end DiagnosticParsing
