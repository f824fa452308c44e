import DiagnosticParsing.Grammar.Reading
import DiagnosticParsing.Proofs.Everywhere

/-!
# Two readings side by side

Much of what is said of grammars compares two readings of them: with a smaller and a greater bound,
with diagnostics and without, with cells that keep what has been built and with cells that build it
anew. All such comparisons are one induction over the grammar, `Grammar.Structural.relates`.

Either side is a family of parsers over grammars that goes by the constructors
(`Grammar.Structural`). Repetitions and diagnostics are what the two sides may treat in different
ways (`Operations`). What is compared is any relation between parsers that every constructor keeps
(`Grammar.Preserved`) and every pair of operations (`Operations.Preserve`). References, parsers made
in a run and copied parse functions are left to those who compare. What fits together on the two
sides, grammars and their environments, is up to them as well, as long as it passes down from a
grammar to its parts (`Grammar.PassesDown`). For two readings in the same environments this comes
to `Grammar.Preserved.read`.
-/

set_option autoImplicit false

namespace DiagnosticParsing

/-! ### What can be treated in different ways -/

/-- What repetitions and diagnostics do. A diagnostic may depend on the grammar around which it
stands, besides what that grammar does. -/
structure Operations extends Loops where
  /-- With a message in front. -/
  annotate : Severity → Grammar → String → Parse → Parse
  /-- With a name for what was expected. -/
  label : Grammar → String → Parse → Parse
  /-- Watched by an observer. -/
  inspect : Grammar → (Place → Reply → Call Unit) → Parse → Parse
  /-- With a value that stands in for a failure. -/
  recover : Grammar → Value → Parse → Parse
  /-- Between two notes. -/
  trace : String → Grammar → Parse → Parse

/-- The diagnostics do what they are there for. -/
def Operations.standard (loops : Loops) : Operations where
  toLoops := loops
  annotate severity _ text p := Parse.annotate severity p text
  label _ name p := Parse.label p name
  inspect _ observe p := Parse.inspect p observe
  recover _ default p := Parse.recover p default
  trace name _ p := Parse.trace name p

namespace Grammar

variable {ε ε' : Type}

/-! ### Families of parsers over grammars -/

/-- What a grammar does in an environment goes by its constructor. Nothing is said of references, of
parsers made in a run and of copied parse functions. -/
structure Structural (operations : Operations) (does : ε → Grammar → Parse) : Prop where
  succeed : ∀ env v, does env (.succeed v) = Parse.succeed v
  empty : ∀ env, does env .empty = Parse.empty
  eof : ∀ env, does env .eof = Parse.eof
  element : ∀ env test describe,
    does env (.element test describe) = Parse.element test describe
  token : ∀ env test describe, does env (.token test describe) = Parse.token test describe
  literal : ∀ env v, does env (.literal v) = Parse.literal v
  regex : ∀ env pattern, does env (.regex pattern) = Parse.regex pattern
  raise : ∀ env fault, does env (.raise fault) = Parse.raise fault
  reply : ∀ env answer, does env (.reply answer) = Parse.reply answer
  map : ∀ env p f, does env (.map p f) = Parse.map (does env p) f
  mapOption : ∀ env p f, does env (.mapOption p f) = Parse.mapOption (does env p) f
  mapResult : ∀ env p f, does env (.mapResult p f) = Parse.mapResult (does env p) f
  compose : ∀ env p q, does env (.compose p q) = Parse.compose (does env p) (does env q)
  bind : ∀ env p choose next, does env (.bind p choose next) =
    Parse.chooseNext (does env p) choose fun v ↦ does env (next v)
  both : ∀ env p q, does env (.both p q) = Parse.both (does env p) (does env q)
  left : ∀ env p q, does env (.left p q) = Parse.left (does env p) (does env q)
  right : ∀ env p q, does env (.right p q) = Parse.right (does env p) (does env q)
  mid : ∀ env p q r,
    does env (.mid p q r) = Parse.mid (does env p) (does env q) (does env r)
  either : ∀ env p q, does env (.either p q) = Parse.either (does env p) (does env q)
  many : ∀ env p, does env (.many p) = operations.many (does env p)
  oneOrMore : ∀ env p, does env (.oneOrMore p) = operations.oneOrMore (does env p)
  optional : ∀ env p, does env (.optional p) = Parse.optional (does env p)
  count : ∀ env n p, does env (.count n p) = Parse.count n (does env p)
  chainLeft : ∀ env p op,
    does env (.chainLeft p op) = operations.chainLeft (does env p) (does env op)
  chainRight : ∀ env p op,
    does env (.chainRight p op) = operations.chainRight (does env p) (does env op)
  lookAhead : ∀ env p, does env (.lookAhead p) = Parse.lookAhead (does env p)
  notFollowedBy : ∀ env p, does env (.notFollowedBy p) = Parse.notFollowedBy (does env p)
  annotate : ∀ env severity p text,
    does env (.annotate severity p text) = operations.annotate severity p text (does env p)
  label : ∀ env p name, does env (.label p name) = operations.label p name (does env p)
  inspect : ∀ env p observe,
    does env (.inspect p observe) = operations.inspect p observe (does env p)
  recover : ∀ env p default,
    does env (.recover p default) = operations.recover p default (does env p)
  trace : ∀ env name p, does env (.trace name p) = operations.trace name p (does env p)

/-- A reading goes by the constructors. -/
theorem structural_read (reading : Reading ε) :
    Structural (.standard reading.loops) (read reading) := by
  constructor <;> intros <;> rfl

/-- A reading leaves references open. -/
theorem read_reference (reading : Reading ε) (env : ε) {p : Grammar} (hp : p.IsReference) :
    p.read reading env = reading.refer env p := by
  cases p with
  | use _ | lazy _ _ | lazyShared _ _ | fix _ _ _ | var _ | unbuildable _ _ _ => rfl
  | _ => exact hp.elim

/-! ### Relations that the constructors keep -/

/-- Every constructor keeps a relation between parsers, as far as it is allowed. -/
structure Preserved (allowed : Grammar → Prop) (related : Parse → Parse → Prop) : Prop where
  succeed : ∀ v, allowed (.succeed v) → related (Parse.succeed v) (Parse.succeed v)
  empty : allowed .empty → related Parse.empty Parse.empty
  eof : allowed .eof → related Parse.eof Parse.eof
  element : ∀ test describe, allowed (.element test describe) →
    related (Parse.element test describe) (Parse.element test describe)
  token : ∀ test describe, allowed (.token test describe) →
    related (Parse.token test describe) (Parse.token test describe)
  literal : ∀ v, allowed (.literal v) → related (Parse.literal v) (Parse.literal v)
  regex : ∀ pattern, allowed (.regex pattern) → related (Parse.regex pattern) (Parse.regex pattern)
  raise : ∀ fault, related (Parse.raise fault) (Parse.raise fault)
  reply : ∀ answer, allowed (.reply answer) → related (Parse.reply answer) (Parse.reply answer)
  map : ∀ {p p'} part f, allowed (.map part f) → related p p' →
    related (Parse.map p f) (Parse.map p' f)
  mapOption : ∀ {p p'} part f, allowed (.mapOption part f) → related p p' →
    related (Parse.mapOption p f) (Parse.mapOption p' f)
  mapResult : ∀ {p p'} part f, allowed (.mapResult part f) → related p p' →
    related (Parse.mapResult p f) (Parse.mapResult p' f)
  compose : ∀ {p p' q q'} part other, allowed (.compose part other) → related p p' →
    related q q' → related (Parse.compose p q) (Parse.compose p' q')
  chooseNext : ∀ {p p' next next'} part choose others, allowed (.bind part choose others) →
    related p p' → (∀ v, related (next v) (next' v)) →
    related (Parse.chooseNext p choose next) (Parse.chooseNext p' choose next')
  both : ∀ {p p' q q'} part other, allowed (.both part other) → related p p' → related q q' →
    related (Parse.both p q) (Parse.both p' q')
  left : ∀ {p p' q q'} part other, allowed (.left part other) → related p p' → related q q' →
    related (Parse.left p q) (Parse.left p' q')
  right : ∀ {p p' q q'} part other, allowed (.right part other) → related p p' → related q q' →
    related (Parse.right p q) (Parse.right p' q')
  mid : ∀ {p p' q q' r r'} part other last, allowed (.mid part other last) → related p p' →
    related q q' → related r r' → related (Parse.mid p q r) (Parse.mid p' q' r')
  either : ∀ {p p' q q'} part other, allowed (.either part other) → related p p' →
    related q q' → related (Parse.either p q) (Parse.either p' q')
  optional : ∀ {p p'} part, allowed (.optional part) → related p p' →
    related (Parse.optional p) (Parse.optional p')
  optionalEmpty : allowed (.optional .empty) →
    related (Parse.optional Parse.empty) (Parse.optional Parse.empty)
  count : ∀ {p p'} n part, allowed (.count n part) → related p p' →
    related (Parse.count n p) (Parse.count n p')
  lookAhead : ∀ {p p'} part, allowed (.lookAhead part) → related p p' →
    related (Parse.lookAhead p) (Parse.lookAhead p')
  notFollowedBy : ∀ {p p'} part, allowed (.notFollowedBy part) → related p p' →
    related (Parse.notFollowedBy p) (Parse.notFollowedBy p')

end Grammar

/-- Two ways of treating repetitions and diagnostics keep a relation between parsers, as far as they
are allowed. -/
structure Operations.Preserve (allowed : Grammar → Prop) (related : Parse → Parse → Prop)
    (operations operations' : Operations) : Prop where
  many : ∀ {p p'} part, allowed (.many part) → related p p' →
    related (operations.many p) (operations'.many p')
  oneOrMore : ∀ {p p'} part, allowed (.oneOrMore part) → related p p' →
    related (operations.oneOrMore p) (operations'.oneOrMore p')
  chainLeft : ∀ {p p' op op'} part operator, allowed (.chainLeft part operator) → related p p' →
    related op op' → related (operations.chainLeft p op) (operations'.chainLeft p' op')
  chainRight : ∀ {p p' op op'} part operator, allowed (.chainRight part operator) →
    related p p' → related op op' →
    related (operations.chainRight p op) (operations'.chainRight p' op')
  annotate : ∀ {p p'} severity part text, allowed (.annotate severity part text) → related p p' →
    related (operations.annotate severity part text p) (operations'.annotate severity part text p')
  label : ∀ {p p'} part name, allowed (.label part name) → related p p' →
    related (operations.label part name p) (operations'.label part name p')
  inspect : ∀ {p p'} part observe, allowed (.inspect part observe) → related p p' →
    related (operations.inspect part observe p) (operations'.inspect part observe p')
  recover : ∀ {p p'} part default, allowed (.recover part default) → related p p' →
    related (operations.recover part default p) (operations'.recover part default p')
  trace : ∀ {p p'} name part, allowed (.trace name part) → related p p' →
    related (operations.trace name part p) (operations'.trace name part p')

namespace Grammar

variable {ε ε' : Type}

/-! ### Parts -/

/-- A grammar is an immediate part of another one that is no reference. What stands in the place of
operators that a level lacks is none. -/
def IsPart (q : Grammar) : Grammar → Prop
  | map p _ | mapOption p _ | mapResult p _ | many p | oneOrMore p | count _ p | lookAhead p
  | notFollowedBy p | annotate _ p _ | label p _ | inspect p _ | recover p _ | trace _ p
  | afresh p | copied p => q = p
  | optional p => p ≠ empty ∧ q = p
  | compose p p' | both p p' | left p p' | right p p' | either p p' | chainLeft p p'
  | chainRight p p' => q = p ∨ q = p'
  | mid p p' p'' => q = p ∨ q = p' ∨ q = p''
  | bind p _ next => q = p ∨ ∃ v, q = next v
  | _ => False

/-- What is good is allowed, and its parts are good. -/
structure PassesDown (allowed good : Grammar → Prop) : Prop where
  allows : ∀ {p}, good p → allowed p
  part : ∀ {p q}, good p → q.IsPart p → good q

/-- What else is asked, of something other than the grammar, makes no difference. -/
theorem PassesDown.and {allowed good : Grammar → Prop} (h : PassesDown allowed good)
    (condition : Prop) : PassesDown allowed fun p ↦ condition ∧ good p where
  allows := fun hp ↦ h.allows hp.2
  part := fun hp hq ↦ ⟨hp.1, h.part hp.2 hq⟩

/-- Allowed parts have allowed parts. -/
theorem passesDown_everywhere (allowed : Grammar → Prop) :
    PassesDown allowed (Everywhere allowed) where
  allows := by
    intro p hp
    cases p <;> first | exact hp | exact hp.1
  part := by
    intro p q hp hq
    cases p with
    | compose _ _ | both _ _ | left _ _ | right _ _ | either _ _ | chainLeft _ _ | chainRight _ _ =>
      rcases hq with rfl | rfl
      · exact hp.2.1
      · exact hp.2.2
    | mid _ _ _ =>
      rcases hq with rfl | rfl | rfl
      · exact hp.2.1
      · exact hp.2.2.1
      · exact hp.2.2.2
    | bind _ _ _ =>
      rcases hq with rfl | ⟨v, rfl⟩
      · exact hp.2.1
      · exact hp.2.2 v
    | optional _ =>
      obtain ⟨hne, rfl⟩ := hq
      exact hp.2.resolve_left hne
    | _ =>
      first
      | exact hq.elim
      | exact hq ▸ hp.2

/-! ### The induction -/

section Related

variable {allowed : Grammar → Prop} {related : Parse → Parse → Prop}
  {operations operations' : Operations} {does : ε → Grammar → Parse} {does' : ε' → Grammar → Parse}
  {fits : ε → ε' → Grammar → Prop}

/-- Two families of parsers are related on the grammars that fit, when what is left open by the
constructors is related: references, parsers made in a run, and copies of parse functions. -/
theorem Structural.relates (hdoes : Structural operations does)
    (hdoes' : Structural operations' does') (hpreserved : Preserved allowed related)
    (hoperations : Operations.Preserve allowed related operations operations')
    (hfits : ∀ env env', PassesDown allowed (fits env env'))
    (hrefer : ∀ {env env' p}, p.IsReference → fits env env' p → related (does env p) (does' env' p))
    (hafresh : ∀ {env env' p}, fits env env' (.afresh p) →
      (∀ inner inner', fits inner inner' p → related (does inner p) (does' inner' p)) →
      related (does env (.afresh p)) (does' env' (.afresh p)))
    (hcopied : ∀ {env env' p}, fits env env' (.copied p) → related (does env p) (does' env' p) →
      related (does env (.copied p)) (does' env' (.copied p))) (p : Grammar) :
    ∀ env env', fits env env' p → related (does env p) (does' env' p) := by
  have hallows {env : ε} {env' : ε'} {q : Grammar} (h : fits env env' q) : allowed q :=
    (hfits env env').allows h
  have hpart {env : ε} {env' : ε'} {p q : Grammar} (h : fits env env' p) (hq : q.IsPart p) :
      fits env env' q :=
    (hfits env env').part h hq
  induction p with
  | succeed v =>
    intro env env' h
    rw [hdoes.succeed, hdoes'.succeed]
    exact hpreserved.succeed v (hallows h)
  | empty =>
    intro env env' h
    rw [hdoes.empty, hdoes'.empty]
    exact hpreserved.empty (hallows h)
  | eof =>
    intro env env' h
    rw [hdoes.eof, hdoes'.eof]
    exact hpreserved.eof (hallows h)
  | element test describe =>
    intro env env' h
    rw [hdoes.element, hdoes'.element]
    exact hpreserved.element test describe (hallows h)
  | token test describe =>
    intro env env' h
    rw [hdoes.token, hdoes'.token]
    exact hpreserved.token test describe (hallows h)
  | literal v =>
    intro env env' h
    rw [hdoes.literal, hdoes'.literal]
    exact hpreserved.literal v (hallows h)
  | regex pattern =>
    intro env env' h
    rw [hdoes.regex, hdoes'.regex]
    exact hpreserved.regex pattern (hallows h)
  | raise fault =>
    intro env env' _
    rw [hdoes.raise, hdoes'.raise]
    exact hpreserved.raise fault
  | reply answer =>
    intro env env' h
    rw [hdoes.reply, hdoes'.reply]
    exact hpreserved.reply answer (hallows h)
  | map p f ih =>
    intro env env' h
    rw [hdoes.map, hdoes'.map]
    exact hpreserved.map p f (hallows h) (ih env env' (hpart h rfl))
  | mapOption p f ih =>
    intro env env' h
    rw [hdoes.mapOption, hdoes'.mapOption]
    exact hpreserved.mapOption p f (hallows h) (ih env env' (hpart h rfl))
  | mapResult p f ih =>
    intro env env' h
    rw [hdoes.mapResult, hdoes'.mapResult]
    exact hpreserved.mapResult p f (hallows h) (ih env env' (hpart h rfl))
  | compose p q ihp ihq =>
    intro env env' h
    rw [hdoes.compose, hdoes'.compose]
    exact hpreserved.compose p q (hallows h) (ihp env env' (hpart h (.inl rfl)))
      (ihq env env' (hpart h (.inr rfl)))
  | bind p choose next ih ihnext =>
    intro env env' h
    rw [hdoes.bind, hdoes'.bind]
    exact hpreserved.chooseNext p choose next (hallows h) (ih env env' (hpart h (.inl rfl)))
      fun v ↦ ihnext v env env' (hpart h (.inr ⟨v, rfl⟩))
  | both p q ihp ihq =>
    intro env env' h
    rw [hdoes.both, hdoes'.both]
    exact hpreserved.both p q (hallows h) (ihp env env' (hpart h (.inl rfl)))
      (ihq env env' (hpart h (.inr rfl)))
  | left p q ihp ihq =>
    intro env env' h
    rw [hdoes.left, hdoes'.left]
    exact hpreserved.left p q (hallows h) (ihp env env' (hpart h (.inl rfl)))
      (ihq env env' (hpart h (.inr rfl)))
  | right p q ihp ihq =>
    intro env env' h
    rw [hdoes.right, hdoes'.right]
    exact hpreserved.right p q (hallows h) (ihp env env' (hpart h (.inl rfl)))
      (ihq env env' (hpart h (.inr rfl)))
  | mid p q r ihp ihq ihr =>
    intro env env' h
    rw [hdoes.mid, hdoes'.mid]
    exact hpreserved.mid p q r (hallows h) (ihp env env' (hpart h (.inl rfl)))
      (ihq env env' (hpart h (.inr (.inl rfl)))) (ihr env env' (hpart h (.inr (.inr rfl))))
  | either p q ihp ihq =>
    intro env env' h
    rw [hdoes.either, hdoes'.either]
    exact hpreserved.either p q (hallows h) (ihp env env' (hpart h (.inl rfl)))
      (ihq env env' (hpart h (.inr rfl)))
  | many p ih =>
    intro env env' h
    rw [hdoes.many, hdoes'.many]
    exact hoperations.many p (hallows h) (ih env env' (hpart h rfl))
  | oneOrMore p ih =>
    intro env env' h
    rw [hdoes.oneOrMore, hdoes'.oneOrMore]
    exact hoperations.oneOrMore p (hallows h) (ih env env' (hpart h rfl))
  | optional p ih =>
    intro env env' h
    rw [hdoes.optional, hdoes'.optional]
    by_cases hempty : p = .empty
    · subst hempty
      rw [hdoes.empty, hdoes'.empty]
      exact hpreserved.optionalEmpty (hallows h)
    · exact hpreserved.optional p (hallows h) (ih env env' (hpart h ⟨hempty, rfl⟩))
  | count n p ih =>
    intro env env' h
    rw [hdoes.count, hdoes'.count]
    exact hpreserved.count n p (hallows h) (ih env env' (hpart h rfl))
  | chainLeft p op ihp ihop =>
    intro env env' h
    rw [hdoes.chainLeft, hdoes'.chainLeft]
    exact hoperations.chainLeft p op (hallows h) (ihp env env' (hpart h (.inl rfl)))
      (ihop env env' (hpart h (.inr rfl)))
  | chainRight p op ihp ihop =>
    intro env env' h
    rw [hdoes.chainRight, hdoes'.chainRight]
    exact hoperations.chainRight p op (hallows h) (ihp env env' (hpart h (.inl rfl)))
      (ihop env env' (hpart h (.inr rfl)))
  | lookAhead p ih =>
    intro env env' h
    rw [hdoes.lookAhead, hdoes'.lookAhead]
    exact hpreserved.lookAhead p (hallows h) (ih env env' (hpart h rfl))
  | notFollowedBy p ih =>
    intro env env' h
    rw [hdoes.notFollowedBy, hdoes'.notFollowedBy]
    exact hpreserved.notFollowedBy p (hallows h) (ih env env' (hpart h rfl))
  | annotate severity p text ih =>
    intro env env' h
    rw [hdoes.annotate, hdoes'.annotate]
    exact hoperations.annotate severity p text (hallows h) (ih env env' (hpart h rfl))
  | label p name ih =>
    intro env env' h
    rw [hdoes.label, hdoes'.label]
    exact hoperations.label p name (hallows h) (ih env env' (hpart h rfl))
  | inspect p observe ih =>
    intro env env' h
    rw [hdoes.inspect, hdoes'.inspect]
    exact hoperations.inspect p observe (hallows h) (ih env env' (hpart h rfl))
  | recover p default ih =>
    intro env env' h
    rw [hdoes.recover, hdoes'.recover]
    exact hoperations.recover p default (hallows h) (ih env env' (hpart h rfl))
  | trace name p ih =>
    intro env env' h
    rw [hdoes.trace, hdoes'.trace]
    exact hoperations.trace name p (hallows h) (ih env env' (hpart h rfl))
  | afresh p ih => exact fun env env' h ↦ hafresh h ih
  | copied p ih => exact fun env env' h ↦ hcopied h (ih env env' (hpart h rfl))
  | use _ | lazy _ _ | lazyShared _ _ | fix _ _ _ | var _ | unbuildable _ _ _ =>
    exact fun env env' h ↦ hrefer trivial h

/-- The case of two readings in one and the same good environment. -/
theorem Preserved.read {reading reading' : Reading ε} (hpreserved : Preserved allowed related)
    (hoperations : Operations.Preserve allowed related (.standard reading.loops)
      (.standard reading'.loops))
    {good : ε → Prop}
    (hrefer : ∀ {env} {q : Grammar}, q.IsReference → good env → q.Everywhere allowed →
      related (reading.refer env q) (reading'.refer env q))
    (hafresh : ∀ {env} {q : Grammar}, good env → q.Everywhere allowed →
      (∀ inner, good inner → related (q.read reading inner) (q.read reading' inner)) →
      related (reading.afresh env fun inner ↦ q.read reading inner)
        (reading'.afresh env fun inner ↦ q.read reading' inner))
    (hcopied : ∀ {env} {q : Grammar}, good env → q.Everywhere allowed →
      related (q.read reading env) (q.read reading' env) →
      related (reading.copied env q (q.read reading env))
        (reading'.copied env q (q.read reading' env)))
    (env : ε) (p : Grammar) (henv : good env) (hp : p.Everywhere allowed) :
    related (p.read reading env) (p.read reading' env) := by
  have hfits (env env' : ε) :
      PassesDown allowed fun q ↦ (env = env' ∧ good env) ∧ q.Everywhere allowed :=
    (passesDown_everywhere allowed).and _
  refine (structural_read reading).relates (structural_read reading') hpreserved hoperations hfits
    ?_ ?_ ?_ p env env ⟨⟨rfl, henv⟩, hp⟩
  · rintro env _ q hq ⟨⟨rfl, henv⟩, hallowed⟩
    rw [read_reference reading env hq, read_reference reading' env hq]
    exact hrefer hq henv hallowed
  · rintro env _ q ⟨⟨rfl, henv⟩, -, hallowed⟩ ih
    exact hafresh henv hallowed fun inner hinner ↦ ih inner inner ⟨⟨rfl, hinner⟩, hallowed⟩
  · rintro env _ q ⟨⟨rfl, henv⟩, -, hallowed⟩ ih
    exact hcopied henv hallowed ih

end Related

end Grammar

end DiagnosticParsing
