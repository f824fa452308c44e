import DiagnosticParsing.Grammar.Characters
import DiagnosticParsing.Proofs.Correspondence.Parsers
import DiagnosticParsing.Proofs.Progress
import DiagnosticParsing.Proofs.Supervision

/-!
# Guarded grammars come to an end

A parse that a supervision never refuses comes to an end. Two measures show it. Every round of a
repetition raises the index, so that there are no more rounds than elements left, and one
(`Supervision.runs_rounds_advancing`). Entries that are running at the same time are different pairs
of a definition and of an index within the input (`Entries.Fits`), so that there are no more of them
than definitions times places (`Entries.Fits.length_le`). Looking ahead and backtracking move the
index back, but never before the start of the parse, and they leave no entry running.

Between one entry and the next a parse can follow references to shared parsers. A shared parser is
built before those that refer to it, so that definitions lie in layers (`Definitions.Layered`) and
there are no more such references than layers. `Supervision.Ready` keeps account of the depth that
all this takes.

The supervised parse and the plain one are then compared by the correspondence `Supervision.pacing`,
in which no run is cut short and a refusal is pardoned. The conclusion is `Grammar.guarded_ends`.
-/

set_option autoImplicit false

namespace DiagnosticParsing

/-! ### Layers of definitions -/

namespace Grammar

/-- The grammar is no parse function written by hand, and no shared parser of the given layer or
above. -/
def BuiltOn (layer : String → Nat) (height : Nat) : Grammar → Prop
  | .reply _ => False
  | .use name => layer name < height
  | _ => True

theorem BuiltOn.mono {layer : String → Nat} {low high : Nat} (hle : low ≤ high) (p : Grammar)
    (hp : p.BuiltOn layer low) : p.BuiltOn layer high := by
  cases p with
  | reply answer => exact hp
  | use name => exact Nat.lt_of_lt_of_le hp hle
  | _ => trivial

end Grammar

/-- The definitions lie in layers below a height, and the shared parser of each one is built on
those of lower layers. -/
def Definitions.Layered (definitions : Definitions) (layer : String → Nat) (height : Nat) : Prop :=
  ∀ name p, definitions.get name = .ok p →
    layer name < height ∧ p.Everywhere (Grammar.BuiltOn layer (layer name))

/-! ### Streams that a parse can reach -/

namespace Stream

variable {start s t : Stream}

/-- No parse consumes more elements than there are. -/
theorem Reaches.index_le (h : start.Reaches s) :
    start.index ≤ s.index ∧ s.index ≤ start.index + start.remaining.toNat := by
  obtain ⟨count, hcount⟩ := h
  have hmax := (onward_of_advance hcount).index_le_max
  refine ⟨(onward_of_advance hcount).index_le, ?_⟩
  rw [remaining]
  omega

theorem Reaches.remaining_le (h : start.Reaches s) :
    s.remaining.toNat ≤ start.remaining.toNat := by
  obtain ⟨count, hcount⟩ := h
  have hindex := (onward_of_advance hcount).index_le
  have hremaining := (onward_of_advance hcount).index_add_remaining
  have hstart : start.remaining = start.data.size - start.index := rfl
  omega

/-- The further on, the less is left. -/
theorem Reaches.remaining_lt (hs : start.Reaches s) (ht : start.Reaches t)
    (hlt : s.index < t.index) : t.remaining.toNat < s.remaining.toNat := by
  obtain ⟨count, hcount⟩ := hs
  obtain ⟨count', hcount'⟩ := ht
  have hindex := (onward_of_advance hcount).index_le
  have hremaining := (onward_of_advance hcount).index_add_remaining
  have hremaining' := (onward_of_advance hcount').index_add_remaining
  have hmax' := (onward_of_advance hcount').index_le_max
  omega

/-- How many references can be open at once in a guarded parse: for each of `n` definitions and each
place to enter it, a stretch of references through the layers below a height, and one such stretch
before the first entry. -/
def openReferences (start : Stream) (n height : Nat) : Nat :=
  n * (start.remaining.toNat + 1) * (height + 1) + (height + 2)

end Stream

/-! ### Entries -/

/-- The entries are pairwise different, and each one lies where a parse from the start can be. -/
structure Entries.Fits {n : Nat} (start : Stream) (entries : Entries n) : Prop where
  nodup : entries.Nodup
  index_mem : ∀ entry ∈ entries,
    start.index ≤ entry.2 ∧ entry.2 ≤ start.index + start.remaining.toNat

theorem Entries.fits_nil {n : Nat} (start : Stream) : Entries.Fits start ([] : Entries n) :=
  ⟨List.nodup_nil, fun _ h ↦ nomatch h⟩

/-- There are no more entries than definitions and places to enter them. -/
theorem Entries.Fits.length_le {n : Nat} {start : Stream} {entries : Entries n}
    (h : entries.Fits start) : entries.length ≤ n * (start.remaining.toNat + 1) := by
  let possible : Entries n := (List.finRange n).flatMap fun definition ↦
    (List.range' start.index (start.remaining.toNat + 1)).map fun index ↦ (definition, index)
  have hsubset : entries ⊆ possible := by
    intro entry hentry
    have hindex := h.index_mem entry hentry
    have hmem : entry.2 ∈ List.range' start.index (start.remaining.toNat + 1) :=
      List.mem_range'_1.mpr (by omega)
    exact List.mem_flatMap.mpr ⟨entry.1, List.mem_finRange _, List.mem_map.mpr ⟨entry.2, hmem, rfl⟩⟩
  calc
    entries.length ≤ possible.length := h.nodup.length_le_of_subset hsubset
    _ = n * (start.remaining.toNat + 1) := by
      simp only [possible, List.length_flatMap, List.length_map, List.length_range',
        List.map_const', List.length_finRange, List.sum_replicate_nat]

/-! ### Supervised and plain parses side by side -/

namespace Supervision

open Correspondence Parse
open Run (ofExcept_ok_bind)

variable {n : Nat} (supervision : Supervision n) {start : Stream}

/-- The two sides are on the same stream, which steps lead to from the start, and say the same. What
the first one refuses is pardoned, and neither is cut short. -/
def pacing (start : Stream) : Correspondence where
  streams s s' := s = s' ∧ start.Reaches s
  messages := Eq
  pardons fault := fault = supervision.refusal
  endless := False
  isEmpty_eq := by
    rintro s _ ⟨rfl, -⟩
    rfl
  next := by
    rintro s _ ⟨rfl, hreaches⟩
    cases hnext : s.next with
    | error fault => exact .inl ⟨fault, rfl, rfl⟩
    | ok step =>
      exact .inr ⟨step.1, step.2, step.2, rfl, rfl, rfl,
        hreaches.trans (Stream.reaches_of_next hnext)⟩
  silence := Log.toList_empty
  append := by
    rintro _ _ _ _ rfl rfl
    rfl
  message := by
    rintro s _ ⟨rfl, -⟩ severity text
    rfl

variable {supervision}

/-- No repetition is given more attempts than one at the start. -/
theorem attempts_le {place place' : Place}
    (hplace : place.Related (supervision.pacing start).streams place') :
    place.attempts ≤ start.remaining.toNat + 1 := by
  cases hplace with
  | stream slot hstreams => exact Nat.succ_le_succ hstreams.2.remaining_le

/-- Fewer attempts are left behind a round that gets on. -/
theorem attempts_lt {place place' rest rest' : Place}
    (hplace : place.Related (supervision.pacing start).streams place')
    (hrest : rest.Related (supervision.pacing start).streams rest')
    (hbefore : place.isBefore rest = true) : rest.attempts < place.attempts := by
  cases hplace with
  | stream slot hstreams =>
    cases hrest with
    | stream slot' hstreams' =>
      exact Nat.succ_lt_succ (hstreams.2.remaining_lt hstreams'.2 (of_decide_eq_true hbefore))

/-- Repetitions that are refused where a round does not get on need no more rounds than they are
given. The induction is on the number given, which a round that gets on lowers. -/
theorem runs_rounds_advancing {σ : Type} {round round' : Round σ}
    (hround : (supervision.pacing start).RoundsRelated round round') (fuel : Nat) :
    ∀ {bound : Nat} {place place' : Place},
      place.Related (supervision.pacing start).streams place' → place.attempts ≤ fuel →
        place.attempts ≤ bound → ∀ gathered,
          (supervision.pacing start).Runs
            (rounds fuel (supervision.advancing round) place gathered)
            (rounds bound round' place' gathered)
            fun result result' ↦
              result.1.Related (supervision.pacing start).streams result'.1 ∧
                result.2 = result'.2 := by
  induction fuel with
  | zero =>
    intro bound place place' _ hfuel
    exact absurd place.attempts_pos (Nat.not_lt_of_le hfuel)
  | succ fuel ih =>
    intro bound place place' hplace hfuel hbound gathered
    cases bound with
    | zero => exact absurd place.attempts_pos (Nat.not_lt_of_le hbound)
    | succ bound =>
      simp only [rounds, advancing, bind_assoc]
      refine (hround hplace gathered).bind fun found found' hfound ↦ ?_
      cases hfound with
      | stop => exact runs_pure ⟨hplace, rfl⟩
      | @goOn rest rest' more hrest =>
        by_cases hbefore : place.isBefore rest = true
        · have hless := attempts_lt hplace hrest hbefore
          simp only [if_pos hbefore, pure_bind]
          exact ih hrest (by omega) (by omega) more
        · simp only [if_neg hbefore]
          exact runs_pardoned rfl _

/-- A bound that suffices at the start suffices for every repetition. -/
theorem repetitions_repeating {bound : Nat} (hbound : start.remaining.toNat + 1 ≤ bound) :
    (supervision.pacing start).Repetitions supervision.repeating (rounds bound) := by
  intro σ round round' hround place place' hplace gathered
  exact runs_rounds_advancing hround place.attempts hplace (Nat.le_refl _)
    (Nat.le_trans (attempts_le hplace) hbound) gathered

/-- One attempt for each element left, and one more, suffices for every repetition. -/
theorem repetitions_sparing :
    (supervision.pacing start).Repetitions supervision.repeating
      fun round place gathered ↦ rounds place.attempts round place gathered := by
  intro σ round round' hround place place' hplace gathered
  have hattempts : place.attempts = place'.attempts := by rw [hplace.eq And.left]
  exact runs_rounds_advancing hround place.attempts hplace (Nat.le_refl _)
    (Nat.le_of_eq hattempts) gathered

/-- An entry is refused, or it is one more entry that fits. -/
theorem related_entering {entries : Entries n} (hentries : entries.Fits start)
    {definition : Fin n} {p : Entries n → Parse} {p' : Parse}
    (hp : ∀ index, Entries.Fits start ((definition, index) :: entries) →
      (supervision.pacing start).Related (p ((definition, index) :: entries)) p') :
    (supervision.pacing start).Related (supervision.entering entries definition p) p' := by
  intro place place' hplace
  cases hplace with
  | @stream slot s s' hstreams =>
    simp only [entering, Place.index, ofExcept_ok_bind]
    by_cases hrefused :
        (entries.any fun entry ↦ entry.1 == definition && decide (s.index ≤ entry.2)) = true
    · rw [if_pos hrefused]
      exact runs_pardoned rfl _
    · rw [if_neg hrefused]
      have hnew : (definition, s.index) ∉ entries := fun hmem ↦
        hrefused (List.any_eq_true.mpr ⟨_, hmem, by simp⟩)
      refine hp s.index ⟨List.nodup_cons.mpr ⟨hnew, hentries.nodup⟩, ?_⟩ (.stream slot hstreams)
      exact List.forall_mem_cons.mpr ⟨hstreams.2.index_le, hentries.index_mem⟩

/-! ### Depth -/

/-- A grammar met during a parse, of a layer below a height, with a depth that suffices for it: a
stretch of references through all layers for each entry that can still follow, and the references
that the grammar can follow before the next one. -/
structure Ready (layer : String → Nat) (height : Nat) (start : Stream) (depth : Nat)
    (entries : Entries n) (scope : Scope) (low : Nat) (p : Grammar) : Prop where
  fits : entries.Fits start
  scope_built : scope.Everywhere (Grammar.BuiltOn layer height)
  low_le : low ≤ height
  built : p.Everywhere (Grammar.BuiltOn layer low)
  depth_lt : n * (start.remaining.toNat + 1) * (height + 1) + low <
    depth + entries.length * (height + 1)

variable {layer : String → Nat} {height low depth : Nat} {entries : Entries n} {scope : Scope}
  {p q : Grammar} {definitions : Definitions}

/-- There is some depth left, as there are no more entries than there can be. -/
theorem Ready.depth_pos (h : Ready layer height start depth entries scope low p) : 0 < depth := by
  have hlength := Nat.mul_le_mul_right (height + 1) h.fits.length_le
  have hdepth := h.depth_lt
  omega

/-- A part of a grammar follows no more references than the whole. -/
theorem Ready.part (h : Ready layer height start depth entries scope low p) (hq : q.IsPart p) :
    Ready layer height start depth entries scope low q where
  fits := h.fits
  scope_built := h.scope_built
  low_le := h.low_le
  built := (Grammar.passesDown_everywhere _).part h.built hq
  depth_lt := h.depth_lt

/-- A shared parser is of a lower layer. -/
theorem Ready.shared (h : Ready layer height start (depth + 1) entries scope low p) {lower : Nat}
    (hlower : lower < low) (hq : q.Everywhere (Grammar.BuiltOn layer lower)) (name : String) :
    Ready layer height start depth entries (.shared name) lower q where
  fits := h.fits
  scope_built := trivial
  low_le := Nat.le_of_lt (Nat.lt_of_lt_of_le hlower h.low_le)
  built := hq
  depth_lt := by
    have hdepth := h.depth_lt
    omega

/-- An entry makes room for a stretch of references through all layers. -/
theorem Ready.entered (h : Ready layer height start (depth + 1) entries scope low p)
    {entry : Fin n × Nat} (hentry : Entries.Fits start (entry :: entries)) {inner : Scope}
    (hinner : inner.Everywhere (Grammar.BuiltOn layer height))
    (hq : q.Everywhere (Grammar.BuiltOn layer height)) :
    Ready layer height start depth (entry :: entries) inner height q where
  fits := hentry
  scope_built := hinner
  low_le := Nat.le_refl _
  built := hq
  depth_lt := by
    have hdepth := h.depth_lt
    rw [List.length_cons, Nat.succ_mul]
    omega

/-! ### Grammars -/

/-- Layered definitions are built on layers below the height. -/
theorem everywhere_of_layered (hdefinitions : definitions.Layered layer height) :
    definitions.Everywhere (Grammar.BuiltOn layer height) := by
  intro name q hget
  obtain ⟨hlayer, hq⟩ := hdefinitions name q hget
  exact hq.mono (Grammar.BuiltOn.mono (Nat.le_of_lt hlayer))

section Reading

variable {enter : Entries n → Scope → Grammar → Parse} {enter' : Scope → Grammar → Parse}

/-- A cell under supervision does what is behind it, unless it is refused. -/
theorem related_entered (hdefinitions : definitions.Layered layer height)
    (henter : ∀ entries scope low q, Ready layer height start depth entries scope low q →
      (supervision.pacing start).Related (enter entries scope q) (enter' scope q))
    (h : Ready layer height start (depth + 1) entries scope low p) (cell : Closure)
    (hscope : cell.scope.Everywhere (Grammar.BuiltOn layer height))
    (hcell : cell.grammar.Everywhere (Grammar.BuiltOn layer height)) :
    (supervision.pacing start).Related (supervision.entered definitions enter entries cell)
      (match definitions.behind cell.scope cell.grammar with
        | .ok inside => enter' inside.scope inside.grammar
        | .error fault => Parse.raise fault) := by
  unfold entered
  cases hbehind : definitions.behind cell.scope cell.grammar with
  | error fault => exact related_raise fault
  | ok inside =>
    obtain ⟨hinner, hinside⟩ := Definitions.everywhere_behind
      (everywhere_of_layered hdefinitions) hscope hcell hbehind
    exact related_entering h.fits fun index hentry ↦
      henter _ _ _ _ (h.entered hentry hinner hinside)

/-- Under supervision a grammar does what it means, unless it is refused, when that is so of
whatever it refers to. Assumes: the repetitions of what it means need no more rounds than they are
given. -/
theorem related_reading {repetition : Repetition}
    (hrepetition : (supervision.pacing start).Repetitions supervision.repeating repetition)
    (hdefinitions : definitions.Layered layer height)
    (henter : ∀ entries scope low q, Ready layer height start depth entries scope low q →
      (supervision.pacing start).Related (enter entries scope q) (enter' scope q))
    (h : Ready layer height start (depth + 1) entries scope low p) :
    (supervision.pacing start).Related
      (p.read (supervision.reading definitions enter) (entries, scope))
      (p.read (Grammar.plain definitions enter' (.going repetition)) scope) := by
  have hpasses (env : Entries n × Scope) (scope : Scope) :
      Grammar.PassesDown (Grammar.BuiltOn layer height) fun q ↦
        env.2 = scope ∧ ∃ low, Ready layer height start (depth + 1) env.1 scope low q :=
    { allows := fun {q} ⟨_, low, h⟩ ↦ Grammar.BuiltOn.mono h.low_le q
        ((Grammar.passesDown_everywhere _).allows h.built)
      part := fun ⟨hscope, low, h⟩ hq ↦ ⟨hscope, low, h.part hq⟩ }
  intro place place' hplace
  refine (Grammar.structural_read (supervision.reading definitions enter)).relates
    (Grammar.structural_read (Grammar.plain definitions enter' (.going repetition)))
    (preserved (fun pattern _ ↦ related_regex And.left pattern) fun _ h ↦ h.elim)
    (preserve hrepetition fun _ observe _ ↦ indifferent_of_eq And.left observe) hpasses ?_ ?_ ?_ p
    (entries, scope) scope ⟨rfl, low, h⟩ hplace
  · rintro ⟨entries, scope⟩ _ q hq ⟨rfl, low, h⟩
    have hcell : q.Everywhere (Grammar.BuiltOn layer height) :=
      h.built.mono (Grammar.BuiltOn.mono h.low_le)
    intro place place' hplace
    cases q with
    | use name =>
      simp only [Grammar.read, reading, Grammar.plain, Definitions.behind]
      cases hget : definitions.get name with
      | error fault => exact related_raise fault hplace
      | ok q => exact henter _ _ _ _ (h.shared h.built (hdefinitions name q hget).2 name) hplace
    | var name =>
      simp only [Grammar.read, reading, Grammar.plain, Definitions.behind]
      cases hlookup : scope.lookup name with
      | none => exact related_raise _ hplace
      | some cell =>
        obtain ⟨houter, hfix⟩ := Scope.everywhere_lookup h.scope_built hlookup
        obtain ⟨outer, tag, own, body, rfl⟩ := Scope.lookup_eq_fix hlookup
        exact related_entered hdefinitions henter h ⟨outer, .fix tag own body⟩ houter hfix hplace
    | lazy _ _ | lazyShared _ _ | fix _ _ _ | unbuildable _ _ _ =>
      exact related_entered hdefinitions henter h ⟨scope, _⟩ h.scope_built hcell hplace
    | _ => exact hq.elim
  · rintro ⟨entries, scope⟩ _ q ⟨rfl, low, h⟩ ih
    exact ih _ _ ⟨rfl, low, h.part rfl⟩
  · exact fun _ ih ↦ ih

end Reading

/-- Under supervision a grammar does what it does without, unless it is refused. -/
theorem related_paced (hdefinitions : definitions.Layered layer height) {spare : Nat}
    (hspare : start.remaining.toNat + 1 ≤ spare) (depth : Nat) :
    ∀ entries scope low p, Ready layer height start depth entries scope low p →
      (supervision.pacing start).Related (supervision.paced definitions depth entries scope p)
        (p.eval definitions (depth + spare) scope) := by
  induction depth with
  | zero => exact fun _ _ _ _ h ↦ absurd h.depth_pos (Nat.lt_irrefl 0)
  | succ depth ih =>
    intro entries scope low p h
    have hrounds : start.remaining.toNat + 1 ≤ depth + spare + 1 := by omega
    rw [Nat.succ_add, Grammar.eval, Grammar.meaning, Loops.within_eq]
    intro place place' hplace
    exact related_reading (repetitions_repeating hrounds) hdefinitions ih h hplace

/-- That is so too when no repetition is given more attempts than under supervision. -/
theorem related_paced_sparing (hdefinitions : definitions.Layered layer height) (depth : Nat) :
    ∀ entries scope low p, Ready layer height start depth entries scope low p →
      (supervision.pacing start).Related (supervision.paced definitions depth entries scope p)
        (p.evalSparingly definitions depth scope) := by
  induction depth with
  | zero => exact fun _ _ _ _ h ↦ absurd h.depth_pos (Nat.lt_irrefl 0)
  | succ depth ih =>
    intro entries scope low p h
    exact related_reading repetitions_sparing hdefinitions ih h

/-- At the start there is depth enough. -/
theorem ready_start (hp : p.Everywhere (Grammar.BuiltOn layer height)) (start : Stream) :
    Ready layer height start (start.openReferences n height) ([] : Entries n) .top height p where
  fits := Entries.fits_nil start
  scope_built := trivial
  low_le := Nat.le_refl _
  built := hp
  depth_lt := by
    rw [Stream.openReferences]
    simp only [List.length_nil]
    omega

/-- A parse that is not refused under supervision comes to the same end without it. -/
theorem agree_of_ends {paced other : Outcome Reply} {messages : List Message}
    (hends : (supervision.pacing start).Ends messages messages
      (Reply.Related (supervision.pacing start).streams) paced other)
    (hguarded : ∀ final, paced ≠ .faulted supervision.refusal final) :
    other.result? ≠ none ∧ other.result? = paced.result? ∧ other.messages = paced.messages := by
  have hpardons : ∀ fault final, paced = .faulted fault final →
      ¬(supervision.pacing start).pardons fault := by
    rintro fault final hpaced rfl
    exact hguarded final hpaced
  have hresult : other.result? = paced.result? :=
    (hends.result?_eq (fun _ _ hreply ↦ hreply.eq And.left) hpardons).symm
  refine ⟨hresult ▸ hends.result?_ne_none id, hresult, ?_⟩
  rcases hends.messages_related hpardons with ⟨hpaced, hother⟩ |
    ⟨added, added', hmessages, hpaced, hother⟩
  · rw [hpaced, hother]
  · rw [hpaced, hother, show added = added' from hmessages]

end Supervision

namespace Grammar

/-- A guarded parse ends, on every stream and within a bound that depends on what is left of the
input. It ends in the same way under supervision, and when each repetition is given no more attempts
than one for each element left, and one more. Assumes: a grammar and definitions in layers, without
parse functions written by hand; a supervision of finitely many definitions that refuses nothing,
which is to say that every round of a repetition that succeeds gets on, and that no definition is
entered again where an entry to it is running that has not been left behind. -/
theorem guarded_ends {n : Nat} (supervision : Supervision n) {definitions : Definitions}
    {p : Grammar} {layer : String → Nat} {height : Nat} (hp : p.Everywhere (BuiltOn layer height))
    (hdefinitions : definitions.Layered layer height) (slot : Option Nat) (start : Stream)
    (journal : Journal)
    (hguarded : ∀ depth final, supervision.paced definitions depth [] .top p (.stream slot start)
      journal ≠ .faulted supervision.refusal final)
    {bound : Nat} (hbound : start.openReferences n height + start.remaining.toNat + 1 ≤ bound) :
    let plain := p.eval definitions bound .top (.stream slot start) journal
    let paced := supervision.paced definitions (start.openReferences n height) [] .top p
      (.stream slot start) journal
    let sparing := p.evalSparingly definitions (start.openReferences n height) .top
      (.stream slot start) journal
    plain.result? ≠ none ∧ plain.result? = paced.result? ∧ plain.messages = paced.messages ∧
      plain.result? = sparing.result? ∧ plain.messages = sparing.messages := by
  intro plain paced sparing
  have hdepth : start.openReferences n height ≤ bound := by omega
  obtain ⟨rounds, rfl⟩ := Nat.exists_eq_add_of_le hdepth
  have hready := Supervision.ready_start hp (n := n) start
  have hplace : (Place.stream slot start).Related (supervision.pacing start).streams
      (.stream slot start) :=
    .stream slot ⟨rfl, start.reaches_refl⟩
  have hplain : (supervision.pacing start).Ends journal.log.toList journal.log.toList
      (Reply.Related (supervision.pacing start).streams) paced plain :=
    Supervision.related_paced hdefinitions (by omega) _ [] .top height p hready hplace journal
      journal
  have hsparing : (supervision.pacing start).Ends journal.log.toList journal.log.toList
      (Reply.Related (supervision.pacing start).streams) paced sparing :=
    Supervision.related_paced_sparing hdefinitions _ [] .top height p hready hplace journal journal
  obtain ⟨hends, hresult, hmessages⟩ := Supervision.agree_of_ends hplain (hguarded _)
  obtain ⟨-, hresult', hmessages'⟩ := Supervision.agree_of_ends hsparing (hguarded _)
  exact ⟨hends, hresult, hmessages, hresult.trans hresult'.symm, hmessages.trans hmessages'.symm⟩

/-- Brackets in brackets: a one opens and a zero closes. -/
def brackets : Definitions :=
  ⟨fun _ ↦ .ok (many (mid (char (.int 1)) (lazyShared 0 "brackets") (char (.int 0))))⟩

/-- One definition, and a fault that nothing else raises. -/
def oneDefinition : Supervision 1 :=
  ⟨fun _ _ ↦ 0, .negativeLength⟩

/-- Brackets contain brackets, in a loop and by recursion, and both get on: a pair of brackets is
read as a list of nothing within a list. -/
theorem guarded_ends_brackets :
    ((use "brackets").eval brackets 12 .top
      (.stream none (.start (.tokens (.list #[.int 1, .int 0]) .row))) .empty).result? =
        some (.ok (.success (.fresh ⟨.tokens (.list #[.int 1, .int 0]) .row, 2, ⟨2, 0⟩⟩)
          (.list [.list []]))) := by
  have huse : (use "brackets").Everywhere (BuiltOn (fun _ ↦ 0) 1) := Nat.zero_lt_one
  have hlayered : brackets.Layered (fun _ ↦ 0) 1 := by
    rintro name p ⟨⟩
    exact ⟨Nat.zero_lt_one, trivial, trivial, trivial, trivial, trivial⟩
  have hguarded : ∀ depth final, oneDefinition.paced brackets depth [] .top (use "brackets")
      (.stream none (.start (.tokens (.list #[.int 1, .int 0]) .row))) .empty ≠
        .faulted oneDefinition.refusal final := by
    intro depth final h
    match depth with
    | 0 => exact nomatch h
    | 1 => exact nomatch h
    | 2 => exact nomatch h
    | depth + 3 => exact nomatch h
  obtain ⟨-, hresult, -, -, -⟩ := guarded_ends oneDefinition huse hlayered none
    (.start (.tokens (.list #[.int 1, .int 0]) .row)) .empty hguarded (Nat.le_refl 12)
  rw [hresult]
  rfl

end Grammar

end DiagnosticParsing
