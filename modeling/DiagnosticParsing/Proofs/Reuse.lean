import DiagnosticParsing.Grammar.Characters
import DiagnosticParsing.Proofs.Endings
import DiagnosticParsing.Proofs.Labels
import DiagnosticParsing.Proofs.ProperReplies
import DiagnosticParsing.Proofs.References
import DiagnosticParsing.Report

/-!
# Reuse of parsers

A run builds the cells that it enters, and what they hold then decides which way the next run takes:
a cell that has been built goes on with the parse function that it has taken over, past the cells
that lay between. `Grammar.meaning` knows nothing of this. A run is compared with it bound by bound
(`World.mirrors_exec`). So every run ends as the grammar means (`Grammar.ending?_runWithin`), and
what is known of the ends to which grammars come is known of runs (`Grammar.EndsWith.runWithin`).
What the runs before it built, failed on or raised makes no difference (`Report.answers_ofRuns`).

What carries the comparison is an invariant of the memory. A closure *leads* to another one through
a number of references when the two mean the same, the second within a bound that is smaller by that
number (`Closure.Leads`). A memory is *coherent* when every cell that has been built leads to the
parser and to the parse function that it holds (`Memory.Coherent`). Building a cell keeps this
(`Memory.Coherent.building`), because the cell is the only one at its address.
-/

set_option autoImplicit false

namespace DiagnosticParsing

variable {nodes : Nat → Grammar} {definitions : Definitions}

/-! ### What closures lead to -/

/-- What a closure means within a bound. Stamps do not matter for that. -/
def Closure.means (definitions : Definitions) (bound : Nat) (closure : Closure) : Parse :=
  closure.grammar.eval definitions bound closure.scope.unstamped

/-- A closure means what another one means behind a number of references. -/
def Closure.Leads (definitions : Definitions) (closure : Closure) (distance : Nat)
    (found : Closure) : Prop :=
  ∀ bound, closure.means definitions bound = found.means definitions (bound - distance)

namespace Closure

theorem leads_self (closure : Closure) : closure.Leads definitions 0 closure :=
  fun _ ↦ rfl

theorem Leads.trans {first middle last : Closure} {distance further : Nat}
    (hfirst : first.Leads definitions distance middle)
    (hlast : middle.Leads definitions further last) :
    first.Leads definitions (distance + further) last := by
  intro bound
  rw [hfirst, hlast, Nat.sub_sub]

/-- What a reference means is left to what stands behind it. -/
theorem means_reference {reference : Closure} (hreference : reference.grammar.IsReference)
    (bound : Nat) :
    reference.means definitions (bound + 1) =
      match definitions.behind reference.scope reference.grammar with
      | .ok found => found.means definitions bound
      | .error fault => Parse.raise fault := by
  have hbehind := definitions.behind_unstamped reference.scope reference.grammar
  rw [means, Grammar.eval, Grammar.meaning, Grammar.read_reference _ _ hreference]
  simp only [Grammar.plain, hbehind]
  cases definitions.behind reference.scope reference.grammar <;> rfl

/-- A reference leads to what stands behind it. -/
theorem leads_behind {reference found : Closure} (hreference : reference.grammar.IsReference)
    (hbehind : definitions.behind reference.scope reference.grammar = .ok found) :
    reference.Leads definitions 1 found := by
  intro bound
  cases bound with
  | zero => rfl
  | succ bound => rw [means_reference hreference, hbehind, Nat.add_sub_cancel]

/-- A variable leads to its cell, and no reference has been passed then. -/
theorem leads_lookup {scope : Scope} {name : String} {cell : Closure}
    (hlookup : scope.lookup name = some cell) : Leads definitions ⟨scope, .var name⟩ 0 cell := by
  have hunstamped : scope.unstamped.lookup name = some cell.unstamped := by
    rw [scope.lookup_unstamped, hlookup]
    rfl
  exact fun bound ↦ Grammar.eval_var hunstamped

/-- A chain of names leads to the parser for which it stands. -/
theorem leads_object (fuel : Nat) (parser : Closure) :
    parser.Leads definitions (definitions.object fuel parser).2
      (definitions.object fuel parser).1 := by
  refine Definitions.object_relates (Leads definitions) leads_self
    (fun {scope name p n found} hget hfound ↦ ?_) leads_lookup fuel parser
  have hbehind : definitions.behind scope (.use name) = .ok ⟨.shared name, p⟩ := by
    rw [Definitions.behind, hget]
    rfl
  have hleads : Leads definitions ⟨scope, .use name⟩ 1 ⟨.shared name, p⟩ :=
    leads_behind trivial hbehind
  rw [Nat.add_comm]
  exact hleads.trans hfound

/-- The copy of a parse function means what the parser means. -/
theorem leads_copied (closure : Closure) :
    closure.Leads definitions 0 ⟨closure.scope, .copied closure.grammar⟩ := by
  intro bound
  cases bound <;> rfl

end Closure

/-! ### Coherent memories -/

/-- What the cells hold is labelled, and every cell that has been built leads to what it holds. -/
structure Memory.Coherent (nodes : Nat → Grammar) (definitions : Definitions) (memory : Memory) :
    Prop where
  labelled : memory.All (Closure.Labelled nodes)
  leads : ∀ {cell : Closure} {label : Nat} {name : String} {built : Built},
    cell.Labelled nodes → cell.grammar.cell? = some (label, name) →
    memory.find? (cell.scope.cell label) = some built →
    cell.Leads definitions 1 built.parser ∧ cell.Leads definitions (built.distance + 1) built.entry

namespace Memory

theorem coherent_empty : (∅ : Memory).Coherent nodes definitions where
  labelled := all_empty
  leads := by
    intro cell label name built hcell hlabel hfind
    rw [find?_empty] at hfind
    exact nomatch hfind

variable {memory : Memory} {fuel label : Nat} {name : String} {cell parser : Closure}

theorem Coherent.stamped (h : memory.Coherent nodes definitions) :
    memory.stamped.Coherent nodes definitions :=
  ⟨h.labelled, h.leads⟩

/-- A parser leads to the parse function that it has. -/
theorem Coherent.leads_now (h : memory.Coherent nodes definitions)
    (hdefinitions : definitions.Everywhere (Grammar.OwnsLabel nodes))
    (hparser : parser.Labelled nodes) :
    parser.Leads definitions (definitions.world.now fuel memory parser).2
      (definitions.world.now fuel memory parser).1 := by
  have hobject : parser.Leads definitions (definitions.object fuel parser).2
      (definitions.object fuel parser).1 := Closure.leads_object fuel parser
  have hlabelled := hparser.object hdefinitions fuel
  cases hcell : (definitions.object fuel parser).1.grammar.cell? with
  | none =>
    rw [World.now_of_noCell hcell]
    exact hobject
  | some cell =>
    obtain ⟨label, name⟩ := cell
    cases hfind : memory.find? ((definitions.object fuel parser).1.scope.cell label) with
    | some built =>
      rw [World.now_of_built hcell hfind]
      exact hobject.trans (h.leads hlabelled hcell hfind).2
    | none =>
      rw [World.now_of_unbuilt hcell hfind]
      exact hobject.trans (Closure.leads_copied _)

/-- Building a cell keeps a memory coherent. -/
theorem Coherent.building (h : memory.Coherent nodes definitions)
    (hdefinitions : definitions.Everywhere (Grammar.OwnsLabel nodes))
    (hcell : cell.Labelled nodes) (hlabel : cell.grammar.cell? = some (label, name))
    (hparser : parser.Labelled nodes) (hleads : cell.Leads definitions 1 parser) :
    (definitions.world.building fuel memory (cell.scope.cell label) parser).Coherent nodes
      definitions where
  labelled := h.labelled.store _ hparser
    ((World.closed_labelled hdefinitions).now h.labelled hparser)
  leads := by
    intro other label' name' built hother hlabel' hfind
    by_cases haddress : other.scope.cell label' = cell.scope.cell label
    · -- No other labelled cell has the address.
      obtain rfl := hother.eq_of_cell hcell hlabel' hlabel haddress
      rw [haddress, World.building, find?_store_self] at hfind
      obtain rfl := Option.some.inj hfind
      refine ⟨hleads, ?_⟩
      rw [Nat.add_comm]
      exact hleads.trans (h.leads_now hdefinitions hparser)
    · rw [World.building, find?_store_of_ne memory _ haddress] at hfind
      exact h.leads hother hlabel' hfind

end Memory

/-- What comes of entering a cell. -/
theorem World.Enters.leads (hdefinitions : definitions.Everywhere (Grammar.OwnsLabel nodes))
    {fuel label : Nat} {name : String} {cell : Closure} {journal final : Journal}
    {found : Closure × Nat}
    (henters : definitions.world.Enters fuel cell label name journal (.done found final))
    (hlabel : cell.grammar.cell? = some (label, name)) (hcell : cell.Labelled nodes)
    (hmemory : journal.memory.Coherent nodes definitions) :
    final.log = journal.log ∧ final.memory.Coherent nodes definitions ∧
      found.1.Labelled nodes ∧ cell.Leads definitions (found.2 + 1) found.1 := by
  have hclosed := closed_labelled hdefinitions
  have hfound := (henters.keeps hclosed hlabel hcell hmemory.labelled).1
  cases henters with
  | @held built found hbuilt hheld =>
    obtain ⟨hparser, hentry⟩ := hmemory.leads hcell hlabel hbuilt
    refine ⟨rfl, hmemory, hfound, ?_⟩
    rcases hheld with rfl | rfl
    · exact hentry
    · rw [Nat.add_comm]
      exact hparser.trans (hmemory.leads_now hdefinitions (hmemory.labelled _ built hbuilt).1)
  | @built p memory hunbuilt hreturned hbuilding =>
    have hparser := hclosed.returned hlabel hcell hreturned
    have hbehind : definitions.behind cell.scope cell.grammar =
        .ok ⟨cell.scope.inside cell.grammar, p⟩ := by
      rw [← definitions.deferred_world hlabel, hreturned]
      rfl
    have hleads := Closure.leads_behind (Grammar.isReference_of_cell hlabel) hbehind
    have hbuilt := hbuilding ▸ hmemory.building hdefinitions hcell hlabel hparser hleads
    refine ⟨rfl, hbuilt, hfound, ?_⟩
    rw [Nat.add_comm]
    exact hleads.trans (hbuilt.leads_now hdefinitions hparser)

/-! ### Runs that mirror others -/

section Mirrors

variable {α β : Type} {good : Memory → Prop}

/-- The memory that an outcome leaves is good. -/
def Outcome.Leaves (good : Memory → Prop) : Outcome α → Prop
  | .done _ final => good final.memory
  | .faulted _ final => good final.memory
  | .unfinished => True

/-- As long as the memory is good, the run ends like the other one, and leaves a good memory. -/
def Run.Mirrors (good : Memory → Prop) ⦃α : Type⦄ (run other : Run α) : Prop :=
  ∀ journal journal' : Journal, journal.log = journal'.log → good journal.memory →
    (run journal).ending? = (other journal').ending? ∧ (run journal).Leaves good

namespace Run

/-- A step that always ends with a result and leaves the memory as it is. -/
theorem mirrors_step {result : Journal → α} {step : Journal → Journal}
    (hresult : ∀ journal journal' : Journal, journal.log = journal'.log →
      result journal = result journal')
    (hstep : ∀ journal journal' : Journal, journal.log = journal'.log →
      (step journal).log = (step journal').log)
    (hmemory : ∀ journal : Journal, (step journal).memory = journal.memory) :
    Mirrors good (fun journal ↦ .done (result journal) (step journal)) fun journal ↦
      .done (result journal) (step journal) := by
  intro journal journal' hlog hgood
  simp only [Outcome.ending?, Outcome.Leaves, hresult journal journal' hlog,
    hstep journal journal' hlog, hmemory]
  exact ⟨trivial, hgood⟩

theorem mirrors_fault (f : Fault) : Mirrors good (fault f : Run α) (fault f) := by
  intro journal journal' hlog hgood
  simp only [fault, Outcome.ending?, Outcome.Leaves, hlog]
  exact ⟨trivial, hgood⟩

theorem mirrors_ofCall (call : Call α) : Mirrors good (ofCall call) (ofCall call) := by
  intro journal journal' hlog hgood
  unfold ofCall
  cases call.outcome <;>
    simpa only [Outcome.ending?, Outcome.Leaves, Journal.noteAll, hlog, true_and] using hgood

theorem Mirrors.bind {run other : Run α} {next next' : α → Run β} (hrun : Mirrors good run other)
    (hnext : ∀ a, Mirrors good (next a) (next' a)) :
    Mirrors good (run >>= next) (other >>= next') := by
  intro journal journal' hlog hgood
  obtain ⟨hending, hleaves⟩ := hrun journal journal' hlog hgood
  rw [bind_apply, bind_apply]
  cases hfirst : run journal with
  | done a final =>
    rw [hfirst] at hending hleaves
    obtain ⟨final', hsecond, hfinal⟩ := Outcome.ending?_eq_ok.mp hending.symm
    rw [hsecond]
    exact hnext a final final' hfinal.symm hleaves
  | faulted fault final =>
    rw [hfirst] at hending hleaves
    obtain ⟨final', hsecond, hfinal⟩ := Outcome.ending?_eq_error.mp hending.symm
    rw [hsecond]
    exact ⟨by simp only [Outcome.ending?, hfinal], hleaves⟩
  | unfinished =>
    rw [hfirst] at hending
    cases hsecond : other journal' with
    | unfinished => exact ⟨rfl, trivial⟩
    | _ => simp [Outcome.ending?, hsecond] at hending

/-- Mirroring is a congruence. -/
theorem mirrors_congruence (good : Memory → Prop) :
    Congruence (fun _ ↦ True) (Mirrors good) where
  result := fun _ ↦ mirrors_step (fun _ _ _ ↦ rfl) (fun _ _ hlog ↦ hlog) fun _ ↦ rfl
  fault := mirrors_fault
  unfinished := fun _ _ _ _ ↦ ⟨rfl, trivial⟩
  sequence := Mirrors.bind
  call := fun call _ ↦ mirrors_ofCall call
  attempt := fun _ _ ↦ mirrors_step (fun _ _ _ ↦ rfl) (fun _ _ hlog ↦ hlog) fun _ ↦ rfl
  mark := mirrors_step (fun _ _ hlog ↦ congrArg Log.mark hlog) (fun _ _ hlog ↦ hlog) fun _ ↦ rfl
  rollback := fun mark ↦ mirrors_step (fun _ _ _ ↦ rfl)
    (fun _ _ hlog ↦ congrArg (Log.rollback · mark) hlog) fun _ ↦ rfl
  complain := fun message ↦ mirrors_step (fun _ _ _ ↦ rfl)
    (fun _ _ hlog ↦ congrArg (Log.add · message) hlog) fun _ ↦ rfl
  note := fun _ _ ↦ mirrors_step (fun _ _ _ ↦ rfl) (fun _ _ hlog ↦ hlog) fun _ ↦ rfl

end Run

/-- The runs of a parser mirror those of another one at every place. -/
abbrev Parse.Mirrors (good : Memory → Prop) (p other : Parse) : Prop :=
  p.Related (Run.Mirrors good) other

end Mirrors

/-! ### Runs of grammars -/

namespace World

section Cells

variable {bound fuel passed label : Nat} {name : String} {cell : Closure}
  {found : Run (Closure × Nat)}

/-- A cell that is entered goes on with what it means, be it built before, now, or not at all. -/
theorem mirrors_goOn (hdefinitions : definitions.Everywhere (Grammar.OwnsLabel nodes))
    (hpassed : passed ≤ bound)
    (hfound : found = definitions.world.visit fuel cell label name ∨
      found = definitions.world.first fuel cell label name)
    (hlabel : cell.grammar.cell? = some (label, name)) (hcell : cell.Labelled nodes)
    (henter : ∀ depth ≤ bound, ∀ closure : Closure, closure.Labelled nodes →
      Parse.Mirrors (Memory.Coherent nodes definitions) (definitions.world.exec depth 0 closure)
        (closure.means definitions depth)) :
    Parse.Mirrors (Memory.Coherent nodes definitions)
      (goOn found fun further ↦ definitions.world.exec bound (passed + further))
      (cell.means definitions (bound + 1 - passed)) := by
  intro place journal journal' hlog hmemory
  have henters := definitions.world.enters_of_eq hfound journal
  rw [goOn, Run.bind_apply]
  cases hrun : found journal with
  | done result final =>
    rw [hrun] at henters
    obtain ⟨hfinal, hcoherent, hentry, hleads⟩ := henters.leads hdefinitions hlabel hcell hmemory
    have hmirrors := henter (bound - (passed + result.2)) (Nat.sub_le _ _) result.1 hentry place
      final journal' (hfinal.trans hlog) hcoherent
    rw [← exec_eq] at hmirrors
    rw [hleads, show bound + 1 - passed - (result.2 + 1) = bound - (passed + result.2) by omega]
    exact hmirrors
  | faulted fault final =>
    rw [hrun] at henters
    cases henters with
    | refused hunbuilt hraised =>
      have hbehind : definitions.behind cell.scope cell.grammar = .error fault := by
        rw [← definitions.deferred_world hlabel, hraised]
        rfl
      rw [Nat.succ_sub hpassed, Closure.means_reference (Grammar.isReference_of_cell hlabel),
        hbehind]
      exact ⟨by simp only [Parse.raise, Run.fault, Outcome.ending?, Journal.noteAll, hlog], hmemory⟩
  | unfinished =>
    rw [hrun] at henters
    cases henters

end Cells

section Remembering

variable {bound : Nat} {scope : Scope} {p : Grammar}

/-- A reference goes on with what stands behind it, past the cells that have been built. -/
theorem mirrors_reference (hdefinitions : definitions.Everywhere (Grammar.OwnsLabel nodes))
    (henter : ∀ depth ≤ bound, ∀ closure : Closure, closure.Labelled nodes →
      Parse.Mirrors (Memory.Coherent nodes definitions) (definitions.world.exec depth 0 closure)
        (closure.means definitions depth))
    (hreference : p.IsReference) (hp : Closure.Labelled nodes ⟨scope, p⟩) :
    Parse.Mirrors (Memory.Coherent nodes definitions)
      ((definitions.world.remembering (definitions.world.exec bound) bound).refer scope p)
      (Closure.means definitions (bound + 1) ⟨scope, p⟩) := by
  have congruence := Run.mirrors_congruence (Memory.Coherent nodes definitions)
  have hrun {cell : Closure} {label : Nat} {name : String}
      (hlabel : cell.grammar.cell? = some (label, name)) (hcell : cell.Labelled nodes) :
      Parse.Mirrors (Memory.Coherent nodes definitions)
        (remembering.run definitions.world (definitions.world.exec bound) bound cell)
        (cell.means definitions (bound + 1)) := by
    have hvisit : goOn (definitions.world.visit bound cell label name)
        (definitions.world.exec bound) =
          goOn (definitions.world.visit bound cell label name) fun further ↦
            definitions.world.exec bound (0 + further) := by
      simp only [Nat.zero_add]
    rw [run_cell _ _ _ hlabel, hvisit]
    exact mirrors_goOn hdefinitions (Nat.zero_le bound) (.inl rfl) hlabel hcell henter
  have hmeans : Closure.means definitions (bound + 1) ⟨scope, p⟩ = _ :=
    Closure.means_reference hreference bound
  cases p with
  | use name =>
    rw [hmeans]
    simp only [remembering, Definitions.behind, Definitions.world]
    cases hget : definitions.get name with
    | ok q =>
      exact henter bound (Nat.le_refl _) ⟨.shared name, q⟩ ⟨trivial, hdefinitions name q hget⟩
    | error fault => exact congruence.raise fault
  | var name =>
    cases hlookup : scope.lookup name with
    | none =>
      rw [hmeans]
      simp only [remembering, Definitions.behind, hlookup]
      exact congruence.raise _
    | some cell =>
      have hcell := hp.scope.lookup hlookup
      simp only [remembering, hlookup]
      rw [Closure.leads_lookup hlookup, Nat.sub_zero]
      obtain ⟨outer, tag, own, body, rfl⟩ := Scope.lookup_eq_fix hlookup
      exact hrun rfl hcell
  | lazy _ _ | lazyShared _ _ | fix _ _ _ | unbuildable _ _ _ => exact hrun rfl hp
  | _ => exact hreference.elim

/-- The copy of a parse function that enters a cell goes on like the parser. -/
theorem mirrors_copied (hdefinitions : definitions.Everywhere (Grammar.OwnsLabel nodes))
    (henter : ∀ depth ≤ bound, ∀ closure : Closure, closure.Labelled nodes →
      Parse.Mirrors (Memory.Coherent nodes definitions) (definitions.world.exec depth 0 closure)
        (closure.means definitions depth))
    (hp : Closure.Labelled nodes ⟨scope, p⟩) {parse : Parse}
    (hparse : Parse.Mirrors (Memory.Coherent nodes definitions) parse
      (Closure.means definitions (bound + 1) ⟨scope, p⟩)) :
    Parse.Mirrors (Memory.Coherent nodes definitions)
      ((definitions.world.remembering (definitions.world.exec bound) bound).copied scope p parse)
      (Closure.means definitions (bound + 1) ⟨scope, p⟩) := by
  have hobject := hp.object hdefinitions bound
  cases hcell : (definitions.object bound ⟨scope, p⟩).1.grammar.cell? with
  | none =>
    rw [definitions.world.copied_of_noCell _ _ _ hcell]
    exact hparse
  | some label =>
    rw [definitions.world.copied_of_cell _ _ _ hcell, Closure.leads_object bound]
    exact mirrors_goOn hdefinitions (definitions.object_le bound _) (.inr rfl) hcell hobject henter

end Remembering

/-- Within every bound, a run ends as the grammar means, and leaves a coherent memory. -/
theorem mirrors_exec (hdefinitions : definitions.Everywhere (Grammar.OwnsLabel nodes))
    (bound : Nat) {closure : Closure} (hclosure : closure.Labelled nodes) :
    Parse.Mirrors (Memory.Coherent nodes definitions) (definitions.world.exec bound 0 closure)
      (closure.means definitions bound) := by
  have congruence := Run.mirrors_congruence (Memory.Coherent nodes definitions)
  induction bound using Nat.strongRecOn generalizing closure with
  | _ bound ih =>
    cases bound with
    | zero => exact fun _ ↦ congruence.unfinished
    | succ bound =>
      have henter (depth : Nat) (hdepth : depth ≤ bound) (closure : Closure)
          (hclosure : closure.Labelled nodes) := ih depth (Nat.lt_succ_of_le hdepth) hclosure
      have hfits (scope scope' : Scope) :
          Grammar.PassesDown (Grammar.ReportsOnly fun _ ↦ True) fun q ↦
            (scope' = scope.unstamped ∧ scope.Labelled nodes) ∧
              q.Everywhere (Grammar.OwnsLabel nodes) :=
        ⟨fun {q} _ ↦ q.reportsOnly_any,
          fun hq hpart ↦ ⟨hq.1, (Grammar.passesDown_everywhere _).part hq.2 hpart⟩⟩
      refine (Grammar.structural_read _).relates (Grammar.structural_read _) congruence.preserved
        (congruence.preserve (.inl rfl) congruence.trace_any) hfits ?_ ?_ ?_ closure.grammar
        closure.scope closure.scope.unstamped ⟨⟨rfl, hclosure.scope⟩, hclosure.grammar⟩
      · rintro scope _ q hq ⟨⟨rfl, hscope⟩, hlabelled⟩
        rw [Grammar.read_reference _ _ hq]
        exact mirrors_reference hdefinitions henter hq ⟨hscope, hlabelled⟩
      · rintro scope _ q ⟨⟨rfl, hscope⟩, hlabelled⟩ hparse place journal journal' hlog hmemory
        have hinner : (Scope.afresh journal.memory.stamps scope).Labelled nodes := hscope
        exact hparse (.afresh journal.memory.stamps scope) scope.unstamped
          ⟨⟨rfl, hinner⟩, hlabelled.2⟩ place (journal.remember journal.memory.stamped) journal' hlog
          hmemory.stamped
      · rintro scope _ q ⟨⟨rfl, hscope⟩, hlabelled⟩ hparse
        exact mirrors_copied hdefinitions henter ⟨hscope, hlabelled.2⟩ hparse

end World

namespace Grammar

variable {p : Grammar} {place : Place}

/-- A whole run mirrors what the grammar means. -/
theorem mirrors_runWithin (hdefinitions : definitions.Everywhere (OwnsLabel nodes))
    (hp : p.Everywhere (OwnsLabel nodes)) (bound : Nat) (place : Place) :
    Run.Mirrors (Memory.Coherent nodes definitions)
      (p.runWithin definitions.world bound place)
      (p.eval definitions bound .top place >>= fun reply ↦ Run.ofExcept reply.checked) := by
  have hclosure : Closure.Labelled nodes ⟨.top, p⟩ := ⟨trivial, hp⟩
  exact (World.mirrors_exec hdefinitions bound hclosure place).bind fun _ ↦
    (Run.mirrors_congruence _).ofExcept _

/-- A run ends as the grammar means, whatever has been built before. Assumes: each label stands for
one cell, and replies are proper. -/
theorem ending?_runWithin (hdefinitions : definitions.Everywhere (OwnsLabel nodes))
    (hp : p.Everywhere (OwnsLabel nodes)) (hproper : p.Proper definitions .top) (bound : Nat)
    (place : Place) {journal : Journal} (hmemory : journal.memory.Coherent nodes definitions) :
    (p.runWithin definitions.world bound place journal).ending? =
      (p.eval definitions bound .top place journal).ending? := by
  have hchecked : (p.eval definitions bound .top place >>= fun reply ↦ Run.ofExcept reply.checked) =
      p.eval definitions bound .top place := by
    refine ((hproper bound place).bind_congr fun reply hreply ↦ ?_).trans (bind_pure _)
    cases reply with
    | malformed v => exact hreply.elim
    | _ => rfl
  rw [(mirrors_runWithin hdefinitions hp bound place journal journal rfl hmemory).1, hchecked]

/-- The end to which a grammar comes is one to which its runs come. Assumes: each label stands for
one cell, and replies are proper. -/
theorem EndsWith.runWithin {log : Log} {ending : Except Fault Reply × Log}
    (h : p.EndsWith definitions .top place log ending)
    (hdefinitions : definitions.Everywhere (OwnsLabel nodes)) (hp : p.Everywhere (OwnsLabel nodes))
    (hproper : p.Proper definitions .top) :
    ∃ bound, ∀ journal : Journal, journal.log = log →
      journal.memory.Coherent nodes definitions →
        (p.runWithin definitions.world bound place journal).ending? = some ending := by
  obtain ⟨bound, hends⟩ := h
  refine ⟨bound, fun journal hlog hmemory ↦ ?_⟩
  rw [ending?_runWithin hdefinitions hp hproper bound place hmemory]
  exact hends journal hlog

end Grammar

namespace Report

/-- What a run answers: how it ended, and the log at the end. The notes are left out. -/
def answer (report : Report) : Ending × Log :=
  (report.ending, report.log)

/-- Outcomes with the same end make for the same answer. -/
theorem answer_ofOutcome {outcome outcome' : Outcome Reply} (log : Log) (memory memory' : Memory)
    (h : outcome.ending? = outcome'.ending?) :
    (ofOutcome log memory outcome).1.answer = (ofOutcome log memory' outcome').1.answer := by
  cases outcome with
  | done reply final =>
    obtain ⟨final', rfl, hlog⟩ := Outcome.ending?_eq_ok.mp h.symm
    simp only [ofOutcome, answer, hlog]
  | faulted fault final =>
    obtain ⟨final', rfl, hlog⟩ := Outcome.ending?_eq_error.mp h.symm
    simp only [ofOutcome, answer, hlog]
  | unfinished =>
    cases outcome' with
    | unfinished => rfl
    | _ => exact nomatch h

/-- The memory that a report is made with is kept if the run has left it so. -/
theorem leaves_ofOutcome {good : Memory → Prop} {outcome : Outcome Reply} {log : Log}
    {memory : Memory} (hmemory : good memory) (houtcome : outcome.Leaves good) :
    good (ofOutcome log memory outcome).2 := by
  cases outcome with
  | done reply final => exact houtcome
  | faulted fault final => exact houtcome
  | unfinished => exact hmemory

variable {p : Operand} {memory : Memory}

/-- From a coherent memory, one run answers what the parser means, and it leaves the memory
coherent. -/
theorem answer_ofRun (hdefinitions : definitions.Everywhere (Grammar.OwnsLabel nodes)) {q : Grammar}
    (hparser : p.asParser = .ok q) (hq : q.Everywhere (Grammar.OwnsLabel nodes))
    (hmemory : memory.Coherent nodes definitions) (place : Place) (log : Log) :
    (ofRun definitions p place log memory).1.answer =
        (ofOutcome log ∅ ((q.eval definitions Grammar.ampleBound .top place >>= fun reply ↦
          Run.ofExcept reply.checked) ⟨log, #[], ∅⟩)).1.answer ∧
      (ofRun definitions p place log memory).2.Coherent nodes definitions := by
  obtain ⟨hending, hleaves⟩ := Grammar.mirrors_runWithin hdefinitions hq Grammar.ampleBound place
    ⟨log, #[], memory⟩ ⟨log, #[], ∅⟩ rfl hmemory
  simp only [ofRun, ofRunWithin, hparser]
  exact ⟨answer_ofOutcome log memory ∅ hending, leaves_ofOutcome hmemory hleaves⟩

/-- The case of a series of runs, each of which starts with what the runs before it have built. -/
theorem answers_of_coherent (hdefinitions : definitions.Everywhere (Grammar.OwnsLabel nodes))
    (hp : ∀ q, p.asParser = .ok q → q.Everywhere (Grammar.OwnsLabel nodes))
    (hmemory : memory.Coherent nodes definitions) (streams : List Stream) :
    (ofRuns definitions p streams memory).map answer =
      streams.map fun stream ↦ (ofRun definitions p (.fresh stream) .empty ∅).1.answer := by
  induction streams generalizing memory with
  | nil => rfl
  | cons stream rest ih =>
    simp only [ofRuns, List.map_cons]
    cases hparser : p.asParser with
    | error fault =>
      have hrun (memory : Memory) :
          ofRun definitions p (.fresh stream) .empty memory = (ofFault fault .empty, memory) := by
        simp only [ofRun, ofRunWithin, hparser]
      rw [hrun memory, hrun ∅, ih hmemory]
    | ok q =>
      have hanswer {memory : Memory} (hmemory : memory.Coherent nodes definitions) :=
        answer_ofRun hdefinitions hparser (hp q hparser) hmemory (.fresh stream) .empty
      rw [(hanswer hmemory).1, (hanswer Memory.coherent_empty).1, ih (hanswer hmemory).2]

/-- Reuse of a parser is invisible. In a series of runs, each run answers what a copy of the parser
that has just been built answers on the same stream alone, whatever the runs before it built, failed
on or raised. Assumes: each label stands for one cell. -/
theorem answers_ofRuns (hdefinitions : definitions.Everywhere (Grammar.OwnsLabel nodes))
    (hp : ∀ q, p.asParser = .ok q → q.Everywhere (Grammar.OwnsLabel nodes))
    (streams : List Stream) :
    (ofRuns definitions p streams ∅).map answer =
      streams.map fun stream ↦ (ofRun definitions p (.fresh stream) .empty ∅).1.answer :=
  answers_of_coherent hdefinitions hp Memory.coherent_empty streams

/-- One name, which stands for a letter. -/
def letterA : Definitions :=
  ⟨fun name ↦ if name = "a" then .ok (.char (.text "a")) else .error (.missingKey (.text name))⟩

/-- The letter up to the end, from a copy of the parse function of its cell. On anything else a cell
is entered that cannot be built. -/
def letterOrFault : Grammar :=
  .either (.left (.copied (.lazy 0 "a")) .eof) (.unbuildable 1 "b" (.deferredNotParsable .null))

/-- The cells for which the labels of these parsers stand. -/
def letterNodes (label : Nat) : Grammar :=
  if label = 0 then .lazy 0 "a" else .unbuildable 1 "b" (.deferredNotParsable .null)

/-- The first run builds a cell, the second one enters it and raises, and the third one finds it
built. -/
theorem answers_ofRuns_letterOrFault :
    ((ofRuns letterA (.parser letterOrFault) [.ofText "a", .ofText "b", .ofText "a"] ∅).map
      answer).map Prod.fst =
        [.succeeded (.text "a") (.fresh ⟨(Stream.ofText "a").source, 1, ⟨0, 1⟩⟩),
          .faulted (.deferredNotParsable .null),
          .succeeded (.text "a") (.fresh ⟨(Stream.ofText "a").source, 1, ⟨0, 1⟩⟩)] := by
  have hdefinitions : letterA.Everywhere (Grammar.OwnsLabel letterNodes) := by
    intro name p hget
    simp only [letterA] at hget
    split at hget
    · obtain rfl := Except.ok.inj hget
      exact Grammar.ownsLabel_of_noCell rfl
    · exact nomatch hget
  have hp : letterOrFault.Everywhere (Grammar.OwnsLabel letterNodes) := by
    refine ⟨Grammar.ownsLabel_of_noCell rfl, ⟨Grammar.ownsLabel_of_noCell rfl,
      ⟨Grammar.ownsLabel_of_noCell rfl, ?_⟩, Grammar.ownsLabel_of_noCell rfl⟩, ?_⟩
    · rintro _ _ ⟨⟩
      rfl
    · rintro _ _ ⟨⟩
      rfl
  have hparser (q : Grammar) (hq : (Operand.parser letterOrFault).asParser = .ok q) :
      q.Everywhere (Grammar.OwnsLabel letterNodes) := by
    obtain rfl := Except.ok.inj hq
    exact hp
  rw [answers_ofRuns hdefinitions hparser]
  simp only [List.map_cons, List.map_nil]
  rw [(answer_ofRun hdefinitions rfl hp Memory.coherent_empty _ _).1,
    (answer_ofRun hdefinitions rfl hp Memory.coherent_empty _ _).1]
  rfl

end Report

end DiagnosticParsing
