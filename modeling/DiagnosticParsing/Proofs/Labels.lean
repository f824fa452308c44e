import DiagnosticParsing.Proofs.Execution

/-!
# Cells and their labels

Labels are there to tell cells apart. In a grammar in which each label stands for one cell, every
cell is the one for which its label stands (`Grammar.OwnsLabel`). What can be met in a run of such a
grammar is labelled in the same way (`Closure.Labelled`, `World.closed_labelled`), and then the
address of a cell tells which cell it is, and in which scope it stands
(`Closure.Labelled.eq_of_cell`).

Parsers that are made in a run differ by their stamps only. Without the stamps, scopes see the same
variables, and references lead to the same grammars (`Definitions.behind_unstamped`).
-/

set_option autoImplicit false

namespace DiagnosticParsing

variable {nodes : Nat → Grammar} {definitions : Definitions}

/-- A cell is the one for which its label stands. -/
def Grammar.OwnsLabel (nodes : Nat → Grammar) (p : Grammar) : Prop :=
  ∀ label name, p.cell? = some (label, name) → nodes label = p

/-- The cells around a scope are those for which their labels stand, and so are those inside of
them. -/
def Scope.Labelled (nodes : Nat → Grammar) : Scope → Prop
  | .top | .shared _ => True
  | .anew label outer => (∃ name, nodes label = .lazy label name) ∧ outer.Labelled nodes
  | .bound label name body outer =>
    (Grammar.fix label name body).Everywhere (Grammar.OwnsLabel nodes) ∧ outer.Labelled nodes
  | .afresh _ outer => outer.Labelled nodes

/-- The cells in a grammar and around it are those for which their labels stand. -/
structure Closure.Labelled (nodes : Nat → Grammar) (closure : Closure) : Prop where
  scope : closure.scope.Labelled nodes
  grammar : closure.grammar.Everywhere (Grammar.OwnsLabel nodes)

/-! ### What labelled grammars lead to -/

/-- A part that is a cell is the one for which its label stands. -/
theorem Closure.Labelled.nodes_eq {cell : Closure} (h : cell.Labelled nodes) {label : Nat}
    {name : String} (hcell : cell.grammar.cell? = some (label, name)) :
    nodes label = cell.grammar :=
  (Grammar.passesDown_everywhere _).allows h.grammar label name hcell

theorem Grammar.ownsLabel_of_noCell {p : Grammar} (hparser : p.cell? = none) :
    p.OwnsLabel nodes := by
  intro label name hcell
  rw [hparser] at hcell
  exact nomatch hcell

/-- The cells to which variables can refer in a labelled scope are labelled. -/
theorem Scope.Labelled.everywhere {scope : Scope} (hscope : scope.Labelled nodes) :
    scope.Everywhere (Grammar.OwnsLabel nodes) := by
  induction scope with
  | top | shared home => trivial
  | anew label outer ih => exact ih hscope.2
  | bound label name body outer ih => exact ⟨hscope.1, ih hscope.2⟩
  | afresh stamp outer ih => exact ih hscope

/-- A variable in a labelled scope refers to a labelled cell. -/
theorem Scope.Labelled.lookup {scope : Scope} (hscope : scope.Labelled nodes) {name : String}
    {cell : Closure} (hlookup : scope.lookup name = some cell) : cell.Labelled nodes := by
  induction scope with
  | top | shared home | anew label outer ih => exact nomatch hlookup
  | afresh stamp outer ih => exact ih hscope hlookup
  | bound label own body outer ih =>
    rw [Scope.lookup] at hlookup
    split at hlookup
    · obtain rfl := Option.some.inj hlookup
      exact ⟨hscope.2, hscope.1⟩
    · exact ih hscope.2 hlookup

/-- A chain of names leads from a labelled parser to a labelled one. -/
theorem Closure.Labelled.object (hdefinitions : definitions.Everywhere (Grammar.OwnsLabel nodes))
    (fuel : Nat) {parser : Closure} (hparser : parser.Labelled nodes) :
    (definitions.object fuel parser).1.Labelled nodes := by
  refine Definitions.object_relates
    (fun closure _ found ↦ closure.Labelled nodes → found.Labelled nodes) (fun _ ↦ id)
    (fun hget hfound _ ↦ ?_) (fun hlookup hclosure ↦ ?_) fuel parser hparser
  · exact hfound ⟨trivial, hdefinitions _ _ hget⟩
  · exact hclosure.scope.lookup hlookup

/-- What stands behind a labelled cell is labelled. -/
theorem Closure.Labelled.inside (hdefinitions : definitions.Everywhere (Grammar.OwnsLabel nodes))
    {cell : Closure} (hcell : cell.Labelled nodes) {label : Nat} {name : String}
    (hlabel : cell.grammar.cell? = some (label, name)) {p : Grammar}
    (hreturned : Operand.deferred (definitions.world.callback cell.scope cell.grammar) = .ok p) :
    Closure.Labelled nodes ⟨cell.scope.inside cell.grammar, p⟩ := by
  refine ⟨?_, ((Definitions.everywhere_world hdefinitions).2 _ _ _ hcell.scope.everywhere
    hcell.grammar hreturned).grammar⟩
  have hnode := hcell.nodes_eq hlabel
  obtain ⟨scope, q⟩ := cell
  cases q with
  | lazy tag name =>
    obtain ⟨rfl, rfl⟩ := Prod.mk.inj (Option.some.inj hlabel)
    exact ⟨⟨_, hnode⟩, hcell.scope⟩
  | lazyShared tag name => trivial
  | fix tag name body => exact ⟨hcell.grammar, hcell.scope⟩
  | unbuildable tag name fault => exact nomatch hreturned
  | _ => exact nomatch hlabel

/-- Whatever a labelled parser leads to is labelled. -/
theorem World.closed_labelled (hdefinitions : definitions.Everywhere (Grammar.OwnsLabel nodes)) :
    definitions.world.Closed (Closure.Labelled nodes) where
  object := fun fuel _ hparser ↦ hparser.object hdefinitions fuel
  copied := fun h ↦ ⟨h.scope, Grammar.ownsLabel_of_noCell rfl, h.grammar⟩
  returned := fun hlabel hcell hreturned ↦ hcell.inside hdefinitions hlabel hreturned

/-! ### Addresses -/

/-- What one step leads to tells the step and where it was made. -/
theorem Cell.eq_of_step {cell other : Cell} {step step' : Cell.Step}
    (h : Cell.mk cell.home (step :: cell.path) = ⟨other.home, step' :: other.path⟩) :
    step = step' ∧ cell = other := by
  obtain ⟨home, path⟩ := cell
  obtain ⟨home', path'⟩ := other
  obtain ⟨hhome, hpath⟩ := Cell.mk.inj h
  obtain ⟨hstep, hrest⟩ := List.cons.inj hpath
  exact ⟨hstep, congr (congrArg Cell.mk hhome) hrest⟩

/-- Labelled scopes are told apart by their addresses. -/
theorem Scope.Labelled.eq_of_address {scope other : Scope} (hscope : scope.Labelled nodes)
    (hother : other.Labelled nodes) (haddress : scope.address = other.address) : scope = other := by
  induction scope generalizing other with
  | top | shared home =>
    cases other with
    | top | shared home' => simp_all [address]
    | anew label outer | bound label name body outer | afresh stamp outer =>
      exact nomatch congrArg Cell.path haddress
  | anew label outer ih =>
    cases other with
    | top | shared home => exact nomatch congrArg Cell.path haddress
    | afresh stamp outer' => exact nomatch (Cell.eq_of_step haddress).1
    | anew label' outer' =>
      obtain ⟨hstep, houter⟩ := Cell.eq_of_step haddress
      rw [Cell.Step.label.inj hstep, ih hscope.2 hother.2 houter]
    | bound label' name' body outer' =>
      obtain ⟨hstep, -⟩ := Cell.eq_of_step haddress
      obtain ⟨name, hlazy⟩ := hscope.1
      have hfix : nodes label' = .fix label' name' body := hother.1.1 label' name' rfl
      rw [← Cell.Step.label.inj hstep, hlazy] at hfix
      exact nomatch hfix
  | bound label name body outer ih =>
    have hfix : nodes label = .fix label name body := hscope.1.1 label name rfl
    cases other with
    | top | shared home => exact nomatch congrArg Cell.path haddress
    | afresh stamp outer' => exact nomatch (Cell.eq_of_step haddress).1
    | anew label' outer' =>
      obtain ⟨hstep, -⟩ := Cell.eq_of_step haddress
      obtain ⟨name, hlazy⟩ := hother.1
      rw [← Cell.Step.label.inj hstep, hfix] at hlazy
      exact nomatch hlazy
    | bound label' name' body' outer' =>
      obtain ⟨hstep, houter⟩ := Cell.eq_of_step haddress
      have hfix' : nodes label' = .fix label' name' body' := hother.1.1 label' name' rfl
      rw [← Cell.Step.label.inj hstep, hfix] at hfix'
      obtain ⟨-, hname, hbody⟩ := Grammar.fix.inj hfix'
      rw [Cell.Step.label.inj hstep, hname, hbody, ih hscope.2 hother.2 houter]
  | afresh stamp outer ih =>
    cases other with
    | top | shared home => exact nomatch congrArg Cell.path haddress
    | anew label outer' | bound label name body outer' =>
      exact nomatch (Cell.eq_of_step haddress).1
    | afresh stamp' outer' =>
      obtain ⟨hstep, houter⟩ := Cell.eq_of_step haddress
      have hother' : outer'.Labelled nodes := hother
      rw [Cell.Step.stamp.inj hstep, ih hscope hother' houter]

/-- Labelled cells are told apart by their addresses. -/
theorem Closure.Labelled.eq_of_cell {cell other : Closure} (hcell : cell.Labelled nodes)
    (hother : other.Labelled nodes) {label label' : Nat} {name name' : String}
    (hlabel : cell.grammar.cell? = some (label, name))
    (hlabel' : other.grammar.cell? = some (label', name'))
    (haddress : cell.scope.cell label = other.scope.cell label') : cell = other := by
  obtain ⟨hstep, houter⟩ := Cell.eq_of_step haddress
  have hscope := hcell.scope.eq_of_address hother.scope houter
  have hgrammar : cell.grammar = other.grammar := by
    rw [← hcell.nodes_eq hlabel, ← hother.nodes_eq hlabel', Cell.Step.label.inj hstep]
  obtain ⟨scope, p⟩ := cell
  exact congr (congrArg Closure.mk hscope) hgrammar

/-! ### Scopes without stamps -/

/-- The scope when parsers made in runs are told apart no longer. -/
def Scope.unstamped : Scope → Scope
  | .top => .top
  | .shared name => .shared name
  | .anew label outer => .anew label outer.unstamped
  | .bound label name body outer => .bound label name body outer.unstamped
  | .afresh _ outer => outer.unstamped

/-- The grammar in its scope without stamps. -/
def Closure.unstamped (closure : Closure) : Closure :=
  ⟨closure.scope.unstamped, closure.grammar⟩

/-- Variables refer to the same cells. -/
theorem Scope.lookup_unstamped (scope : Scope) (name : String) :
    scope.unstamped.lookup name = (scope.lookup name).map Closure.unstamped := by
  induction scope with
  | top | shared home | anew label outer ih => rfl
  | afresh stamp outer ih => exact ih
  | bound label own body outer ih =>
    simp only [unstamped, lookup, ih]
    split <;> rfl

/-- References lead to the same grammars. -/
theorem Definitions.behind_unstamped (definitions : Definitions) (scope : Scope) (p : Grammar) :
    definitions.behind scope.unstamped p =
      (definitions.behind scope p).map Closure.unstamped := by
  cases p with
  | use name | lazy label name | lazyShared label name =>
    simp only [behind]
    cases definitions.get name <;> rfl
  | var name =>
    simp only [behind, scope.lookup_unstamped]
    cases hlookup : scope.lookup name with
    | none => rfl
    | some cell =>
      obtain ⟨outer, label, own, body, rfl⟩ := Scope.lookup_eq_fix hlookup
      rfl
  | _ => rfl

end DiagnosticParsing
