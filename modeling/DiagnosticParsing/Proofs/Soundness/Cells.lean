import DiagnosticParsing.Proofs.Execution
import DiagnosticParsing.Proofs.Soundness.Typing

/-!
# Sound cells

A cell of a sound grammar never raises when it is entered. Its callback returns a sound parser, and
so what the cells hold stays sound (`World.safe_visit`, `World.safe_first`). Hence runs of sound
grammars are safe as long as what the cells held before was sound, and it is sound afterwards
(`Grammar.Sound.safe_exec`).
-/

set_option autoImplicit false

namespace DiagnosticParsing

open Parse

variable {definitions : Definitions} {known : String → Prop} {chars : Array Char}
  {shape : Value → Prop}

/-! ### What references lead to -/

/-- A variable of a sound grammar is known. -/
theorem Grammar.Sound.known_of_var {name : String}
    (hp : (Grammar.var name).Sound definitions known shape) : known name := by
  generalize hvar : Grammar.var name = p at hp
  induction hp with
  | weaken _ _ ih => exact ih hvar
  | var hname =>
    injection hvar with hvar
    exact hvar ▸ hname
  | _ => exact nomatch hvar

/-- A chain of names in a sound grammar leads to a sound parser. -/
theorem Closure.Sound.object (hdefinitions : definitions.Sound) (fuel : Nat) {parser : Closure}
    (hparser : parser.Sound definitions) :
    (definitions.object fuel parser).1.Sound definitions := by
  refine Definitions.object_relates
    (fun closure _ found ↦ closure.Sound definitions → found.Sound definitions) (fun _ ↦ id)
    (fun hget hfound _ ↦ ?_) (fun hlookup ⟨known, hscope, hvar⟩ ↦ ?_) fuel parser hparser
  · exact hfound (Grammar.Sound.definition hdefinitions hget _)
  · obtain ⟨outer, tag, body, known', hfound, houter, hbody⟩ := hscope.lookup hvar.known_of_var
    obtain rfl := Option.some.inj (hlookup.symm.trans hfound)
    exact ⟨known', houter, .fix tag hbody⟩

/-! ### Cells -/

/-- Whatever a sound parser leads to is sound. -/
theorem World.closed_sound (hdefinitions : definitions.Sound) :
    definitions.world.Closed (Closure.Sound definitions) where
  object := fun fuel _ hparser ↦ hparser.object hdefinitions fuel
  copied := fun ⟨known, hscope, hp⟩ ↦ ⟨known, hscope, .copied hp⟩
  returned := by
    rintro ⟨scope, cell⟩ label name p hcell ⟨known, hscope, hsound⟩ hreturned
    obtain ⟨closure, hbehind, hclosure⟩ :=
      hsound.behind hdefinitions (Grammar.isReference_of_cell hcell) hscope
    rw [← definitions.deferred_world hcell, hreturned] at hbehind
    obtain rfl := Except.ok.inj hbehind
    exact hclosure

/-- A sound cell has a callback that returns a parser, so that entering it raises nothing. -/
theorem World.safe_found (hdefinitions : definitions.Sound) {fuel label : Nat} {name : String}
    {cell : Closure} {found : Run (Closure × Nat)}
    (hfound : found = definitions.world.visit fuel cell label name ∨
      found = definitions.world.first fuel cell label name)
    (hlabel : cell.grammar.cell? = some (label, name)) (hcell : cell.Sound definitions) :
    Run.Safe (Memory.All (Closure.Sound definitions)) found
      fun found ↦ found.1.Sound definitions := by
  intro journal hmemory
  have henters := definitions.world.enters_of_eq hfound journal
  cases hrun : found journal with
  | done result final =>
    rw [hrun] at henters
    exact henters.keeps (closed_sound hdefinitions) hlabel hcell hmemory
  | faulted fault final =>
    rw [hrun] at henters
    cases henters with
    | refused hunbuilt hraised =>
      obtain ⟨known, hscope, hsound⟩ := hcell
      obtain ⟨closure, hbehind, -⟩ :=
        hsound.behind hdefinitions (Grammar.isReference_of_cell hlabel) hscope
      rw [← definitions.deferred_world hlabel, hraised] at hbehind
      exact nomatch hbehind
  | unfinished => trivial

section Running

variable {enter : Nat → Closure → Parse} {depth : Nat}

/-- A parse function that goes on with what a sound cell leads to is safe when that is. -/
theorem World.safe_goOn (hdefinitions : definitions.Sound) {fuel label : Nat} {name : String}
    {cell : Closure} {found : Run (Closure × Nat)}
    (hfound : found = definitions.world.visit fuel cell label name ∨
      found = definitions.world.first fuel cell label name)
    (hlabel : cell.grammar.cell? = some (label, name)) (hcell : cell.Sound definitions)
    (henter : ∀ passed closure, Closure.Sound definitions closure →
      Safe (Memory.All (Closure.Sound definitions)) chars (enter passed closure) fun _ ↦ True) :
    Safe (Memory.All (Closure.Sound definitions)) chars (goOn found enter) fun _ ↦ True :=
  fun place hplace ↦ (safe_found hdefinitions hfound hlabel hcell).bind fun found hentry ↦
    henter found.2 found.1 hentry place hplace

/-- A sound cell is safe when what it leads to is. -/
theorem World.safe_run (hdefinitions : definitions.Sound) {cell : Closure}
    (hcell : cell.Sound definitions)
    (henter : ∀ passed closure, Closure.Sound definitions closure →
      Safe (Memory.All (Closure.Sound definitions)) chars (enter passed closure) fun _ ↦ True) :
    Safe (Memory.All (Closure.Sound definitions)) chars
      (remembering.run definitions.world enter depth cell) fun _ ↦ True := by
  cases hlabel : cell.grammar.cell? with
  | none =>
    simp only [remembering.run, hlabel]
    exact henter 0 cell hcell
  | some label =>
    rw [definitions.world.run_cell enter depth hlabel]
    exact safe_goOn hdefinitions (.inl rfl) hlabel hcell henter

end Running

namespace Grammar

/-- A run of a sound grammar is safe within every bound, as long as what the cells hold is sound,
and it leaves them so. -/
theorem Sound.safe_exec (hdefinitions : definitions.Sound) (bound : Nat) :
    ∀ (passed : Nat) {known : String → Prop} {scope : Scope} {p : Grammar} {shape : Value → Prop},
      p.Sound definitions known shape → scope.Sound definitions known →
        Safe (Memory.All (Closure.Sound definitions)) chars
          (definitions.world.exec bound passed ⟨scope, p⟩) shape := by
  induction bound with
  | zero => exact fun _ _ _ _ _ _ _ _ _ ↦ Run.safe_unfinished
  | succ bound ih =>
    intro passed known scope p shape hp hscope
    have henter (passed : Nat) (closure : Closure) (hclosure : closure.Sound definitions) :
        Safe (Memory.All (Closure.Sound definitions)) chars
          (definitions.world.exec bound passed closure) fun _ ↦ True := by
      obtain ⟨known, hscope, hp⟩ := hclosure
      exact ih passed hp hscope
    cases passed with
    | succ passed => exact ih passed hp hscope
    | zero =>
      refine hp.safe_read rfl (fun {known scope q shape} hq hscope hsound ↦ ?_)
        (fun {known scope parse shape} hscope hparse place hplace ↦ ?_)
        (fun {known scope q parse shape} hscope hsound hparse ↦ ?_) hscope
      · have hcell : Closure.Sound definitions ⟨scope, q⟩ :=
          ⟨known, hscope, hsound.weaken fun _ _ ↦ trivial⟩
        cases q with
        | use name =>
          obtain ⟨closure, hbehind, hclosure⟩ := hsound.behind hdefinitions hq hscope
          simp only [World.remembering, Definitions.world]
          cases hget : definitions.get name with
          | ok p =>
            simp only [Definitions.behind, hget] at hbehind
            obtain rfl := Except.ok.inj hbehind
            exact henter 0 _ hclosure
          | error fault =>
            simp [Definitions.behind, hget, Except.map] at hbehind
        | var name =>
          obtain ⟨outer, tag, body, known', hlookup, houter, hbody⟩ :=
            hscope.lookup hsound.known_of_var
          simp only [World.remembering, hlookup]
          exact World.safe_run hdefinitions ⟨known', houter, .fix tag hbody⟩ henter
        | lazy _ _ | lazyShared _ _ | fix _ _ _ | unbuildable _ _ _ =>
          exact World.safe_run hdefinitions hcell henter
        | _ => exact hq.elim
      · have hstamp : Run.stamp.Safe (Memory.All (Closure.Sound definitions)) fun _ ↦ True :=
          fun _ hmemory ↦ ⟨trivial, hmemory⟩
        exact hstamp.bind fun stamp _ ↦ hparse (.afresh stamp hscope) place hplace
      · cases hlabel : (definitions.object bound ⟨scope, q⟩).1.grammar.cell? with
        | none =>
          rw [definitions.world.copied_of_noCell _ _ _ hlabel]
          exact hparse
        | some label =>
          rw [definitions.world.copied_of_cell _ _ _ hlabel]
          have hshape := hsound.shape_of_reference (definitions.isReference_of_object _ hlabel)
          have hclosure : Closure.Sound definitions ⟨scope, q⟩ :=
            ⟨known, hscope, hsound.weaken fun _ _ ↦ trivial⟩
          refine safe_weaken (World.safe_goOn hdefinitions (.inr rfl) hlabel
            (hclosure.object hdefinitions _) fun passed ↦ henter _) fun v _ ↦ hshape v

end Grammar

end DiagnosticParsing
