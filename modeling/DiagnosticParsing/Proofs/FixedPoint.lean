import DiagnosticParsing.Grammar.Characters
import DiagnosticParsing.Proofs.Endings

/-!
# Cells and what they stand for

A cell that refers to itself does what its body does inside it, where the variable leads back to the
one cell, and what the body does with copies of the cell in the places of the variable. A cell that
builds a definition, or refers to its shared parser, does what the definition does, and it makes no
difference which of the cells of mutually recursive definitions build them anew at every reference
and which refer to one shared parser. These are the laws of `Grammar.fixed_point`.

The two sides need different bounds for the same run, as a cell on one side is entered where the
other side reads on. They are compared by how they end with some bound that is large enough
(`Grammar.EndsWith`), which a grammar does in one way at most (`Grammar.EndsWith.unique`). Each
direction of a law is an approximation between the two sides, and an instance of
`Grammar.approximates_redirect`: the variable of the cell on one side stands against the cell itself
on the other one.

Names are all that a variable has, and a grammar that is put in its place must not be captured by
the cells inside the body. `Grammar.Scoped` asks that no cell inside the body binds a variable that
is visible around it; a cell outside every other one sees no variable, and any body will do that has
no further free variable.
-/

set_option autoImplicit false

namespace DiagnosticParsing

/-- The variable refers to a cell around the scope. -/
def Scope.Sees (scope : Scope) (name : String) : Prop :=
  scope.lookup name ≠ none

namespace Grammar

open Parse

variable {definitions : Definitions} {scope : Scope} {tag : Nat} {name : String} {body : Grammar}

/-! ### A cell that refers to itself -/

/-- The cell stands for its own variable, and every other variable for itself. -/
def unrolled (tag : Nat) (name : String) (body : Grammar) : String → Grammar :=
  fun x ↦ if x = name then fix tag name body else var x

/-- A cell is scoped if no variable is free in it but those visible. -/
theorem scoped_fix (hbody : body.Scoped scope.Sees fun x ↦ x = name ∨ scope.Sees x) :
    (fix tag name body).Scoped (fun _ ↦ False) scope.Sees :=
  ⟨not_false, hbody.mono (fun _ h ↦ h.elim) fun _ ↦ id⟩

/-- The variables inside the cell agree with what stands for them outside of it. -/
theorem agree_unrolled (tag : Nat)
    (hbody : body.Scoped scope.Sees fun x ↦ x = name ∨ scope.Sees x)
    (bound : Nat) :
    Agree definitions definitions bound (.bound tag name body scope) scope var
      (unrolled tag name body) (fun x ↦ x = name ∨ scope.Sees x) scope.Sees := by
  intro x hx cut _ inner inner' hinner hinner'
  unfold unrolled
  by_cases hxname : x = name
  · rw [if_pos hxname]
    have hlookup : inner.lookup x = some ⟨scope, fix tag name body⟩ := by
      rw [hinner x (.inl rfl), hxname, Scope.lookup_bound_self]
    rw [eval_var hlookup]
    exact approximates_eval cut _ (scoped_fix hbody) fun y hy ↦ (hinner' y (.inr hy)).symm
  · rw [if_neg hxname]
    refine approximates_var ?_ cut
    rw [hinner x (.inl rfl), hinner' x (.inl rfl), Scope.lookup_bound_of_ne tag body scope hxname]

/-- The other way round they agree too. -/
theorem agree_of_unrolled (tag : Nat)
    (hbody : body.Scoped scope.Sees fun x ↦ x = name ∨ scope.Sees x)
    (bound : Nat) :
    Agree definitions definitions bound scope (.bound tag name body scope)
      (unrolled tag name body) var (fun x ↦ x = name ∨ scope.Sees x) scope.Sees := by
  intro x hx cut _ inner inner' hinner hinner'
  unfold unrolled
  by_cases hxname : x = name
  · rw [if_pos hxname]
    have hlookup : inner'.lookup x = some ⟨scope, fix tag name body⟩ := by
      rw [hinner' x (.inl rfl), hxname, Scope.lookup_bound_self]
    rw [eval_var hlookup]
    exact approximates_eval cut _ (scoped_fix hbody) fun y hy ↦ hinner y (.inr hy)
  · rw [if_neg hxname]
    refine approximates_var ?_ cut
    rw [hinner x (.inl rfl), hinner' x (.inl rfl), Scope.lookup_bound_of_ne tag body scope hxname]

/-- A reference does what another grammar does elsewhere, one reference further down. -/
theorem sameEnds_of_succ {inner : Scope} {p reference : Grammar}
    (heval : ∀ bound, reference.eval definitions (bound + 1) scope =
      p.eval definitions bound inner) :
    SameEnds definitions scope reference definitions inner p := by
  refine .of_approximates (fun bound ↦ ?_) fun bound ↦ ⟨bound + 1, ?_⟩
  · cases bound with
    | zero => exact ⟨0, approximates_zero _ _⟩
    | succ bound =>
      rw [heval]
      exact ⟨bound, approximates_eval_of_le (Nat.le_refl bound) inner p⟩
  · rw [heval]
    exact approximates_eval_of_le (Nat.le_refl bound) inner p

/-- A cell does what its body does inside it. -/
theorem sameEnds_inside (scope : Scope) (tag : Nat) (name : String) (body : Grammar) :
    SameEnds definitions scope (fix tag name body) definitions (.bound tag name body scope) body :=
  sameEnds_of_succ fun _ ↦ rfl

/-- Inside the cell, the body does what it does unrolled outside of it. -/
theorem sameEnds_unrolled (hbody : body.Scoped scope.Sees fun x ↦ x = name ∨ scope.Sees x) :
    SameEnds definitions (.bound tag name body scope) body definitions scope
      (body.substitute name (fix tag name body)) := by
  refine .of_approximates (fun bound ↦ ⟨bound, ?_⟩) fun bound ↦ ⟨bound, ?_⟩
  · have hreplace := approximates_replace definitions bound body
      (agree_unrolled tag hbody bound) hbody
    rwa [replace_var] at hreplace
  · have hreplace := approximates_replace definitions bound body
      (agree_of_unrolled tag hbody bound) hbody
    rwa [replace_var] at hreplace

/-! ### Cells that build a definition -/

/-- What enters a definition in a scope of its own does what the definition does. Assumes: the
definition has no free variable that is visible around the cell. -/
theorem sameEnds_entered {p reference : Grammar} (inner : Scope)
    (hp : p.Scoped (fun _ ↦ False) fun x ↦ ¬scope.Sees x) (hinner : ∀ x, inner.lookup x = none)
    (heval : ∀ bound, reference.eval definitions (bound + 1) scope =
      p.eval definitions bound inner) :
    SameEnds definitions scope reference definitions scope p := by
  have hlookup (x : String) (hx : ¬scope.Sees x) : inner.lookup x = scope.lookup x := by
    rw [hinner x, Classical.not_not.mp hx]
  refine (sameEnds_of_succ heval).trans (.of_approximates (fun bound ↦ ⟨bound, ?_⟩) fun bound ↦
    ⟨bound, ?_⟩)
  · exact approximates_eval bound p hp hlookup
  · exact approximates_eval bound p hp fun x hx ↦ (hlookup x hx).symm

/-! ### The laws -/

/-- A cell does what it stands for: it comes to the same reply or fault, with the same log, and it
comes to an end at all, on the same places with the same log. Assumes, for copies of a cell in its
body: the free variables of the body are that of the cell and those visible around it, which no cell
inside the body binds again; and for definitions: none of their free variables is visible around the
cell. -/
theorem fixed_point (definitions : Definitions) :
    (∀ (scope : Scope) (tag : Nat) (name : String) (body : Grammar),
      SameEnds definitions scope (fix tag name body) definitions (.bound tag name body scope) body ∧
        ((body.Scoped scope.Sees fun x ↦ x = name ∨ scope.Sees x) →
          SameEnds definitions scope (fix tag name body) definitions scope
            (body.substitute name (fix tag name body)))) ∧
      (∀ (scope : Scope) (tag : Nat) (name : String) (p : Grammar),
        definitions.get name = .ok p → (p.Scoped (fun _ ↦ False) fun x ↦ ¬scope.Sees x) →
          SameEnds definitions scope (lazy tag name) definitions scope p ∧
            SameEnds definitions scope (lazyShared tag name) definitions scope p) ∧
      ∀ (shares : Nat → String → Bool) (p : Grammar),
        SameEnds definitions .top p (definitions.share shares) .top (p.share shares) := by
  refine ⟨fun scope tag name body ↦ ⟨?_, fun hbody ↦ ?_⟩, fun scope tag name p hget hp ↦ ⟨?_, ?_⟩,
    fun shares p ↦ ?_⟩
  · exact sameEnds_inside scope tag name body
  · exact (sameEnds_inside scope tag name body).trans (sameEnds_unrolled hbody)
  · refine sameEnds_entered (.anew tag scope) hp (fun _ ↦ rfl) fun bound ↦ ?_
    simp only [eval, meaning, read, plain, Definitions.behind, hget, Except.map]
  · refine sameEnds_entered (.shared name) hp (fun _ ↦ rfl) fun bound ↦ ?_
    simp only [eval, meaning, read, plain, Definitions.behind, hget, Except.map]
  · have hshare (shares shares' : Nat → String → Bool) (bound : Nat) :
        ((p.share shares).eval (definitions.share shares) bound .top).Approximates
          ((p.share shares').eval (definitions.share shares') bound .top) :=
      approximates_share definitions shares shares' bound p (fun _ ↦ rfl) fun _ ↦ rfl
    have hforth := hshare (fun _ _ ↦ false) shares
    have hback := hshare shares fun _ _ ↦ false
    rw [share_none, definitions.share_none] at hforth hback
    exact .of_approximates (fun bound ↦ ⟨bound, hforth bound⟩) fun bound ↦ ⟨bound, hback bound⟩

/-- A one and more of the same, or the end of the input. -/
def onesBody : Grammar :=
  either (right (char (.int 1)) (var "ones")) eof

/-- The same, by a definition that refers to another one. -/
def onesThen (next : String) : Grammar :=
  either (right (char (.int 1)) (lazy 0 next)) eof

/-- Two definitions that refer to each other. -/
def onesInTurn : Definitions :=
  ⟨fun name ↦ .ok (onesThen (if name = "even" then "odd" else "even"))⟩

/-- Since the body unrolled reads the end of the input, the cell does. It is read from the
definitions too, with cells that build them anew and with shared parsers. -/
theorem fixed_point_ones :
    let finish : Place := .fresh ⟨.tokens (.list #[.int 1]) .row, 1, ⟨1, 0⟩⟩
    let ending : Except Fault Reply × Log := (.ok (.success finish .null), .empty)
    (fix 0 "ones" onesBody).EndsWith .none .top finish .empty ending ∧
      (lazy 1 "even").EndsWith onesInTurn .top finish .empty ending ∧
      (lazyShared 1 "even").EndsWith (onesInTurn.share fun _ _ ↦ true) .top finish .empty
        ending := by
  intro finish ending
  have hunrolled : (onesBody.substitute "ones" (fix 0 "ones" onesBody)).EndsWith .none .top finish
      .empty ending :=
    endsWith_of_eval 1 .empty rfl
  have hones : (fix 0 "ones" onesBody).EndsWith .none .top finish .empty ending :=
    (((fixed_point .none).1 .top 0 "ones" onesBody).2 ⟨⟨trivial, .inl rfl⟩, trivial⟩ _ _ _).mpr
      hunrolled
  have heven : (onesThen "odd").EndsWith onesInTurn .top finish .empty ending :=
    endsWith_of_eval 1 .empty rfl
  have hlazy : (lazy 1 "even").EndsWith onesInTurn .top finish .empty ending :=
    (((fixed_point onesInTurn).2.1 .top 1 "even" (onesThen "odd") rfl
      ⟨⟨trivial, trivial⟩, trivial⟩).1 _ _ _).mpr heven
  have hshared : (lazyShared 1 "even").EndsWith (onesInTurn.share fun _ _ ↦ true) .top finish .empty
      ending :=
    ((fixed_point onesInTurn).2.2 (fun _ _ ↦ true) (lazy 1 "even") _ _ _).mp hlazy
  exact ⟨hones, hlazy, hshared⟩

end Grammar

end DiagnosticParsing
