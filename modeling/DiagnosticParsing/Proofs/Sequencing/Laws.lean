import DiagnosticParsing.Grammar.Construction
import DiagnosticParsing.Proofs.Approximation
import DiagnosticParsing.Proofs.ProperReplies

/-!
# Laws of sequencing

A *binder* is a user's function that chooses the next parser by the value of the one in front. Going
on with what a binder chooses (`Parse.bindTo`) is what every other way of sequencing comes down to.
The main result is `Parse.sequencing_laws`, for any parse functions, user's functions and binders:

* Binding has the laws of a monad. To bind what succeeds with a value is to take what the binder
  makes of the value; a binder that succeeds with the value makes no difference to a proper parser;
  and two bindings can be read from either side.
* A function of the value binds it to the parser that succeeds with what the function makes of it,
  and two functions of the value are one.
* A function that a parser produces is bound to map the next parser, and composed functions are
  applied one after the other.
* Two parsers in sequence bind the first value, to make a pair of both, to keep the first or to keep
  the second; three are two in either order.
* A function that rejects the value by null chooses what fails silently.
* A grammar that is bound to a chooser is read as its parse function, bound to what the chooser
  gives (`Grammar.eval_bindTo`). So the laws hold of grammars (`Grammar.binding_laws`).

The statements are equations between parsers: on every place and with every journal, both sides
reply the same or raise the same fault, and leave the same journal. So the order in which parsers
run, the log that each of them starts with, and the moment at which a function is called are the
same on both sides. Two things are said apart. Where one side takes a reply apart that the other
side hands on, the reply has to be a proper one; all grammars have proper replies that are built
without a parse function that answers otherwise (`Grammar.proper_of_everywhere`). And where one side
calls a function twice, what that function reports appears twice, so that only replies, faults and
logs are compared (`Parse.ending?_mapOption`).
-/

set_option autoImplicit false

namespace DiagnosticParsing

theorem Journal.noteAll_append (journal : Journal) (first second : List Note) :
    journal.noteAll (first ++ second) = (journal.noteAll first).noteAll second := by
  simp [noteAll, ← Array.toList_inj]

namespace Run

variable {α β : Type}

/-- Two calls, one after the other, are two steps of a run. -/
theorem ofCall_bind (call : Call α) (next : α → Call β) :
    ofCall (call >>= next) = ofCall call >>= fun a ↦ ofCall (next a) := by
  ext journal
  obtain ⟨notes, fault | a⟩ := call
  · rfl
  · simp only [ofCall, Bind.bind, Call.bind, Journal.noteAll_append]
    rfl

/-- What follows a run needs to come to the same end only. -/
theorem ending?_bind_congr {run : Run α} {next next' : α → Run β} (journal : Journal)
    (hnext : ∀ a final, (next a final).ending? = (next' a final).ending?) :
    ((run >>= next) journal).ending? = ((run >>= next') journal).ending? := by
  rw [bind_apply, bind_apply]
  cases run journal with
  | done a final => exact hnext a final
  | _ => rfl

end Run

namespace Parse

open Run (ofCall)

/-! ### Binders -/

/-- A parser chosen by the value of another. The binder is called when the parser in front has
succeeded, and its fault is raised then. -/
def bindTo (p : Parse) (binder : Value → Call Parse) : Parse :=
  chooseNext p (fun value ↦ do let _ ← binder value; return ()) fun value ↦
    match (binder value).outcome with
    | .ok q => q
    | .error fault => raise fault

/-- The parser that a call returns. -/
def called (call : Call Parse) : Parse := fun place ↦ do
  let q ← ofCall call
  q place

@[simp]
theorem called_bind {α : Type} (call : Call α) (next : α → Call Parse) (place : Place) :
    called (call >>= next) place = ofCall call >>= fun a ↦ called (next a) place := by
  simp only [called, Run.ofCall_bind, bind_assoc]

theorem bindTo_eq (p : Parse) (binder : Value → Call Parse) :
    bindTo p binder = andThen p fun rest value ↦ called (binder value) rest := by
  unfold bindTo chooseNext
  congr 1
  funext rest value
  rw [Run.ofCall_bind, bind_assoc]
  ext journal
  cases houtcome : (binder value).outcome with
  | ok q => simp only [called, Run.bind_apply, ofCall, houtcome]; rfl
  | error fault => simp only [called, Run.bind_apply, ofCall, houtcome]

end Parse

/-- The parse function that a chooser gives, for grammars read within a bound. What it gives has to
be able to parse. -/
def Chooser.binder (definitions : Definitions) (scope : Scope) (bound : Nat) (chooser : Chooser)
    (x : Value) : Call Parse := do
  let chosen ← chooser.choose x
  let q ← Call.ofExcept chosen.asParser
  return q.eval definitions bound scope

/-- A grammar that is bound to a chooser goes on with what the chooser gives. -/
theorem Grammar.eval_bindTo (definitions : Definitions) (scope : Scope) (bound : Nat) (p : Grammar)
    (chooser : Chooser) :
    (p.bindTo chooser).eval definitions (bound + 1) scope =
      Parse.bindTo (p.eval definitions (bound + 1) scope)
        (chooser.binder definitions scope (bound + 1)) := by
  have heval : (p.bindTo chooser).eval definitions (bound + 1) scope =
      Parse.chooseNext (p.eval definitions (bound + 1) scope) chooser.check fun x ↦
        (chooser.next x).eval definitions (bound + 1) scope :=
    rfl
  rw [heval, Parse.bindTo_eq, Parse.chooseNext]
  congr 1
  funext rest x
  ext journal
  rw [Chooser.binder, Parse.called_bind, Chooser.check, Run.ofCall_bind, bind_assoc, Run.bind_apply,
    Run.bind_apply, Run.ofCall]
  cases houtcome : (chooser.choose x).outcome with
  | error fault => rfl
  | ok chosen =>
    rw [Chooser.next, houtcome]
    cases chosen <;> rfl

namespace Parse

open Run (ofCall)

/-! ### A monad -/

section Laws

variable (p q r : Parse) (f g : Value → Call Value) (binder next : Value → Call Parse)

theorem bindTo_succeed (v : Value) : bindTo (succeed v) binder = called (binder v) := by
  rw [bindTo_eq]
  rfl

theorem bindTo_bindTo :
    bindTo (bindTo p binder) next = bindTo p fun x ↦ do return bindTo (← binder x) next := by
  simp only [bindTo_eq, andThen_andThen, called_bind]
  congr 1
  funext rest x
  simp only [called, bind_assoc]
  rfl

variable {p} in
theorem bindTo_pure (hp : Proper p) : bindTo p (fun x ↦ return succeed x) = p := by
  rw [bindTo_eq]
  exact andThen_success hp

/-! ### Functions of the value -/

theorem map_eq_bindTo : map p f = bindTo p fun x ↦ do return succeed (← f x) := by
  simp only [bindTo_eq, called_bind]
  rfl

theorem map_map : map (map p f) g = map p fun x ↦ f x >>= g := by
  simp only [map, andThen_andThen, bind_assoc, Run.ofCall_bind, pure_bind, follow_success]

theorem compose_eq_bindTo : compose p q = bindTo p fun f ↦ return map q f.apply := by
  rw [bindTo_eq]
  rfl

/-- The function that composes two functions, one after the other. -/
def composition : Value :=
  .function (.curry .compose)

theorem compose_succeed (f : Value) : compose (succeed f) p = map p f.apply :=
  rfl

theorem apply_composition (f : Value) :
    composition.apply f = .pure (.function (.applied .compose f)) :=
  rfl

theorem apply_applied_compose (f g : Value) :
    (Value.function (.applied .compose f)).apply g = .pure (.function (.composed f g)) :=
  rfl

theorem ofCall_apply_composed (f g x : Value) :
    ofCall ((Value.function (.composed f g)).apply x) =
      ofCall (g.apply x) >>= fun y ↦ ofCall (f.apply y) := by
  have hnotes : ((g.apply x).bind f.apply).notes = [] := by
    unfold Call.bind
    cases (g.apply x).outcome <;> simp
  rw [← Run.ofCall_bind]
  exact (Run.ofCall_of_notes_nil hnotes).symm

theorem compose_compose :
    compose (compose (compose (succeed composition) p) q) r = compose p (compose q r) := by
  rw [compose_succeed]
  -- Both sides run the three parsers in order. The functions are composed in between on the left
  -- only, which neither raises a fault nor reports anything.
  simp only [compose, map, andThen_andThen, andThen_apply, follow_success, follow_bind_follow,
    apply_composition, apply_applied_compose, ofCall_apply_composed, Run.ofCall_pure, bind_assoc,
    pure_bind]

theorem both_eq_bindTo :
    both p q = bindTo p fun x ↦ return map q fun y ↦ return .tuple [x, y] := by
  rw [bindTo_eq]
  rfl

variable {p} in
theorem right_eq_bindTo (hp : Proper p) : right p q = bindTo p fun _ ↦ return q := by
  rw [bindTo_eq]
  exact right_eq hp q

variable {p q} in
theorem left_eq_bindTo (hp : Proper p) (hq : Proper q) :
    left p q = bindTo p fun x ↦ return map q fun _ ↦ return x := by
  rw [bindTo_eq]
  exact left_eq hp hq

/-- A failure is passed on through two steps as it is through one. -/
theorem whenSuccess_bind (reply : Reply) (following last : Reply → Run Reply) :
    (whenSuccess reply following >>= fun reply ↦ whenSuccess reply last) =
      whenSuccess reply fun reply ↦ following reply >>= fun reply ↦ whenSuccess reply last := by
  cases reply <;> rfl

theorem mid_eq_left : mid p q r = left (right p q) r := by
  funext place
  simp only [mid, left, right, bind_assoc, whenSuccess_bind]

theorem mid_eq_right : mid p q r = right p (left q r) :=
  rfl

/-! ### Functions that reject the value -/

/-- What a function makes of a value that has been parsed, when it may reject the value by null. -/
theorem ending?_called_option (call : Call Value) (rest : Place) (journal : Journal) :
    ((do
      match ← ofCall call with
      | .null => return .failure
      | mapped => return .success rest mapped : Run Reply) journal).ending? =
      (called (do
        match ← call with
        | .null => return empty
        | _ => return succeed (← call)) rest journal).ending? := by
  rw [called_bind, Run.bind_apply, Run.bind_apply, ofCall]
  cases houtcome : call.outcome with
  | error fault => rfl
  | ok mapped =>
    -- The second call has the outcome of the first one and reports once more.
    cases mapped with
    | null => rfl
    | _ => simp only [called_bind, Run.bind_apply, ofCall, houtcome]; rfl

/-- A function that rejects the value by null chooses between a failure and a success. A binder that
makes this choice calls the function a second time, so the function reports twice. -/
theorem ending?_mapOption (place : Place) (journal : Journal) :
    (mapOption p f place journal).ending? =
      (bindTo p (fun x ↦ do
        match ← f x with
        | .null => return empty
        | _ => return succeed (← f x)) place journal).ending? := by
  rw [bindTo_eq]
  refine Run.ending?_bind_congr journal fun reply final ↦ ?_
  cases reply with
  | failure => rfl
  | _ => exact Run.ending?_bind_congr final fun parts last ↦ ending?_called_option _ _ _

end Laws

/-- Binding has the laws of a monad, and the other ways of sequencing are bindings. Both sides of an
equation reply the same or raise the same fault, and leave the same log. What a grammar goes on with
by a chooser is bound to it. Assumes, where one side takes a reply apart and the other hands it on:
proper replies. -/
theorem sequencing_laws :
    (∀ (v : Value) (binder : Value → Call Parse),
      bindTo (succeed v) binder = called (binder v)) ∧
    (∀ p, Proper p → bindTo p (fun x ↦ return succeed x) = p) ∧
    (∀ (p : Parse) (binder next : Value → Call Parse),
      bindTo (bindTo p binder) next = bindTo p fun x ↦ do return bindTo (← binder x) next) ∧
    (∀ (p : Parse) (f : Value → Call Value),
      map p f = bindTo p fun x ↦ do return succeed (← f x)) ∧
    (∀ (p : Parse) (f g : Value → Call Value), map (map p f) g = map p fun x ↦ f x >>= g) ∧
    (∀ p q : Parse, compose p q = bindTo p fun f ↦ return map q f.apply) ∧
    (∀ p q r : Parse,
      compose (compose (compose (succeed composition) p) q) r = compose p (compose q r)) ∧
    (∀ p q : Parse, both p q = bindTo p fun x ↦ return map q fun y ↦ return .tuple [x, y]) ∧
    (∀ p q : Parse, Proper p → right p q = bindTo p fun _ ↦ return q) ∧
    (∀ p q : Parse, Proper p → Proper q →
      left p q = bindTo p fun x ↦ return map q fun _ ↦ return x) ∧
    (∀ p q r : Parse, mid p q r = left (right p q) r ∧ mid p q r = right p (left q r)) ∧
    (∀ (p : Parse) (f : Value → Call Value) (place : Place) (journal : Journal),
      (mapOption p f place journal).ending? =
        (bindTo p (fun x ↦ do
          match ← f x with
          | .null => return empty
          | _ => return succeed (← f x)) place journal).ending?) ∧
    ∀ (definitions : Definitions) (scope : Scope) (bound : Nat) (p : Grammar) (chooser : Chooser),
      (p.bindTo chooser).eval definitions (bound + 1) scope =
        bindTo (p.eval definitions (bound + 1) scope)
          (chooser.binder definitions scope (bound + 1)) :=
  ⟨fun v binder ↦ bindTo_succeed binder v, fun _ ↦ bindTo_pure, bindTo_bindTo, map_eq_bindTo,
    map_map, compose_eq_bindTo, compose_compose, both_eq_bindTo, fun _ q hp ↦ right_eq_bindTo q hp,
    fun _ _ ↦ left_eq_bindTo, fun p q r ↦ ⟨mid_eq_left p q r, mid_eq_right p q r⟩,
    ending?_mapOption, Grammar.eval_bindTo⟩

/-- Texts in sequence, which have proper replies. -/
theorem sequencing_laws_literal :
    bindTo (literal (.text "a")) (fun x ↦ return succeed x) = literal (.text "a") ∧
    right (literal (.text "(")) (literal (.text "a")) =
      bindTo (literal (.text "(")) (fun _ ↦ return literal (.text "a")) ∧
    left (literal (.text "a")) (literal (.text ")")) =
      bindTo (literal (.text "a")) fun x ↦ return map (literal (.text ")")) fun _ ↦ return x :=
  have ⟨_, hpure, _, _, _, _, _, _, hright, hleft, _⟩ := sequencing_laws
  ⟨hpure _ (proper_literal _), hright _ _ (proper_literal _),
    hleft _ _ (proper_literal _) (proper_literal _)⟩

end Parse

namespace Grammar

variable {definitions : Definitions} {scope : Scope}

/-- The laws of binding for grammars and choosers: a grammar that succeeds is bound by what the
chooser gives for its value, the chooser that succeeds makes no difference, two choosers can be read
from either side, and a fixed parser is the one behind. Assumes for the second and the last law: no
parse function in the grammar that answers improperly. -/
theorem binding_laws (hdefinitions : definitions.Everywhere AnswersProperly)
    (hscope : scope.Everywhere AnswersProperly) (bound : Nat) :
    (∀ (v : Value) (chooser : Chooser),
      ((succeed v).bindTo chooser).eval definitions (bound + 1) scope =
        Parse.called (chooser.binder definitions scope (bound + 1) v)) ∧
    (∀ p : Grammar, p.Everywhere AnswersProperly →
      (p.bindTo .succeed).eval definitions (bound + 1) scope =
        p.eval definitions (bound + 1) scope) ∧
    (∀ (p : Grammar) (first second : Chooser),
      ((p.bindTo first).bindTo second).eval definitions (bound + 1) scope =
        Parse.bindTo (p.eval definitions (bound + 1) scope) fun x ↦ do
          let q ← first.binder definitions scope (bound + 1) x
          return Parse.bindTo q (second.binder definitions scope (bound + 1))) ∧
    ∀ p q : Grammar, p.Everywhere AnswersProperly →
      (right p q).eval definitions (bound + 1) scope =
        (p.bindTo (.const (.parser q))).eval definitions (bound + 1) scope := by
  have hproper (p : Grammar) (hp : p.Everywhere AnswersProperly) :
      Parse.Proper (p.eval definitions (bound + 1) scope) :=
    proper_of_everywhere hdefinitions hscope hp (bound + 1)
  refine ⟨fun v chooser ↦ ?_, fun p hp ↦ ?_, fun p first second ↦ ?_, fun p q hp ↦ ?_⟩
  · rw [eval_bindTo]
    exact Parse.bindTo_succeed _ v
  · rw [eval_bindTo]
    exact Parse.bindTo_pure (hproper p hp)
  · rw [eval_bindTo, eval_bindTo, Parse.bindTo_bindTo]
  · rw [eval_bindTo]
    exact Parse.right_eq_bindTo _ (hproper p hp)

end Grammar

end DiagnosticParsing
