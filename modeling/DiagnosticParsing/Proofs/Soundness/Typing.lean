import DiagnosticParsing.Proofs.Erasure
import DiagnosticParsing.Proofs.Safety

/-!
# Typing of grammars

`p.Sound definitions known shape` is a typing of grammars, with a rule for each way of building a
parser. The type of a parser is the shape of its values, and a function has to return on every value
of the shape that it is applied to. A function that returns on every value whatever fits everywhere,
since every shape can be weakened. The operators of chains and compositions have a shape of
functions: each application of theirs to operands returns. A cell, a definition and a variable have
values of any shape.

No rule types a parser that raises, a parse function written by hand, a cell whose construction
fails, a reference to something undefined, or a pattern for bytes.

The rules are sound by the laws of `DiagnosticParsing.Proofs.Safety`, one case for each
(`Grammar.Sound.safe_meaning`). References are sound by induction on the bound
(`Grammar.Sound.safe_eval`), since a cell refers to itself and definitions refer to each other.
-/

set_option autoImplicit false

namespace DiagnosticParsing

theorem Reply.OnText.onStream {chars : Array Char} {shape : Value → Prop} {reply : Reply}
    (h : reply.OnText chars shape) : reply.OnStream := by
  cases reply with
  | failure => exact .failure
  | success rest value =>
    cases rest with
    | stream slot s => exact .success slot s value
    | stray v => exact h.1.elim
  | malformed v => exact h.elim

namespace Grammar

/-- The grammar raises nothing on texts, and its values are of a shape. Its free variables are known
ones. -/
inductive Sound (definitions : Definitions) :
    (known : String → Prop) → Grammar → (shape : Value → Prop) → Prop
  | weaken {known : String → Prop} {p : Grammar} {given shape : Value → Prop}
    (hp : Sound definitions known p given) (hshape : ∀ v, given v → shape v) :
    Sound definitions known p shape
  | succeed (known : String → Prop) (v : Value) : Sound definitions known (succeed v) (· = v)
  | empty (known : String → Prop) : Sound definitions known empty fun _ ↦ False
  | eof (known : String → Prop) : Sound definitions known eof (· = .null)
  | element (known : String → Prop) {test : Value → Except Fault Bool}
    {describe : Value → Except Fault String} (htest : ∀ c, ∃ passed, test (.char c) = .ok passed)
    (hdescribe : ∀ c, ∃ text, describe (.char c) = .ok text) :
    Sound definitions known (element test describe) fun v ↦ ∃ c, v = .char c ∧ test v = .ok true
  | token (known : String → Prop) {test describe : Value → Call Value} {shape : Value → Prop}
    (htest : ∀ c, (test (.char c)).Returns fun v ↦ v = .null ∨ shape v)
    (hdescribe : ∀ c, (describe (.char c)).Returns fun _ ↦ True) :
    Sound definitions known (token test describe) shape
  | literal (known : String → Prop) {v : Value} {items : List Value}
    (hitems : v.elements = .ok items) : Sound definitions known (literal v) (· = v)
  | regex (known : String → Prop) {pattern : Pattern} (htext : pattern.overBytes = false) :
    Sound definitions known (regex pattern) fun v ↦ ∃ text, v = .text text
  | map {known : String → Prop} {p : Grammar} {f : Value → Call Value}
    {given shape : Value → Prop} (hp : Sound definitions known p given)
    (hf : ∀ v, given v → (f v).Returns shape) : Sound definitions known (map p f) shape
  | mapOption {known : String → Prop} {p : Grammar} {f : Value → Call Value}
    {given shape : Value → Prop} (hp : Sound definitions known p given)
    (hf : ∀ v, given v → (f v).Returns fun mapped ↦ mapped = .null ∨ shape mapped) :
    Sound definitions known (mapOption p f) shape
  | mapResult {known : String → Prop} {p : Grammar} {f : Value → Call Value}
    {given shape : Value → Prop} (hp : Sound definitions known p given)
    (hf : ∀ v, given v → ∀ mapped, (f v).outcome = .ok mapped → shape mapped) :
    Sound definitions known (mapResult p f) shape
  | compose {known : String → Prop} {p q : Grammar} {operator given shape : Value → Prop}
    (hp : Sound definitions known p operator) (hq : Sound definitions known q given)
    (happly : ∀ f v, operator f → given v → (f.apply v).Returns shape) :
    Sound definitions known (compose p q) shape
  | bind {known : String → Prop} {p : Grammar} {choose : Value → Call Unit}
    {next : Value → Grammar} {given shape : Value → Prop} (hp : Sound definitions known p given)
    (hchoose : ∀ v, given v → (choose v).Returns fun _ ↦ True)
    (hnext : ∀ v, given v → Sound definitions known (next v) shape) :
    Sound definitions known (bind p choose next) shape
  | both {known : String → Prop} {p q : Grammar} {first second : Value → Prop}
    (hp : Sound definitions known p first) (hq : Sound definitions known q second) :
    Sound definitions known (both p q) fun v ↦ ∃ a b, v = .tuple [a, b] ∧ first a ∧ second b
  | left {known : String → Prop} {p q : Grammar} {first second : Value → Prop}
    (hp : Sound definitions known p first) (hq : Sound definitions known q second) :
    Sound definitions known (left p q) first
  | right {known : String → Prop} {p q : Grammar} {first second : Value → Prop}
    (hp : Sound definitions known p first) (hq : Sound definitions known q second) :
    Sound definitions known (right p q) second
  | mid {known : String → Prop} {p q r : Grammar} {first second third : Value → Prop}
    (hp : Sound definitions known p first) (hq : Sound definitions known q second)
    (hr : Sound definitions known r third) : Sound definitions known (mid p q r) second
  | either {known : String → Prop} {p q : Grammar} {shape : Value → Prop}
    (hp : Sound definitions known p shape) (hq : Sound definitions known q shape) :
    Sound definitions known (either p q) shape
  | many {known : String → Prop} {p : Grammar} {given : Value → Prop}
    (hp : Sound definitions known p given) : Sound definitions known (many p) (Parse.ListOf given)
  | oneOrMore {known : String → Prop} {p : Grammar} {given : Value → Prop}
    (hp : Sound definitions known p given) :
    Sound definitions known (oneOrMore p) (Parse.ListOf given)
  | optional {known : String → Prop} {p : Grammar} {given : Value → Prop}
    (hp : Sound definitions known p given) :
    Sound definitions known (optional p) fun v ↦ v = .null ∨ given v
  | count (n : Nat) {known : String → Prop} {p : Grammar} {given : Value → Prop}
    (hp : Sound definitions known p given) :
    Sound definitions known (count n p) (Parse.ListOf given)
  | chainLeft {known : String → Prop} {p op : Grammar} {given operator shape : Value → Prop}
    (hp : Sound definitions known p given) (hop : Sound definitions known op operator)
    (hfirst : ∀ v, given v → shape v)
    (happly : ∀ f x y, operator f → shape x → given y → (f.apply₂ x y).Returns shape) :
    Sound definitions known (chainLeft p op) shape
  | chainRight {known : String → Prop} {p op : Grammar} {given operator shape : Value → Prop}
    (hp : Sound definitions known p given) (hop : Sound definitions known op operator)
    (hlast : ∀ v, given v → shape v)
    (happly : ∀ f x y, operator f → given x → shape y → (f.apply₂ x y).Returns shape) :
    Sound definitions known (chainRight p op) shape
  | lookAhead {known : String → Prop} {p : Grammar} {shape : Value → Prop}
    (hp : Sound definitions known p shape) : Sound definitions known (lookAhead p) shape
  | notFollowedBy {known : String → Prop} {p : Grammar} {given : Value → Prop}
    (hp : Sound definitions known p given) :
    Sound definitions known (notFollowedBy p) (· = .null)
  | annotate (severity : Severity) (text : String) {known : String → Prop} {p : Grammar}
    {shape : Value → Prop} (hp : Sound definitions known p shape) :
    Sound definitions known (annotate severity p text) shape
  | label (name : String) {known : String → Prop} {p : Grammar} {shape : Value → Prop}
    (hp : Sound definitions known p shape) : Sound definitions known (label p name) shape
  | inspect {known : String → Prop} {p : Grammar} {observe : Place → Reply → Call Unit}
    {shape : Value → Prop} (hp : Sound definitions known p shape)
    (hobserve : OnlyWatches observe) : Sound definitions known (inspect p observe) shape
  | recover {known : String → Prop} {p : Grammar} {default : Value} {shape : Value → Prop}
    (hp : Sound definitions known p shape) (hdefault : shape default) :
    Sound definitions known (recover p default) shape
  | trace (name : String) {known : String → Prop} {p : Grammar} {shape : Value → Prop}
    (hp : Sound definitions known p shape) : Sound definitions known (trace name p) shape
  | use (known : String → Prop) {name : String} {p : Grammar}
    (hget : definitions.get name = .ok p) : Sound definitions known (use name) fun _ ↦ True
  | lazy (known : String → Prop) (tag : Nat) {name : String} {p : Grammar}
    (hget : definitions.get name = .ok p) : Sound definitions known (lazy tag name) fun _ ↦ True
  | lazyShared (known : String → Prop) (tag : Nat) {name : String} {p : Grammar}
    (hget : definitions.get name = .ok p) :
    Sound definitions known (lazyShared tag name) fun _ ↦ True
  | fix (tag : Nat) {known : String → Prop} {name : String} {body : Grammar}
    (hbody : Sound definitions (fun x ↦ x = name ∨ known x) body fun _ ↦ True) :
    Sound definitions known (fix tag name body) fun _ ↦ True
  | var {known : String → Prop} {name : String} (hname : known name) :
    Sound definitions known (var name) fun _ ↦ True
  | afresh {known : String → Prop} {p : Grammar} {shape : Value → Prop}
    (hp : Sound definitions known p shape) : Sound definitions known (afresh p) shape
  | copied {known : String → Prop} {p : Grammar} {shape : Value → Prop}
    (hp : Sound definitions known p shape) : Sound definitions known (copied p) shape

end Grammar

/-- All definitions are sound. -/
def Definitions.Sound (definitions : Definitions) : Prop :=
  ∀ name p, definitions.get name = .ok p → p.Sound definitions (fun _ ↦ False) fun _ ↦ True

/-- The cells around a scope that known variables refer to are sound. -/
inductive Scope.Sound (definitions : Definitions) : (known : String → Prop) → Scope → Prop
  | blind (scope : Scope) : Sound definitions (fun _ ↦ False) scope
  | bound (tag : Nat) {known : String → Prop} {name : String} {body : Grammar} {outer : Scope}
    (houter : Sound definitions known outer)
    (hbody : body.Sound definitions (fun x ↦ x = name ∨ known x) fun _ ↦ True) :
    Sound definitions (fun x ↦ x = name ∨ known x) (.bound tag name body outer)
  | afresh (stamp : Nat) {known : String → Prop} {outer : Scope}
    (houter : Sound definitions known outer) : Sound definitions known (.afresh stamp outer)

/-- The grammar is sound, with values of any shape, in a sound scope. -/
def Closure.Sound (definitions : Definitions) (closure : Closure) : Prop :=
  ∃ known, closure.scope.Sound definitions known ∧
    closure.grammar.Sound definitions known fun _ ↦ True

variable {definitions : Definitions} {known : String → Prop}

/-- A known variable refers to a sound cell in a sound scope. -/
theorem Scope.Sound.lookup {scope : Scope} (h : scope.Sound definitions known) {x : String}
    (hx : known x) :
    ∃ outer tag body known', scope.lookup x = some ⟨outer, .fix tag x body⟩ ∧
      outer.Sound definitions known' ∧
      body.Sound definitions (fun y ↦ y = x ∨ known' y) fun _ ↦ True := by
  induction h with
  | blind scope => exact hx.elim
  | @bound tag known name body outer houter hbody ih =>
    by_cases hname : name = x
    · subst hname
      exact ⟨outer, tag, body, known, by simp only [Scope.lookup, if_true], houter, hbody⟩
    · obtain ⟨far, tag, body, known', hlookup, hfar⟩ := ih (hx.resolve_left (Ne.symm hname))
      exact ⟨far, tag, body, known', by simp only [Scope.lookup, if_neg hname, hlookup], hfar⟩
  | afresh stamp houter ih => exact ih hx

namespace Grammar

open Parse

variable {p q : Grammar} {shape given : Value → Prop} {good : Memory → Prop} {chars : Array Char}
  {bound : Nat}

/-- A definition is sound in its own scope. -/
theorem Sound.definition (hdefinitions : definitions.Sound) {name : String}
    (hget : definitions.get name = .ok p) (scope : Scope) : Closure.Sound definitions ⟨scope, p⟩ :=
  ⟨_, .blind scope, hdefinitions name p hget⟩

/-- Nothing is known of the values of a reference. -/
theorem Sound.shape_of_reference (hp : p.Sound definitions known shape) (href : p.IsReference)
    (v : Value) : shape v := by
  induction hp with
  | weaken _ hshape ih => exact hshape v (ih href)
  | use _ _ | lazy _ _ _ | lazyShared _ _ _ | fix _ _ | var _ => trivial
  | _ => exact href.elim

/-- A reference of a sound grammar leads to a sound one. -/
theorem Sound.behind (hdefinitions : definitions.Sound) (hp : p.Sound definitions known shape)
    (href : p.IsReference) {scope : Scope} (hscope : scope.Sound definitions known) :
    ∃ closure, definitions.behind scope p = .ok closure ∧ closure.Sound definitions := by
  induction hp with
  | weaken _ _ ih => exact ih href hscope
  | use _ hget =>
    exact ⟨_, by simp only [Definitions.behind, hget]; rfl, definition hdefinitions hget _⟩
  | lazy _ tag hget =>
    exact ⟨_, by simp only [Definitions.behind, hget]; rfl, definition hdefinitions hget _⟩
  | lazyShared _ tag hget =>
    exact ⟨_, by simp only [Definitions.behind, hget]; rfl, definition hdefinitions hget _⟩
  | fix tag hbody => exact ⟨_, rfl, _, .bound tag hscope hbody, hbody⟩
  | var hname =>
    obtain ⟨outer, tag, body, known', hlookup, houter, hbody⟩ := hscope.lookup hname
    exact ⟨_, by simp only [Definitions.behind, hlookup]; rfl, _, .bound tag houter hbody, hbody⟩
  | _ => exact href.elim

theorem safe_weaken {parse : Parse} (h : Safe good chars parse given)
    (hshape : ∀ v, given v → shape v) : Safe good chars parse shape :=
  fun place hplace ↦ (h place hplace).mono fun reply hreply ↦ by
    cases reply with
    | success rest value => exact ⟨hreply.1, hshape value hreply.2⟩
    | _ => exact hreply

/-- A sound grammar is safe in a reading when references, parsers made in a run and copied parse
functions are. -/
theorem Sound.safe_read {reading : Reading Scope} (hloops : reading.loops = .within bound)
    (hrefer : ∀ {known : String → Prop} {scope : Scope} {q : Grammar} {shape : Value → Prop},
      q.IsReference → scope.Sound definitions known → q.Sound definitions known shape →
        Safe good chars (reading.refer scope q) fun _ ↦ True)
    (hafresh : ∀ {known : String → Prop} {scope : Scope} {parse : Scope → Parse}
      {shape : Value → Prop}, scope.Sound definitions known →
        (∀ {inner}, inner.Sound definitions known → Safe good chars (parse inner) shape) →
        Safe good chars (reading.afresh scope parse) shape)
    (hcopied : ∀ {known : String → Prop} {scope : Scope} {q : Grammar} {parse : Parse}
      {shape : Value → Prop}, scope.Sound definitions known → q.Sound definitions known shape →
        Safe good chars parse shape → Safe good chars (reading.copied scope q parse) shape)
    (hp : p.Sound definitions known shape) :
    ∀ {scope : Scope}, scope.Sound definitions known →
      Safe good chars (p.read reading scope) shape := by
  induction hp with
  | weaken _ hshape ih => exact fun hscope ↦ safe_weaken (ih hscope) hshape
  | succeed known v => exact fun _ ↦ safe_succeed v
  | empty known => exact fun _ ↦ safe_empty
  | eof known => exact fun _ ↦ safe_eof
  | element known htest hdescribe => exact fun _ ↦ safe_element htest hdescribe
  | token known htest hdescribe => exact fun _ ↦ safe_token htest hdescribe
  | literal known hitems => exact fun _ ↦ safe_literal hitems
  | regex known htext => exact fun _ ↦ safe_regex htext
  | map _ hf ih => exact fun hscope ↦ safe_map (ih hscope) hf
  | mapOption _ hf ih => exact fun hscope ↦ safe_mapOption (ih hscope) hf
  | mapResult _ hf ih => exact fun hscope ↦ safe_mapResult (ih hscope) hf
  | compose _ _ happly ihp ihq => exact fun hscope ↦ safe_compose (ihp hscope) (ihq hscope) happly
  | bind _ hchoose _ ih ihnext =>
    exact fun hscope ↦ safe_chooseNext (ih hscope) hchoose fun v hv ↦ ihnext v hv hscope
  | both _ _ ihp ihq => exact fun hscope ↦ safe_both (ihp hscope) (ihq hscope)
  | left _ _ ihp ihq => exact fun hscope ↦ safe_left (ihp hscope) (ihq hscope)
  | right _ _ ihp ihq => exact fun hscope ↦ safe_right (ihp hscope) (ihq hscope)
  | mid _ _ _ ihp ihq ihr => exact fun hscope ↦ safe_mid (ihp hscope) (ihq hscope) (ihr hscope)
  | either _ _ ihp ihq => exact fun hscope ↦ safe_either (ihp hscope) (ihq hscope)
  | many _ ih =>
    intro scope hscope
    rw [read, hloops]
    exact safe_many (ih hscope)
  | oneOrMore _ ih =>
    intro scope hscope
    rw [read, hloops]
    exact safe_oneOrMore (ih hscope)
  | optional _ ih => exact fun hscope ↦ safe_optional (ih hscope)
  | count n _ ih => exact fun hscope ↦ safe_countFrom (ih hscope) n [] fun _ h ↦ nomatch h
  | chainLeft _ _ hfirst happly ihp ihop =>
    intro scope hscope
    rw [read, hloops]
    exact safe_chainLeft (ihp hscope) (ihop hscope) hfirst happly
  | chainRight _ _ hlast happly ihp ihop =>
    intro scope hscope
    rw [read, hloops]
    exact safe_chainRight (ihp hscope) (ihop hscope) hlast happly
  | lookAhead _ ih => exact fun hscope ↦ safe_lookAhead (ih hscope)
  | notFollowedBy _ ih => exact fun hscope ↦ safe_notFollowedBy (ih hscope)
  | annotate severity text _ ih => exact fun hscope ↦ safe_annotate severity text (ih hscope)
  | label name _ ih => exact fun hscope ↦ safe_label name (ih hscope)
  | inspect _ hobserve ih =>
    intro scope hscope
    refine safe_inspect (ih hscope) fun place reply hplace hreply ↦ ⟨(), ?_, trivial⟩
    cases place with
    | stream slot s => exact hobserve slot s reply hreply.onStream
    | stray v => exact hplace.elim
  | recover _ hdefault ih => exact fun hscope ↦ safe_recover (ih hscope) hdefault
  | trace name _ ih => exact fun hscope ↦ safe_trace name (ih hscope)
  | use known hget => exact fun hscope ↦ hrefer trivial hscope (.use known hget)
  | lazy known tag hget => exact fun hscope ↦ hrefer trivial hscope (.lazy known tag hget)
  | lazyShared known tag hget =>
    exact fun hscope ↦ hrefer trivial hscope (.lazyShared known tag hget)
  | fix tag hbody _ => exact fun hscope ↦ hrefer trivial hscope (.fix tag hbody)
  | var hname => exact fun hscope ↦ hrefer trivial hscope (.var hname)
  | afresh _ ih => exact fun hscope ↦ hafresh hscope ih
  | copied hp ih => exact fun hscope ↦ hcopied hscope hp (ih hscope)

/-- What a sound grammar means is safe within every bound. -/
theorem Sound.safe_eval (hdefinitions : definitions.Sound) (bound : Nat) :
    ∀ {known : String → Prop} {scope : Scope} {p : Grammar} {shape : Value → Prop},
      p.Sound definitions known shape → scope.Sound definitions known →
        Safe good chars (p.eval definitions bound scope) shape := by
  induction bound with
  | zero => exact fun _ _ _ _ ↦ Run.safe_unfinished
  | succ bound ih =>
    intro known scope p shape hp hscope
    refine hp.safe_read rfl (fun hq hscope hsound ↦ ?_) (fun hscope ih ↦ ih hscope)
      (fun _ _ h ↦ h) hscope
    obtain ⟨closure, hbehind, known', hinner, hclosure⟩ := hsound.behind hdefinitions hq hscope
    simp only [plain, hbehind]
    exact ih hclosure hinner

end Grammar

end DiagnosticParsing
