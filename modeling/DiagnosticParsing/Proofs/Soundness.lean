import DiagnosticParsing.Grammar.Construction
import DiagnosticParsing.Proofs.Soundness.Cells

/-!
# Sound grammars never raise on a text

Problems of a text show as failures and messages only: a sound grammar never raises on a text, at
the end of it or behind it neither (`Grammar.sound_never_raises`).

Grammars are sound by the typing rules of `DiagnosticParsing.Proofs.Soundness.Typing`. The parsers
that are built from others have rules of their own, which are consequences: those of characters, of
choices and lists, of patterns and of parsers chosen by a value. In an expression parser the
operator before or behind an operand may be absent, and each operator is applied to operands of one
shape (`Grammar.sound_expression`). An operator that maps everything to a fixed function has the
shape of that function alone (`Grammar.sound_const`).
-/

set_option autoImplicit false

namespace DiagnosticParsing

namespace Grammar

open Parse

variable {definitions : Definitions} {known : String → Prop} {p q : Grammar}
  {shape given : Value → Prop}

/-! ### Characters and patterns -/

/-- The value is one character. -/
def OneChar (v : Value) : Prop :=
  ∃ c, v = .char c

theorem sound_oneChar {test : Value → Except Fault Bool} {describe : Value → Except Fault String}
    (htest : ∀ c, ∃ passed, test (.char c) = .ok passed)
    (hdescribe : ∀ c, ∃ text, describe (.char c) = .ok text) :
    (element test describe).Sound definitions known OneChar :=
  (Sound.element known htest hdescribe).weaken fun _ ⟨c, hc, _⟩ ↦ ⟨c, hc⟩

theorem sound_satisfy {test : Value → Except Fault Bool}
    (htest : ∀ c, ∃ passed, test (.char c) = .ok passed) :
    (satisfy test).Sound definitions known OneChar :=
  sound_oneChar htest fun _ ↦ ⟨_, rfl⟩

/-- A test and a description that are functions of any value. -/
theorem sound_total (test : Value → Bool) (describe : Value → String) :
    (element (fun x ↦ .ok (test x)) fun x ↦ .ok (describe x)).Sound definitions known OneChar :=
  sound_oneChar (fun _ ↦ ⟨_, rfl⟩) fun _ ↦ ⟨_, rfl⟩

theorem sound_char (c : Value) : (char c).Sound definitions known OneChar :=
  sound_total _ _

theorem sound_space : space.Sound definitions known OneChar :=
  sound_total _ _

theorem sound_digit : digit.Sound definitions known OneChar :=
  sound_total _ _

theorem sound_letter : letter.Sound definitions known OneChar :=
  sound_total _ _

theorem sound_anyElement : anyElement.Sound definitions known OneChar :=
  sound_total _ _

/-- A character can be looked up in a text, and the characters of a text can be shown. -/
theorem sound_oneOf (text : String) : (oneOf (.text text)).Sound definitions known OneChar := by
  obtain ⟨members, hmembers⟩ := Value.joinedFrom_chars text.toList 0
  refine sound_oneChar (fun c ↦ ⟨_, Value.isIn_text c text⟩) fun c ↦ ?_
  simp only [Value.joined, Value.elements?, hmembers]
  exact ⟨_, rfl⟩

theorem sound_noneOf (text : String) : (noneOf (.text text)).Sound definitions known OneChar := by
  refine sound_oneChar (fun c ↦ ?_) fun _ ↦ ⟨_, rfl⟩
  rw [Value.isIn_text]
  exact ⟨_, rfl⟩

/-- A text that can be read as a pattern makes a pattern for texts. -/
theorem sound_regexOf {text : String} {flags : Pattern.Flags}
    (h : regexOf (.text text) flags = .ok p) :
    p.Sound definitions known fun v ↦ ∃ found, v = .text found := by
  unfold regexOf Pattern.ofValue at h
  cases hread : Pattern.read text.toList flags false with
  | error flaw =>
    simp only [hread, Except.map] at h
    exact nomatch h
  | ok read =>
    simp only [hread, Except.map, Except.ok.injEq] at h
    rw [← h]
    exact .regex known rfl

/-! ### Functions and parsers chosen by a value -/

/-- What maps every value to a fixed one. -/
theorem sound_const (hp : p.Sound definitions known given) (v : Value) :
    (map p (Function.const v).call).Sound definitions known (· = v) :=
  .map hp fun _ _ ↦ ⟨v, rfl, rfl⟩

/-- A choice that ends with a sound parser for every value. -/
theorem sound_bindTo {chooser : Chooser} (hp : p.Sound definitions known given)
    (hchoose : ∀ v, given v → ∃ chosen q, (chooser.choose v).outcome = .ok chosen ∧
      chosen.asParser = .ok q ∧ q.Sound definitions known shape) :
    (p.bindTo chooser).Sound definitions known shape := by
  refine .bind hp (fun v hv ↦ ?_) fun v hv ↦ ?_
  · obtain ⟨chosen, q, houtcome, hparser, -⟩ := hchoose v hv
    have hchosen : (chooser.choose v).Returns (· = chosen) := ⟨chosen, houtcome, rfl⟩
    refine hchosen.bind fun _ h ↦ ⟨(), ?_, trivial⟩
    rw [h, hparser]
    rfl
  · obtain ⟨chosen, q, houtcome, hparser, hq⟩ := hchoose v hv
    have hnext : chooser.next v = q := by
      simp only [Chooser.next, houtcome]
      cases chosen with
      | parser p => exact Except.ok.inj hparser
      | foreign p => exact Except.ok.inj hparser
      | value w => exact nomatch hparser
    rwa [hnext]

/-! ### White space, choices and lists -/

theorem sound_spaces : spaces.Sound definitions known (· = .null) :=
  sound_const (.many sound_space) .null

theorem sound_trim (hp : p.Sound definitions known shape) :
    (trim p).Sound definitions known shape :=
  .mid (.many sound_space) hp (.many sound_space)

theorem sound_choice {parsers : List Grammar}
    (h : ∀ p ∈ parsers, p.Sound definitions known shape) :
    (choice parsers).Sound definitions known shape := by
  cases parsers with
  | nil => exact (Sound.empty known).weaken fun _ h ↦ h.elim
  | cons p rest =>
    obtain ⟨hp, hrest⟩ := List.forall_mem_cons.mp h
    unfold choice
    clear h
    induction rest generalizing p with
    | nil => exact hp
    | cons q rest ih =>
      obtain ⟨hq, hrest⟩ := List.forall_mem_cons.mp hrest
      exact ih (either p q) (.either hp hq) hrest

theorem sound_sepBy1 (hp : p.Sound definitions known given) (hq : q.Sound definitions known shape) :
    (sepBy1 p q).Sound definitions known (ListOf given) := by
  refine .map (.both hp (.many (.right hq hp))) ?_
  rintro _ ⟨item, _, rfl, hitem, items, rfl, hitems⟩
  exact ⟨.list (item :: items), rfl, item :: items, rfl, List.forall_mem_cons.mpr ⟨hitem, hitems⟩⟩

theorem sound_sepBy (hp : p.Sound definitions known given) (hq : q.Sound definitions known shape) :
    (sepBy p q).Sound definitions known (ListOf given) := by
  have hnone : (succeed (.list [])).Sound definitions known (ListOf given) := by
    refine (Sound.succeed known (.list [])).weaken ?_
    rintro _ rfl
    exact ⟨[], rfl, fun _ h ↦ nomatch h⟩
  exact .either (sound_sepBy1 hp hq) hnone

theorem sound_endBy (hp : p.Sound definitions known given) (hq : q.Sound definitions known shape) :
    (endBy p q).Sound definitions known (ListOf given) :=
  .many (.left hp hq)

/-! ### Expressions -/

/-- What an operator of a kind has to do to operands of a shape: to return a value of the shape. -/
def Applies (shape : Value → Prop) (kind : OperatorKind) (f : Value) : Prop :=
  match kind with
  | .before | .behind => ∀ x, shape x → (f.apply x).Returns shape
  | .leftward | .rightward | .alone => ∀ x y, shape x → shape y → (f.apply₂ x y).Returns shape
  | .inert => True

/-- An operator that is absent leaves the operand as it is. -/
theorem applyIfAny_returns {f x : Value} (hf : f = .null ∨ ∀ x, shape x → (f.apply x).Returns shape)
    (hx : shape x) : (applyIfAny f x).Returns shape := by
  unfold applyIfAny
  split
  · exact ⟨x, rfl, hx⟩
  · rename_i hnull
    exact hf.resolve_left hnull x hx

theorem sound_affixed {before behind : List Grammar} {term : Grammar}
    (hterm : term.Sound definitions known shape)
    (hbefore : ∀ p ∈ before, p.Sound definitions known (Applies shape .before))
    (hbehind : ∀ p ∈ behind, p.Sound definitions known (Applies shape .behind)) :
    (affixed before behind term).Sound definitions known shape := by
  refine .map (.both (.both (.optional (sound_choice hbefore)) hterm)
    (.optional (sound_choice hbehind))) ?_
  rintro _ ⟨_, g, rfl, ⟨f, x, rfl, hf, hx⟩, hg⟩
  exact (applyIfAny_returns hf hx).bind fun y hy ↦ applyIfAny_returns hg hy

theorem sound_unchained {operand op : Grammar} (hoperand : operand.Sound definitions known shape)
    (hop : op.Sound definitions known (Applies shape .alone)) :
    (unchained operand op).Sound definitions known shape := by
  refine .bind hoperand (fun _ _ ↦ ⟨(), rfl, trivial⟩) fun x hx ↦ .either ?_ ?_
  · refine .map (.both hop hoperand) ?_
    rintro _ ⟨f, y, rfl, hf, hy⟩
    exact hf x y hx hy
  · refine (Sound.succeed known x).weaken ?_
    rintro _ rfl
    exact hx

/-- Where a level has operators of a kind, they are built around the parser of the operands. -/
theorem sound_around {operators : List Grammar} {operand : Grammar} (build : Grammar → Grammar)
    (hoperators : ∀ p ∈ operators, p.Sound definitions known given)
    (hoperand : operand.Sound definitions known shape)
    (hbuild : ∀ op, op.Sound definitions known given → (build op).Sound definitions known shape) :
    (match operators with
      | [] => operand
      | ops => build (choice ops)).Sound definitions known shape := by
  cases operators with
  | nil => exact hoperand
  | cons op rest => exact hbuild _ (sound_choice hoperators)

theorem sound_level {term : Grammar} {operators : List (Operator Grammar)}
    (hterm : term.Sound definitions known shape)
    (hoperators : ∀ operator ∈ operators, operator.kind ≠ .inert →
      operator.parser.Sound definitions known (Applies shape operator.kind)) :
    (level term operators).Sound definitions known shape := by
  have hkind (kind : OperatorKind) (hinert : kind ≠ .inert) :
      ∀ p ∈ Operator.ofKind kind operators, p.Sound definitions known (Applies shape kind) := by
    intro p hp
    obtain ⟨operator, hmem, rfl⟩ := List.mem_map.mp hp
    obtain ⟨hmem, heq⟩ := List.mem_filter.mp hmem
    have hoperator : operator.kind = kind := beq_iff_eq.mp heq
    rw [← hoperator] at hinert ⊢
    exact hoperators operator hmem hinert
  have hoperand := sound_affixed hterm (hkind .before nofun) (hkind .behind nofun)
  have hleftward := sound_around (chainLeft _) (hkind .leftward nofun) hoperand fun op hop ↦
    .chainLeft hoperand hop (fun _ h ↦ h) fun f x y hf hx hy ↦ hf x y hx hy
  have hrightward := sound_around (chainRight _) (hkind .rightward nofun) hleftward fun op hop ↦
    .chainRight hleftward hop (fun _ h ↦ h) fun f x y hf hx hy ↦ hf x y hx hy
  exact sound_around (unchained _) (hkind .alone nofun) hrightward fun op hop ↦
    sound_unchained hrightward hop

/-- The expression parser of a table is sound. Assumes: a sound parser of terms, and operators that
read functions which return on all operands of the shape of the terms. -/
theorem sound_expression {table : List (List (Operator Grammar))} {term : Grammar}
    (hterm : term.Sound definitions known shape)
    (htable : ∀ operators ∈ table, ∀ operator ∈ operators, operator.kind ≠ .inert →
      operator.parser.Sound definitions known (Applies shape operator.kind)) :
    (expression table term).Sound definitions known shape := by
  unfold expression
  induction table generalizing term with
  | nil => exact hterm
  | cons operators rest ih =>
    obtain ⟨hoperators, hrest⟩ := List.forall_mem_cons.mp htable
    exact ih (sound_level hterm hoperators) hrest

end Grammar

/-- The outcome is no fault. A run that came to an end failed, or succeeded with a value of the
shape and left a stream over the text. -/
def Outcome.Answers (chars : Array Char) (shape : Value → Prop) (outcome : Outcome Reply) : Prop :=
  outcome.result? = none ∨ outcome.result? = some (.ok .failure) ∨
    ∃ slot rest value, outcome.result? = some (.ok (.success (.stream slot rest) value)) ∧
      rest.source = .text chars ∧ shape value

theorem Outcome.Safe.answers {good : Memory → Prop} {chars : Array Char} {shape : Value → Prop}
    {outcome : Outcome Reply} (h : outcome.Safe good (Reply.OnText chars shape)) :
    outcome.Answers chars shape := by
  cases outcome with
  | done reply final =>
    obtain ⟨hreply, -⟩ := h
    cases reply with
    | failure => exact .inr (.inl rfl)
    | success rest value =>
      cases rest with
      | stream slot s => exact .inr (.inr ⟨slot, s, value, rfl, hreply.1, hreply.2⟩)
      | stray v => exact hreply.1.elim
    | malformed v => exact hreply.elim
  | faulted fault final => exact h.elim
  | unfinished => exact .inl rfl

namespace Grammar

open Parse

variable {definitions : Definitions} {p : Grammar} {shape : Value → Prop}

/-- No text makes a sound grammar raise. Started at any index of a text, also behind its end, with
any journal, a run that comes to an end is a failure, or a success with a value of the shape that
leaves a stream over the same text. That is so of what the grammar means, and of runs that keep what
they build: what the cells held before has to be sound, as it is when nothing has been built, and is
sound again when the run is done. Assumes: a sound grammar without free variables, and sound
definitions. -/
theorem sound_never_raises (hp : p.Sound definitions (fun _ ↦ False) shape)
    (hdefinitions : definitions.Sound) (slot : Option Nat) (chars : Array Char) (index : Nat)
    (position : Position) (journal : Journal) :
    (∀ bound, (p.eval definitions bound .top (.stream slot ⟨.text chars, index, position⟩)
        journal).Answers chars shape) ∧
      (journal.memory.All (Closure.Sound definitions) → ∀ bound,
        let outcome := p.runWithin definitions.world bound
          (.stream slot ⟨.text chars, index, position⟩) journal
        outcome.Answers chars shape ∧
          ∀ reply final, outcome = .done reply final →
            final.memory.All (Closure.Sound definitions)) := by
  refine ⟨fun bound ↦ ?_, fun hmemory bound ↦ ?_⟩
  · have hsafe : Safe (fun _ ↦ True) chars (p.eval definitions bound .top) shape :=
      hp.safe_eval hdefinitions bound (.blind .top)
    exact (hsafe (.stream slot ⟨.text chars, index, position⟩) rfl journal trivial).answers
  · have hexec : Safe (Memory.All (Closure.Sound definitions)) chars
        (definitions.world.exec bound 0 ⟨.top, p⟩) shape :=
      hp.safe_exec hdefinitions bound 0 (.blind .top)
    have hrun : (p.runWithin definitions.world bound
        (.stream slot ⟨.text chars, index, position⟩)).Safe
        (Memory.All (Closure.Sound definitions)) (Reply.OnText chars shape) := by
      refine (hexec (.stream slot ⟨.text chars, index, position⟩) rfl).bind fun reply hreply ↦
        Run.safe_ofExcept ⟨reply, ?_, hreply⟩
      cases reply with
      | malformed v => exact hreply.elim
      | _ => rfl
    refine ⟨(hrun journal hmemory).answers, fun reply final hdone ↦ ?_⟩
    have hsafe := hrun journal hmemory
    rw [hdone] at hsafe
    exact hsafe.2

/-- A digit, or a sum in parentheses. -/
def summand : Grammar :=
  either digit (mid (char (.text "(")) (lazy 0 "sum") (char (.text ")")))

/-- Sums of summands, each of which may have a sign, written as trees. -/
def sums : Definitions :=
  ⟨fun _ ↦ .ok (expression
    [[⟨.before, map (char (.text "-")) (Function.const (.function (.node "neg"))).call⟩],
      [⟨.leftward, map (char (.text "+")) (Function.const (.operation (.node "add"))).call⟩]]
    summand)⟩

/-- Sums with commas between them are read from the text "-1+": where the second summand is missing
the sign and the first one are read, and behind the end of the text there is no sum. -/
theorem sound_never_raises_sums :
    let list := sepBy (use "sum") (char (.text ","))
    let atStart := list.eval sums 4 .top (.fresh (.start (.text #['-', '1', '+']))) .empty
    let behindEnd := list.eval sums 4 .top (.fresh ⟨.text #['-', '1', '+'], 7, .origin⟩) .empty
    (atStart.Answers #['-', '1', '+'] (ListOf fun _ ↦ True) ∧
        behindEnd.Answers #['-', '1', '+'] (ListOf fun _ ↦ True)) ∧
      (list.run sums (.fresh (.start (.text #['-', '1', '+']))) .empty).Answers #['-', '1', '+']
        (ListOf fun _ ↦ True) ∧
      atStart.result? = some (.ok (.success (.fresh ⟨.text #['-', '1', '+'], 2, ⟨0, 2⟩⟩)
        (.list [.list [.text "neg", .text "1"]]))) ∧
      behindEnd.result? = some (.ok (.success (.fresh ⟨.text #['-', '1', '+'], 7, .origin⟩)
        (.list []))) := by
  have hsummand : summand.Sound sums (fun _ ↦ False) fun _ ↦ True :=
    .either (sound_digit.weaken fun _ _ ↦ trivial)
      (.mid (sound_char _) (.lazy _ 0 rfl) (sound_char _))
  have hsums : sums.Sound := by
    rintro name p ⟨⟩
    refine sound_expression hsummand fun operators hoperators operator hoperator _ ↦ ?_
    simp only [List.mem_cons, List.not_mem_nil, or_false] at hoperators
    rcases hoperators with rfl | rfl
    · rw [List.mem_singleton.mp hoperator]
      refine (sound_const (sound_char _) _).weaken ?_
      rintro _ rfl x _
      exact ⟨_, rfl, trivial⟩
    · rw [List.mem_singleton.mp hoperator]
      refine (sound_const (sound_char _) _).weaken ?_
      rintro _ rfl x y _ _
      exact ⟨_, rfl, trivial⟩
  have hlist : (sepBy (use "sum") (char (.text ","))).Sound sums (fun _ ↦ False)
      (ListOf fun _ ↦ True) :=
    sound_sepBy (.use _ rfl) (sound_char _)
  refine ⟨⟨?_, ?_⟩, ?_, rfl, rfl⟩
  · exact (sound_never_raises hlist hsums none _ 0 .origin .empty).1 4
  · exact (sound_never_raises hlist hsums none _ 7 .origin .empty).1 4
  · exact ((sound_never_raises hlist hsums none _ 0 .origin .empty).2 Memory.all_empty _).1

end Grammar

end DiagnosticParsing
