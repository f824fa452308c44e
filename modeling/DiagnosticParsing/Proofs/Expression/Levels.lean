import DiagnosticParsing.Proofs.Expression.Language
import DiagnosticParsing.Proofs.Expression.Reading

/-!
# What one level of operators reads

The parser of an operator language runs inside its own cell (`Inside`), where the variable leads
back to the parser. `inside.ReadsText count p text value` says that `p` reads a text wherever it
stands, provided that what follows is no operator of the first `count` levels.

Each level takes the parser of its operands, which reads texts of tighter levels, to a parser that
reads more. `inside.Begins index level text value` says what the level has got to when it has read a
text that it may still go on with: the operands of a chain so far, or an operator in front of an
operand. A text of an operand is such a beginning (`begins_operand`), an operator makes a longer one
out of shorter ones, and the level reads every beginning in front of which it has to stop
(`Begins.reads`).
-/

set_option autoImplicit false

namespace DiagnosticParsing

open Parse OperatorLanguage

/-- The inside of the cell of a language's parser. -/
structure Inside (language : OperatorLanguage) where
  /-- The definitions in force. -/
  definitions : Definitions
  /-- The label of the cell. -/
  label : Nat
  /-- The name of the variable. -/
  name : String
  /-- The bound on further references. -/
  bound : Nat
  /-- The journal. -/
  journal : Journal

namespace Inside

variable {language : OperatorLanguage} (inside : Inside language)

/-- What a part of the parser does. -/
def parse (p : Grammar) : Parse :=
  p.eval inside.definitions (inside.bound + 1)
    (.bound inside.label inside.name (language.body inside.name) .top)

/-- A part of the parser reads a text with a value, wherever the text stands, if what follows is no
operator of the first levels. -/
def ReadsText (count : Nat) (p : Grammar) (text : List Char) (value : Value) : Prop :=
  ∀ slot before following, language.Stops count following →
    (inside.parse p).Reads inside.journal (.stream slot (.standing before (text ++ following)))
      (.fresh (.standing (before ++ text) following)) value

/-! ### Single characters -/

theorem reads_char (c : Char) (slot : Option Nat) (before following : List Char) :
    (inside.parse (.char (.char c))).Reads inside.journal
      (.stream slot (.standing before (c :: following)))
      (.fresh (.standing (before ++ [c]) following)) (.char c) :=
  reads_element (by rw [Value.same_char, beq_self_eq_true])

theorem refuses_char (c : Char) (slot : Option Nat) (before : List Char) {following : List Char}
    (hother : ∀ d ∈ following.head?, c ≠ d) :
    (inside.parse (.char (.char c))).Refuses inside.journal
      (.stream slot (.standing before following)) := by
  cases following with
  | nil => exact refuses_element_nil
  | cons d following =>
    refine refuses_element ?_ ⟨_, rfl⟩
    rw [Value.same_char, beq_false_of_ne (hother d rfl).symm]

theorem reads_sign (build : Char → Value) (c : Char) (slot : Option Nat)
    (before following : List Char) :
    (inside.parse (.sign build c)).Reads inside.journal
      (.stream slot (.standing before (c :: following)))
      (.fresh (.standing (before ++ [c]) following)) (build c) :=
  (inside.reads_char c slot before following).map rfl

theorem refuses_sign (build : Char → Value) (c : Char) (slot : Option Nat) (before : List Char)
    {following : List Char} (hother : ∀ d ∈ following.head?, c ≠ d) :
    (inside.parse (.sign build c)).Refuses inside.journal
      (.stream slot (.standing before following)) :=
  (inside.refuses_char c slot before hother).map _

/-- What a choice does: its members are tried in turn. -/
theorem parse_choice (p : Grammar) (rest : List Grammar) :
    inside.parse (.choice (p :: rest)) =
      (rest.map inside.parse).foldl Parse.either (inside.parse p) := by
  rw [Grammar.choice]
  induction rest generalizing p with
  | nil => rfl
  | cons q rest ih => exact ih (.either p q)

/-- The parser of some operators reads each of them. -/
theorem reads_choice_sign (build : Char → Value) {signs : List Char} {c : Char} (hc : c ∈ signs)
    (slot : Option Nat) (before following : List Char) :
    (inside.parse (.choice (signs.map (.sign build)))).Reads inside.journal
      (.stream slot (.standing before (c :: following)))
      (.fresh (.standing (before ++ [c]) following)) (build c) := by
  cases signs with
  | nil => nomatch hc
  | cons first rest =>
    rw [List.map_cons, parse_choice, List.map_map]
    have hmem : inside.parse (.sign build c) ∈
        (first :: rest).map (inside.parse ∘ .sign build) := List.mem_map_of_mem hc
    have hreads := inside.reads_sign build c slot before following
    refine reads_foldl_either (fun q hq ↦ ?_) ⟨_, hmem, hreads⟩
    obtain ⟨d, hd, rfl⟩ : ∃ d ∈ first :: rest, inside.parse (.sign build d) = q :=
      List.mem_map.mp hq
    by_cases heq : d = c
    · rw [heq]
      exact .inl hreads
    · refine .inr (inside.refuses_sign build d slot before fun e he ↦ ?_)
      rwa [← Option.some.inj he]

/-- The parser of some operators refuses where none of them stands, also if there are none. -/
theorem refuses_choice_sign (build : Char → Value) {signs : List Char} (slot : Option Nat)
    (before : List Char) {following : List Char} (hother : ∀ d ∈ following.head?, d ∉ signs) :
    (inside.parse (.choice (signs.map (.sign build)))).Refuses inside.journal
      (.stream slot (.standing before following)) := by
  cases signs with
  | nil => exact ⟨_, rfl, inside.journal.rollback_mark⟩
  | cons first rest =>
    have hrefuses : ∀ c ∈ first :: rest, (inside.parse (.sign build c)).Refuses inside.journal
        (.stream slot (.standing before following)) := by
      intro c hc
      refine inside.refuses_sign build c slot before fun d hd heq ↦ hother d hd ?_
      rwa [← heq]
    rw [List.map_cons, parse_choice, List.map_map]
    refine (hrefuses first List.mem_cons_self).foldl_either fun q hq ↦ ?_
    obtain ⟨c, hc, rfl⟩ := List.mem_map.mp hq
    exact hrefuses c (List.mem_cons_of_mem first hc)

/-! ### Operands with operators beside them -/

/-- A level has read an operand and an operator of `signs` that may stand in front of it. -/
def Fronts (index : Nat) (signs : List Char) (text : List Char) (value : Value) : Prop :=
  ∃ f x, Grammar.applyIfAny f x = .pure value ∧
    inside.ReadsText index
      (.both (.optional (.choice (signs.map (.sign OperatorLevel.buildBeside))))
        (language.upTo inside.name index)) text (.tuple [f, x])

/-- What reads an operand in a chain of operators. -/
def plain (index : Nat) : Parse :=
  inside.parse (language.affixes inside.name index [] [])

/-- What reads an operator of a chain. -/
def operator (signs : List Char) : Parse :=
  inside.parse (.choice (signs.map (.sign OperatorLevel.buildBetween)))

variable {inside} {index count : Nat} {signs text second : List Char} {value last : Value}
  {c : Char}

/-- An operand without an operator in front of it. -/
theorem fronts_operand (hterm : inside.ReadsText index (language.upTo inside.name index) text value)
    (hfirst : ∀ d ∈ text.head?, d ∉ signs) (hlength : 0 < text.length) :
    inside.Fronts index signs text value := by
  refine ⟨.null, value, rfl, fun slot before following hstops ↦ ?_⟩
  obtain ⟨d, tail, rfl⟩ := List.exists_cons_of_length_pos hlength
  have hnone : (inside.parse (.choice (signs.map (.sign OperatorLevel.buildBeside)))).Refuses
      inside.journal (.stream slot (.standing before (d :: (tail ++ following)))) :=
    inside.refuses_choice_sign OperatorLevel.buildBeside slot before hfirst
  exact hnone.optional.both (hterm slot before following hstops)

/-- An operand with an operator in front of it. -/
theorem fronts_sign (hterm : inside.ReadsText index (language.upTo inside.name index) text value)
    (hc : c ∈ signs) : inside.Fronts index signs (c :: text) (.list [.char c, value]) := by
  refine ⟨OperatorLevel.buildBeside c, value, rfl, fun slot before following hstops ↦ ?_⟩
  have hsign := inside.reads_choice_sign OperatorLevel.buildBeside hc slot before
    (text ++ following)
  have hoperand := hterm none (before ++ [c]) following hstops
  rw [List.append_assoc] at hoperand
  exact hsign.optional.both hoperand

/-- The operators in front of an operand and behind it are applied in this order. -/
theorem applyAround_eq {f x y g : Value} (hfront : Grammar.applyIfAny f x = .pure y) :
    Grammar.applyAround (.tuple [.tuple [f, x], g]) = Grammar.applyIfAny g y := by
  rw [Grammar.applyAround, hfront]
  rfl

/-- An operand without an operator behind it, in front of what is no such operator. -/
theorem Fronts.reads {behinds : List Char} (hfronts : inside.Fronts index signs text value)
    (hle : index ≤ count)
    (hbehind : ∀ following, language.Stops count following → ∀ d ∈ following.head?, d ∉ behinds) :
    inside.ReadsText count (language.affixes inside.name index signs behinds) text value := by
  obtain ⟨f, x, hfront, hreads⟩ := hfronts
  intro slot before following hstops
  have hnone := inside.refuses_choice_sign OperatorLevel.buildBeside none (before ++ text)
    (hbehind following hstops)
  have hboth := (hreads slot before following (hstops.mono hle)).both hnone.optional
  exact hboth.map (applyAround_eq hfront)

/-- An operand with an operator behind it. -/
theorem Fronts.reads_sign {behinds : List Char} (hfronts : inside.Fronts index signs text value)
    (hc : c ∈ behinds) (hsign : language.HasSign index c) (count : Nat) :
    inside.ReadsText count (language.affixes inside.name index signs behinds)
      (text ++ [c]) (.list [.char c, value]) := by
  obtain ⟨f, x, hfront, hreads⟩ := hfronts
  intro slot before following _
  have hfirst := hreads slot before (c :: following) (stops_sign hsign following)
  have hbehind := inside.reads_choice_sign OperatorLevel.buildBeside hc none (before ++ text)
    following
  rw [List.append_assoc, List.singleton_append, ← List.append_assoc]
  exact (hfirst.both hbehind.optional).map (applyAround_eq hfront)

/-! ### Chains -/

/-- An operand of a level without operators beside operands. -/
theorem reads_plain (hterm : inside.ReadsText index (language.upTo inside.name index) text value)
    (hlength : 0 < text.length) :
    inside.ReadsText index (language.affixes inside.name index [] []) text value :=
  (fronts_operand hterm (fun _ _ ↦ List.not_mem_nil) hlength).reads (Nat.le_refl index)
    fun _ _ _ _ ↦ List.not_mem_nil

/-- An operator of a chain with its right operand. -/
theorem link_sign (hc : c ∈ signs) {before following : List Char} {rest : Place}
    (hoperand : (inside.plain index).Reads inside.journal
      (.fresh (.standing (before ++ [c]) following)) rest value) :
    Parse.link (inside.plain index) (inside.operator signs)
      (.fresh (.standing before (c :: following))) inside.journal =
        .done (some (rest, ⟨OperatorLevel.buildBetween c, value⟩)) inside.journal :=
  (inside.reads_choice_sign OperatorLevel.buildBetween hc none before following).link hoperand

variable (inside) in
/-- The operator parser of a level refuses where the level has to stop. -/
theorem operator_refuses (hsigns : ∀ d, language.HasSign index d ↔ d ∈ signs) (before : List Char)
    {following : List Char} (hstops : language.Stops (index + 1) following) :
    (inside.operator signs).Refuses inside.journal (.fresh (.standing before following)) :=
  inside.refuses_choice_sign OperatorLevel.buildBetween none before fun d hd hmem ↦
    hstops d hd index (Nat.lt_succ_self index) ((hsigns d).mpr hmem)

variable (inside) in
/-- A chain that is grouped from the left has combined a text to a value, in fewer rounds than the
text has characters, and goes on behind it with the rounds that are left. -/
def ChainsLeft (index : Nat) (signs : List Char) (text : List Char) (value : Value) : Prop :=
  ∃ rounds < text.length, ∀ slot before following extra, language.Stops index following →
    andThen (inside.plain index)
        (chainLeftFrom (inside.plain index) (inside.operator signs) (rounds + extra))
        (.stream slot (.standing before (text ++ following))) inside.journal =
      chainLeftFrom (inside.plain index) (inside.operator signs) extra
        (.fresh (.standing (before ++ text) following)) value inside.journal

theorem chainsLeft_operand
    (hoperand : inside.ReadsText index (language.affixes inside.name index [] []) text value)
    (hlength : 0 < text.length) : inside.ChainsLeft index signs text value := by
  refine ⟨0, hlength, fun slot before following extra hstops ↦ ?_⟩
  have hread : (inside.plain index).Reads _ _ _ _ := hoperand slot before following hstops
  rw [hread.andThen_eq, Nat.zero_add]

theorem ChainsLeft.sign (hchain : inside.ChainsLeft index signs text value)
    (hoperand : inside.ReadsText index (language.affixes inside.name index [] []) second last)
    (hc : c ∈ signs) (hsign : language.HasSign index c) :
    inside.ChainsLeft index signs (text ++ c :: second) (.list [.char c, value, last]) := by
  obtain ⟨rounds, hrounds, hruns⟩ := hchain
  refine ⟨rounds + 1, by simp only [List.length_append, List.length_cons]; omega, ?_⟩
  intro slot before following extra hstops
  have hbegin := hruns slot before (c :: (second ++ following)) (extra + 1)
    (stops_sign hsign (second ++ following))
  have hlink := link_sign hc
    (hoperand none (before ++ text ++ [c]) following hstops)
  rw [List.append_assoc, List.cons_append, Nat.add_assoc, Nat.add_comm 1, hbegin,
    chainLeftFrom_of_link hlink rfl, List.append_assoc, List.append_assoc]
  rfl

/-- A chain that has to stop leaves its value. -/
theorem ChainsLeft.reads (hchain : inside.ChainsLeft index signs text value)
    (hsigns : ∀ d, language.HasSign index d ↔ d ∈ signs) (hbound : text.length ≤ inside.bound + 1) :
    inside.ReadsText (index + 1)
      (Grouping.leftward.join (language.affixes inside.name index [] [])
        (.choice (signs.map (.sign OperatorLevel.buildBetween)))) text value := by
  obtain ⟨rounds, hrounds, hruns⟩ := hchain
  obtain ⟨extra, hextra⟩ : ∃ extra, inside.bound + 1 = rounds + (extra + 1) :=
    ⟨inside.bound - rounds, by omega⟩
  intro slot before following hstops
  have hrun := hruns slot before following (extra + 1) (hstops.mono (Nat.le_succ index))
  have hlink := (inside.operator_refuses hsigns (before ++ text) hstops).link (inside.plain index)
  rw [← hextra, chainLeftFrom_of_no_link hlink] at hrun
  exact hrun

variable (inside) in
/-- A chain that is grouped from the right has read the first operand of a text, and behind it turns
whatever is pending into what is pending for the value of the whole text. The rounds are fewer than
the text has characters. -/
def ChainsRight (index : Nat) (signs : List Char) (text : List Char) (value : Value) : Prop :=
  ∃ rounds < text.length, ∀ slot before following, language.Stops (index + 1) following →
    ∃ place first,
      (inside.plain index).Reads inside.journal
        (.stream slot (.standing before (text ++ following)))
        place first ∧
      ∀ extra links,
        chainRightFrom (inside.plain index) (inside.operator signs) (rounds + 1 + extra) place first
            links inside.journal =
          (unwind value links >>= fun combined ↦
            pure (.success (.fresh (.standing (before ++ text) following)) combined)) inside.journal

theorem chainsRight_operand
    (hoperand : inside.ReadsText index (language.affixes inside.name index [] []) text value)
    (hsigns : ∀ d, language.HasSign index d ↔ d ∈ signs) (hlength : 0 < text.length) :
    inside.ChainsRight index signs text value := by
  refine ⟨0, hlength, fun slot before following hstops ↦ ?_⟩
  refine ⟨_, _, hoperand slot before following (hstops.mono (Nat.le_succ index)), ?_⟩
  intro extra links
  have hlink := (inside.operator_refuses hsigns (before ++ text) hstops).link (inside.plain index)
  rw [Nat.zero_add, Nat.add_comm, chainRightFrom_of_no_link hlink]

theorem ChainsRight.sign (hchain : inside.ChainsRight index signs text value)
    (hoperand : inside.ReadsText index (language.affixes inside.name index [] []) second last)
    (hc : c ∈ signs) (hsign : language.HasSign index c) :
    inside.ChainsRight index signs (second ++ c :: text) (.list [.char c, last, value]) := by
  obtain ⟨rounds, hrounds, hruns⟩ := hchain
  refine ⟨rounds + 1, by simp only [List.length_append, List.length_cons]; omega, ?_⟩
  intro slot before following hstops
  have hread := hoperand slot before (c :: (text ++ following))
    (stops_sign hsign (text ++ following))
  obtain ⟨place, first, hfirst, hchain⟩ := hruns none (before ++ second ++ [c]) following hstops
  have hlink := link_sign hc hfirst
  have hbuild : (OperatorLevel.buildBetween c).apply₂ last value =
      .pure (.list [.char c, last, value]) := rfl
  rw [List.append_assoc, List.cons_append]
  refine ⟨_, _, hread, fun extra links ↦ ?_⟩
  rw [Nat.add_right_comm (rounds + 1) 1 extra, chainRightFrom_of_link hlink, hchain,
    Run.bind_apply, Run.bind_apply, unwind_cons hbuild,
    List.append_assoc, List.append_assoc]
  rfl

theorem ChainsRight.reads (hchain : inside.ChainsRight index signs text value)
    (hbound : text.length ≤ inside.bound + 1) :
    inside.ReadsText (index + 1)
      (Grouping.rightward.join (language.affixes inside.name index [] [])
        (.choice (signs.map (.sign OperatorLevel.buildBetween)))) text value := by
  obtain ⟨rounds, hrounds, hruns⟩ := hchain
  obtain ⟨extra, hextra⟩ : ∃ extra, inside.bound + 1 = rounds + 1 + extra :=
    ⟨inside.bound - rounds, by omega⟩
  intro slot before following hstops
  obtain ⟨place, first, hfirst, hchain⟩ := hruns slot before following hstops
  have hrun := hchain extra []
  rw [← hextra] at hrun
  exact (hfirst.andThen_eq fun rest first ↦ chainRightFrom (inside.plain index)
    (inside.operator signs) (inside.bound + 1) rest first []).trans hrun

/-! ### Operators that are not chained -/

/-- What comes behind the first operand of an operator that is not chained. -/
theorem alone_eq {place rest : Place}
    (hoperand : (inside.plain index).Reads inside.journal place rest value) :
    inside.parse (Grouping.alone.join (language.affixes inside.name index [] [])
        (.choice (signs.map (.sign OperatorLevel.buildBetween)))) place inside.journal =
      Parse.either (Parse.map (Parse.both (inside.operator signs) (inside.plain index))
        (Grammar.applyBetween value)) (succeed value) rest inside.journal :=
  hoperand.chooseNext_eq (fun _ ↦ .pure ()) rfl fun x ↦ Parse.either
    (Parse.map (Parse.both (inside.operator signs) (inside.plain index)) (Grammar.applyBetween x))
    (succeed x)

theorem reads_alone_operand
    (hoperand : inside.ReadsText index (language.affixes inside.name index [] []) text value)
    (hsigns : ∀ d, language.HasSign index d ↔ d ∈ signs) :
    inside.ReadsText (index + 1)
      (Grouping.alone.join (language.affixes inside.name index [] [])
        (.choice (signs.map (.sign OperatorLevel.buildBetween)))) text value := by
  intro slot before following hstops
  have hread := hoperand slot before following (hstops.mono (Nat.le_succ index))
  have hnone := inside.operator_refuses hsigns (before ++ text) hstops
  exact (alone_eq hread).trans (((hnone.both _).map _).either_eq _)

theorem reads_alone_sign
    (hfirst : inside.ReadsText index (language.affixes inside.name index [] []) text value)
    (hsecond : inside.ReadsText index (language.affixes inside.name index [] []) second last)
    (hc : c ∈ signs) (hsign : language.HasSign index c) :
    inside.ReadsText (index + 1)
      (Grouping.alone.join (language.affixes inside.name index [] [])
        (.choice (signs.map (.sign OperatorLevel.buildBetween)))) (text ++ c :: second)
      (.list [.char c, value, last]) := by
  intro slot before following hstops
  have hread := hfirst slot before (c :: (second ++ following))
    (stops_sign hsign (second ++ following))
  have hoperator := inside.reads_choice_sign OperatorLevel.buildBetween hc none (before ++ text)
    (second ++ following)
  have hoperand := hsecond none (before ++ text ++ [c]) following (hstops.mono (Nat.le_succ index))
  have hbuild : Grammar.applyBetween value (.tuple [OperatorLevel.buildBetween c, last]) =
      .pure (.list [.char c, value, last]) := rfl
  have hboth := ((hoperator.both hoperand).map hbuild).either (succeed value)
  rw [List.append_assoc, List.append_assoc, List.singleton_append] at hboth
  rw [List.append_assoc, List.cons_append]
  exact (alone_eq hread).trans hboth

/-! ### Beginnings -/

theorem ReadsText.mono {p : Grammar} (hreads : inside.ReadsText index p text value)
    (hle : index ≤ count) : inside.ReadsText count p text value :=
  fun slot before following hstops ↦ hreads slot before following (hstops.mono hle)

variable (inside) in
/-- What a level has got to when it has read a text and may go on. -/
def Begins (index : Nat) : OperatorLevel → (text : List Char) → (value : Value) → Prop
  | .between .leftward (c :: signs), text, value => inside.ChainsLeft index (c :: signs) text value
  | .between .rightward (c :: signs), text, value =>
    inside.ChainsRight index (c :: signs) text value
  | .between _ _, text, value =>
    inside.ReadsText index (language.affixes inside.name index [] []) text value
  | .beside signs, text, value =>
    inside.Fronts index (OperatorLevel.sideSigns .before signs) text value

variable {level : OperatorLevel}

/-- A level reads what it has begun, in front of what is no operator of it. -/
theorem Begins.reads (hbegins : inside.Begins index level text value)
    (hlevel : language.levels[index]? = some level) (hbound : text.length ≤ inside.bound + 1) :
    inside.ReadsText (index + 1) (language.upTo inside.name (index + 1)) text value := by
  have hsigns := hasSign_iff hlevel
  rw [upTo_succ hlevel]
  cases level with
  | between grouping signs =>
    cases signs with
    | nil =>
      have hplain :
          inside.ReadsText index (language.affixes inside.name index [] []) text value := by
        cases grouping <;> exact hbegins
      rw [OperatorLevel.level_between_nil]
      exact hplain.mono (Nat.le_succ index)
    | cons c signs =>
      rw [OperatorLevel.level_between_cons]
      cases grouping with
      | leftward => exact ChainsLeft.reads hbegins hsigns hbound
      | rightward => exact ChainsRight.reads hbegins hbound
      | alone => exact reads_alone_operand hbegins hsigns
  | beside signs =>
    rw [OperatorLevel.level_beside]
    refine Fronts.reads hbegins (Nat.le_succ index) fun following hstops d hd hmem ↦ ?_
    have hsign := (hsigns d).mpr (OperatorLevel.mem_signs_of_mem_sideSigns hmem)
    exact hstops d hd index (Nat.lt_succ_self index) hsign

/-- A text that tighter levels read begins a level, if it does not start with an operator of it. -/
theorem begins_operand (hlevel : language.levels[index]? = some level)
    (hterm : inside.ReadsText index (language.upTo inside.name index) text value)
    (hstarts : language.Starts index text) : inside.Begins index level text value := by
  have hsigns := hasSign_iff hlevel
  have hlength := hstarts.length_pos
  have hplain := reads_plain hterm hlength
  cases level with
  | between grouping signs =>
    cases signs with
    | nil => cases grouping <;> exact hplain
    | cons c signs =>
      cases grouping with
      | leftward => exact chainsLeft_operand hplain hlength
      | rightward => exact chainsRight_operand hplain hsigns hlength
      | alone => exact hplain
  | beside signs =>
    refine fronts_operand hterm (fun d hd hmem ↦ ?_) hlength
    obtain ⟨first, tail, rfl, hfirst⟩ := hstarts
    obtain rfl : first = d := Option.some.inj hd
    have hsign := (hsigns first).mpr (OperatorLevel.mem_signs_of_mem_sideSigns hmem)
    exact Nat.lt_irrefl index (hfirst index hsign)

variable {entries : List (Side × Char)}

/-- An operator that is grouped from the left makes a longer beginning. -/
theorem begins_leftward (hlevel : language.levels[index]? = some (.between .leftward signs))
    (hleft : inside.Begins index (.between .leftward signs) text value)
    (hright : inside.ReadsText index (language.upTo inside.name index) second last)
    (hlength : 0 < second.length) (hc : c ∈ signs) :
    inside.Begins index (.between .leftward signs) (text ++ c :: second)
      (.list [.char c, value, last]) := by
  have hsign : language.HasSign index c := ⟨_, hlevel, hc⟩
  cases signs with
  | nil => nomatch hc
  | cons first signs => exact ChainsLeft.sign hleft (reads_plain hright hlength) hc hsign

/-- An operator that is grouped from the right makes a longer beginning. -/
theorem begins_rightward (hlevel : language.levels[index]? = some (.between .rightward signs))
    (hleft : inside.ReadsText index (language.upTo inside.name index) second last)
    (hlength : 0 < second.length)
    (hright : inside.Begins index (.between .rightward signs) text value) (hc : c ∈ signs) :
    inside.Begins index (.between .rightward signs) (second ++ c :: text)
      (.list [.char c, last, value]) := by
  have hsign : language.HasSign index c := ⟨_, hlevel, hc⟩
  cases signs with
  | nil => nomatch hc
  | cons first signs => exact ChainsRight.sign hright (reads_plain hleft hlength) hc hsign

/-- An operator that is not chained ends what its level reads. -/
theorem reads_alone (hlevel : language.levels[index]? = some (.between .alone signs))
    (hleft : inside.ReadsText index (language.upTo inside.name index) text value)
    (hlength : 0 < text.length)
    (hright : inside.ReadsText index (language.upTo inside.name index) second last)
    (hlength' : 0 < second.length) (hc : c ∈ signs) :
    inside.ReadsText (index + 1) (language.upTo inside.name (index + 1)) (text ++ c :: second)
      (.list [.char c, value, last]) := by
  have hsign : language.HasSign index c := ⟨_, hlevel, hc⟩
  rw [upTo_succ hlevel]
  cases signs with
  | nil => nomatch hc
  | cons first signs =>
    rw [OperatorLevel.level_between_cons]
    exact reads_alone_sign (reads_plain hleft hlength) (reads_plain hright hlength') hc hsign

/-- An operator in front of an operand begins its level. -/
theorem begins_before
    (hterm : inside.ReadsText index (language.upTo inside.name index) text value)
    (hc : (.before, c) ∈ entries) :
    inside.Begins index (.beside entries) (c :: text) (.list [.char c, value]) :=
  fronts_sign hterm (OperatorLevel.mem_sideSigns.mpr hc)

/-- An operator behind an operand ends what its level reads. -/
theorem reads_behind (hlevel : language.levels[index]? = some (.beside entries))
    (hbegins : inside.Begins index (.beside entries) text value)
    (hc : (.behind, c) ∈ entries) :
    inside.ReadsText (index + 1) (language.upTo inside.name (index + 1)) (text ++ [c])
      (.list [.char c, value]) := by
  have hmem := OperatorLevel.mem_sideSigns.mpr hc
  have hsign : language.HasSign index c :=
    ⟨_, hlevel, OperatorLevel.mem_signs_of_mem_sideSigns hmem⟩
  rw [upTo_succ hlevel, OperatorLevel.level_beside]
  exact Fronts.reads_sign hbegins hmem hsign (index + 1)

end Inside

end DiagnosticParsing
