import DiagnosticParsing.Proofs.Expression.Levels

/-!
# Writing and reading expressions

The parser of an operator language reads back every expression that is written in it:
`Tree.eval_print` says that the parse of a written tree ends with the value of the tree, at the end
of the input, and with no message in the log.

The induction is on trees (`Tree.readable`). What it carries is `Tree.Readable`: at every bound that
the length of the written tree allows, the parser of the first levels reads the tree if its operator
is of one of them, and each level may begin with it if the tree can be an operand of its own level.
Parentheses lead back to the parser itself, within a bound that is smaller by one; the text between
them is shorter by two characters.
-/

set_option autoImplicit false

namespace DiagnosticParsing

open Parse OperatorLanguage

variable {language : OperatorLanguage}

/-! ### Atoms and parentheses -/

namespace Inside

variable {inside : Inside language}

theorem reads_atom {c : Char} (hc : c ∈ language.atoms.toList) :
    inside.ReadsText 0 (language.upTo inside.name 0) [c] (.char c) := by
  intro slot before following _
  have hatom : (inside.parse (.oneOf (.text language.atoms))).Reads inside.journal
      (.stream slot (.standing before (c :: following)))
      (.fresh (.standing (before ++ [c]) following)) (.char c) :=
    reads_element (by rw [Value.isIn_text, decide_eq_true hc])
  exact hatom.either _

/-- The same cell within another bound. -/
def within (inside : Inside language) (bound : Nat) : Inside language :=
  { inside with bound }

/-- The variable runs the parser again, within a smaller bound. -/
theorem parse_var {bound : Nat} (hbound : inside.bound = bound + 1) :
    inside.parse (.var inside.name) = (inside.within bound).parse (language.body inside.name) := by
  simp only [parse, within, hbound, Grammar.eval, Grammar.meaning, Grammar.read, Grammar.plain,
    Definitions.behind, Scope.lookup, if_true, Closure.opened]

/-- What the parser reads within a smaller bound is read in parentheses. -/
theorem reads_enclosed {bound : Nat} (hbound : inside.bound = bound + 1) {text : List Char}
    {value : Value}
    (hreads : (inside.within bound).ReadsText language.levels.length (language.body inside.name)
      text value) :
    inside.ReadsText 0 (language.upTo inside.name 0) ('(' :: (text ++ [')'])) value := by
  intro slot before following _
  obtain ⟨members, hmembers⟩ := Value.joinedFrom_chars language.atoms.toList 0
  have hatom : (inside.parse (.oneOf (.text language.atoms))).Refuses inside.journal
      (.stream slot (.standing before ('(' :: (text ++ [')']) ++ following))) := by
    refine refuses_element (by rw [Value.isIn_text, decide_eq_false language.opening]) ?_
    simp only [Value.joined, Value.elements?, hmembers]
    exact ⟨_, rfl⟩
  have hinner : (inside.parse (.var inside.name)).Reads inside.journal
      (.fresh (.standing (before ++ ['(']) (text ++ ')' :: following)))
      (.fresh (.standing (before ++ ['('] ++ text) (')' :: following))) value := by
    rw [parse_var hbound]
    exact hreads none (before ++ ['(']) (')' :: following) (stops_closing _ following)
  have hopening := inside.reads_char '(' slot before (text ++ ')' :: following)
  have hclosing := inside.reads_char ')' none (before ++ ['('] ++ text) following
  have hmid := hopening.mid hinner hclosing
  have htext : '(' :: (text ++ [')']) ++ following = '(' :: (text ++ ')' :: following) := by
    rw [List.cons_append, List.append_assoc, List.singleton_append]
  have hbefore : before ++ '(' :: (text ++ [')']) = before ++ ['('] ++ text ++ [')'] := by
    rw [List.append_assoc, List.append_assoc, List.singleton_append]
  rw [htext] at hatom ⊢
  rw [hbefore]
  exact (hatom.either_eq _).trans hmid

/-- Looser levels pass on what tighter ones read. -/
theorem ReadsText.up {count more : Nat} {text : List Char} {value : Value}
    (hreads : inside.ReadsText count (language.upTo inside.name count) text value)
    (hstarts : language.Starts count text) (hbound : text.length ≤ inside.bound + 1)
    (hle : count ≤ more) (hmore : more ≤ language.levels.length) :
    inside.ReadsText more (language.upTo inside.name more) text value := by
  induction hle with
  | refl => exact hreads
  | step hle ih =>
    have hlevel := List.getElem?_eq_getElem hmore
    have hterm := ih (Nat.le_of_succ_le hmore)
    exact (begins_operand hlevel hterm (hstarts.mono hle)).reads hlevel hbound

end Inside

/-! ### Trees -/

namespace Tree

/-- The tree can be an operand of an operator of its own level: its level can go on behind it. -/
def isOpen : Tree language → Bool
  | atom _ _ => false
  | between op _ _ => op.grouping ≠ .alone
  | beside op _ => op.side = .before

/-- A written tree is read as far as its operator allows. -/
structure Readable (tree : Tree language) : Prop where
  /-- The parser of the first levels reads it, if its operator is of one of them. -/
  reads : ∀ (inside : Inside language) (count : Nat), tree.print.length ≤ inside.bound + 1 →
    tree.rank ≤ count → count ≤ language.levels.length →
      inside.ReadsText count (language.upTo inside.name count) tree.print tree.value
  /-- A level may begin with it, if it is tighter or can be an operand of its own level. -/
  begins : ∀ (inside : Inside language) (index : Nat) (level : OperatorLevel),
    language.levels[index]? = some level → tree.print.length ≤ inside.bound + 1 →
      tree.rank ≤ index + 1 → (tree.rank = index + 1 → tree.isOpen) →
        inside.Begins index level tree.print tree.value

variable {tree operand : Tree language} {inside : Inside language} {index : Nat}
  {level : OperatorLevel} {own : Bool}

theorem succ_le_of_level (hlevel : language.levels[index]? = some level) :
    index + 1 ≤ language.levels.length := by
  obtain ⟨hindex, -⟩ := List.getElem?_eq_some_iff.mp hlevel
  exact hindex

/-- A level may begin with a tighter tree. -/
theorem begins_of_rank_le (hlevel : language.levels[index]? = some level)
    (hreads : inside.ReadsText index (language.upTo inside.name index) tree.print tree.value)
    (hrank : tree.rank ≤ index) : inside.Begins index level tree.print tree.value :=
  Inside.begins_operand hlevel hreads (tree.starts_print index hrank)

/-- A tree that begins its level is readable. -/
theorem Readable.of_begins (hlevel : language.levels[index]? = some level)
    (hrank : tree.rank = index + 1)
    (hbegins : ∀ inside : Inside language, tree.print.length ≤ inside.bound + 1 →
      inside.Begins index level tree.print tree.value) : tree.Readable := by
  have hreads : ∀ (inside : Inside language) (count : Nat), tree.print.length ≤ inside.bound + 1 →
      tree.rank ≤ count → count ≤ language.levels.length →
        inside.ReadsText count (language.upTo inside.name count) tree.print tree.value := by
    intro inside count hbound hcount hlevels
    rw [hrank] at hcount
    exact ((hbegins inside hbound).reads hlevel hbound).up (tree.starts_print _ (by omega)) hbound
      hcount hlevels
  refine ⟨hreads, fun inside other level' hlevel' hbound hle _ ↦ ?_⟩
  by_cases hown : tree.rank = other + 1
  · obtain rfl : index = other := by omega
    obtain rfl : level = level' := Option.some.inj (hlevel.symm.trans hlevel')
    exact hbegins inside hbound
  · have htight : tree.rank ≤ other := by omega
    have hother := succ_le_of_level hlevel'
    exact begins_of_rank_le hlevel' (hreads inside other hbound htight (by omega)) htight

/-- A tree that ends its level is readable. -/
theorem Readable.of_reads (hopen : tree.isOpen = false)
    (hreads : ∀ inside : Inside language, tree.print.length ≤ inside.bound + 1 →
      inside.ReadsText tree.rank (language.upTo inside.name tree.rank) tree.print tree.value) :
    tree.Readable := by
  have hup : ∀ (inside : Inside language) (count : Nat), tree.print.length ≤ inside.bound + 1 →
      tree.rank ≤ count → count ≤ language.levels.length →
        inside.ReadsText count (language.upTo inside.name count) tree.print tree.value :=
    fun inside count hbound hcount hlevels ↦ (hreads inside hbound).up
      (tree.starts_print _ (Nat.le_refl _)) hbound hcount hlevels
  refine ⟨hup, fun inside other level' hlevel' hbound hle hown ↦ ?_⟩
  have htight : tree.rank ≤ other := by
    by_cases hrank : tree.rank = other + 1
    · rw [hopen] at hown
      nomatch hown hrank
    · omega
  have hother := succ_le_of_level hlevel'
  exact begins_of_rank_le hlevel' (hup inside other hbound htight (by omega)) htight

/-! ### Operands -/

/-- An operand in parentheses is read by every parser of some of the levels. -/
theorem Readable.reads_enclosed (hoperand : operand.Readable)
    (hbound : (enclose true operand.print).length ≤ inside.bound + 1)
    (hindex : index ≤ language.levels.length) :
    inside.ReadsText index (language.upTo inside.name index) (enclose true operand.print)
      operand.value := by
  have hlength : (enclose true operand.print).length = operand.print.length + 2 := by
    simp [enclose]
  have hpos : 0 < operand.print.length := (operand.starts_print _ (Nat.le_refl _)).length_pos
  obtain ⟨bound, hbound'⟩ : ∃ bound, inside.bound = bound + 1 := ⟨inside.bound - 1, by omega⟩
  have hinner := hoperand.reads (inside.within bound) language.levels.length
    (show operand.print.length ≤ bound + 1 by omega) operand.rank_le (Nat.le_refl _)
  rw [upTo_length] at hinner
  exact (Inside.reads_enclosed hbound' hinner).up (starts_opening _) hbound (Nat.zero_le index)
    hindex

/-- An operand where operands of the operator's own level are enclosed is read by the parser of the
tighter levels. -/
theorem Readable.reads_tight (hoperand : operand.Readable) (hown : own = true)
    (hlevel : language.levels[index]? = some level)
    (hbound : (enclose (operand.enclosed index own) operand.print).length ≤ inside.bound + 1) :
    inside.ReadsText index (language.upTo inside.name index)
      (enclose (operand.enclosed index own) operand.print) operand.value := by
  have hindex : index ≤ language.levels.length := by
    have := succ_le_of_level hlevel
    omega
  cases henclosed : operand.enclosed index own with
  | true =>
    rw [henclosed] at hbound
    exact hoperand.reads_enclosed hbound hindex
  | false =>
    rw [henclosed] at hbound
    exact hoperand.reads inside index hbound ((rank_le_of_not_enclosed henclosed).2 hown) hindex

/-- A level may begin with an operand, unless the operand is of that level, stands without
parentheses and cannot be an operand of its own level. -/
theorem Readable.begins_operand (hoperand : operand.Readable)
    (hlevel : language.levels[index]? = some level)
    (hopen : operand.rank = index + 1 → operand.enclosed index own = false → operand.isOpen = true)
    (hbound : (enclose (operand.enclosed index own) operand.print).length ≤ inside.bound + 1) :
    inside.Begins index level (enclose (operand.enclosed index own) operand.print)
      operand.value := by
  have hindex : index ≤ language.levels.length := by
    have := succ_le_of_level hlevel
    omega
  cases henclosed : operand.enclosed index own with
  | true =>
    rw [henclosed] at hbound
    have hreads := hoperand.reads_enclosed hbound hindex
    exact Inside.begins_operand hlevel hreads ((starts_opening _).mono (Nat.zero_le index))
  | false =>
    rw [henclosed] at hbound
    exact hoperand.begins inside index level hlevel hbound (rank_le_of_not_enclosed henclosed).1
      fun hrank ↦ hopen hrank henclosed

/-- An operand of a level of chains can be an operand of that level. -/
theorem isOpen_of_between {grouping : Grouping} {signs : List Char}
    (hlevel : language.levels[index]? = some (.between grouping signs))
    (hgrouping : grouping ≠ .alone) (hrank : operand.rank = index + 1) : operand.isOpen = true := by
  cases operand with
  | atom c hc => nomatch hrank
  | between op left right =>
    obtain ⟨signs', hlevel', -⟩ := op.listed
    obtain rfl : op.level = index := Nat.succ.inj hrank
    rw [hlevel] at hlevel'
    obtain ⟨rfl, -⟩ := OperatorLevel.between.inj (Option.some.inj hlevel')
    exact decide_eq_true hgrouping
  | beside op operand =>
    obtain ⟨signs', hlevel', -⟩ := op.listed
    obtain rfl : op.level = index := Nat.succ.inj hrank
    rw [hlevel] at hlevel'
    nomatch hlevel'

/-- An operand of an operator behind it that stands without parentheses and is of the same level is
an operator in front of its own operand. -/
theorem isOpen_of_not_enclosed (hrank : operand.rank = index + 1)
    (henclosed : operand.enclosed index (!operand.isFronted) = false) : operand.isOpen = true := by
  have hfronted : operand.isFronted = true := by
    cases hfronted : operand.isFronted with
    | true => rfl
    | false =>
      have htight := (rank_le_of_not_enclosed henclosed).2 (by rw [hfronted]; rfl)
      omega
  cases operand with
  | atom c hc => nomatch hfronted
  | between op left right => nomatch hfronted
  | beside op operand => exact hfronted

theorem length_enclose_pos (operand : Tree language) (index : Nat) (own : Bool) :
    0 < (enclose (operand.enclosed index own) operand.print).length :=
  (starts_enclose operand.starts_print).length_pos

/-! ### The induction -/

theorem readable_atom (c : Char) (hc : c ∈ language.atoms.toList) :
    (atom c hc : Tree language).Readable :=
  .of_reads rfl fun _ _ ↦ Inside.reads_atom hc

/-- The operands of an operator between them are written with no more characters than the whole. -/
theorem length_operands_le {op : Connective language} {left right : Tree language} {bound : Nat}
    (hbound : (between op left right).print.length ≤ bound) :
    (enclose (left.enclosed op.level (op.grouping ≠ .leftward)) left.print).length ≤ bound ∧
      (enclose (right.enclosed op.level (op.grouping ≠ .rightward)) right.print).length ≤
        bound := by
  rw [print, List.length_append, List.length_cons] at hbound
  omega

theorem readable_leftward {op : Connective language} (hgrouping : op.grouping = .leftward)
    {left right : Tree language} (hleft : left.Readable) (hright : right.Readable) :
    (between op left right).Readable := by
  obtain ⟨signs, hlevel, hsign⟩ := op.listed
  refine .of_begins hlevel rfl fun inside hbound ↦ ?_
  obtain ⟨hboundLeft, hboundRight⟩ := length_operands_le hbound
  have hown : decide (op.grouping ≠ .rightward) = true := by simp [hgrouping]
  have hpos := length_enclose_pos right op.level (op.grouping ≠ .rightward)
  rw [hgrouping] at hlevel ⊢
  have hbegins := hleft.begins_operand hlevel
    (fun hrank _ ↦ isOpen_of_between hlevel nofun hrank) hboundLeft
  have hreads := hright.reads_tight hown hlevel hboundRight
  exact Inside.begins_leftward hlevel hbegins hreads hpos hsign

theorem readable_rightward {op : Connective language} (hgrouping : op.grouping = .rightward)
    {left right : Tree language} (hleft : left.Readable) (hright : right.Readable) :
    (between op left right).Readable := by
  obtain ⟨signs, hlevel, hsign⟩ := op.listed
  refine .of_begins hlevel rfl fun inside hbound ↦ ?_
  obtain ⟨hboundLeft, hboundRight⟩ := length_operands_le hbound
  have hown : decide (op.grouping ≠ .leftward) = true := by simp [hgrouping]
  have hpos := length_enclose_pos left op.level (op.grouping ≠ .leftward)
  rw [hgrouping] at hlevel ⊢
  have hreads := hleft.reads_tight hown hlevel hboundLeft
  have hbegins := hright.begins_operand hlevel
    (fun hrank _ ↦ isOpen_of_between hlevel nofun hrank) hboundRight
  exact Inside.begins_rightward hlevel hreads hpos hbegins hsign

theorem readable_alone {op : Connective language} (hgrouping : op.grouping = .alone)
    {left right : Tree language} (hleft : left.Readable) (hright : right.Readable) :
    (between op left right).Readable := by
  obtain ⟨signs, hlevel, hsign⟩ := op.listed
  have hopen : (between op left right).isOpen = false := by simp [isOpen, hgrouping]
  refine .of_reads hopen fun inside hbound ↦ ?_
  obtain ⟨hboundLeft, hboundRight⟩ := length_operands_le hbound
  have hownLeft : decide (op.grouping ≠ .leftward) = true := by simp [hgrouping]
  have hownRight : decide (op.grouping ≠ .rightward) = true := by simp [hgrouping]
  have hposLeft := length_enclose_pos left op.level (op.grouping ≠ .leftward)
  have hposRight := length_enclose_pos right op.level (op.grouping ≠ .rightward)
  rw [hgrouping] at hlevel
  have hreadsLeft := hleft.reads_tight hownLeft hlevel hboundLeft
  have hreadsRight := hright.reads_tight hownRight hlevel hboundRight
  exact Inside.reads_alone hlevel hreadsLeft hposLeft hreadsRight hposRight hsign

theorem readable_between (op : Connective language) {left right : Tree language}
    (hleft : left.Readable) (hright : right.Readable) : (between op left right).Readable := by
  cases hgrouping : op.grouping with
  | leftward => exact readable_leftward hgrouping hleft hright
  | rightward => exact readable_rightward hgrouping hleft hright
  | alone => exact readable_alone hgrouping hleft hright

theorem readable_beside (op : Modifier language) {operand : Tree language}
    (hoperand : operand.Readable) : (beside op operand).Readable := by
  obtain ⟨level, side, sign, signs, hlevel, hsign⟩ := op
  cases side with
  | before =>
    refine .of_begins hlevel rfl fun inside hbound ↦ ?_
    have hlength :
        (enclose (operand.enclosed level true) operand.print).length ≤ inside.bound + 1 :=
      Nat.le_of_succ_le hbound
    exact Inside.begins_before (hoperand.reads_tight rfl hlevel hlength) hsign
  | behind =>
    refine .of_reads rfl fun inside hbound ↦ ?_
    have hlength : (enclose (operand.enclosed level (!operand.isFronted)) operand.print).length ≤
        inside.bound + 1 := by
      simp only [print, List.length_append] at hbound
      omega
    exact Inside.reads_behind hlevel
      (hoperand.begins_operand hlevel isOpen_of_not_enclosed hlength) hsign

/-- Every tree is readable. -/
theorem readable (tree : Tree language) : tree.Readable := by
  induction tree with
  | atom c hc => exact readable_atom c hc
  | between op left right ihleft ihright => exact readable_between op ihleft ihright
  | beside op operand ih => exact readable_beside op ih

/-- The parser of a language reads back what is written in it. Run on a written tree, within any
bound that is greater than the number of characters, it succeeds with the value of this tree and of
no other, leaves nothing of the input and logs nothing. -/
theorem eval_print (tree : Tree language) (definitions : Definitions) (label : Nat) (name : String)
    {bound : Nat} (hbound : tree.print.length < bound) (slot : Option Nat) (journal : Journal) :
    ∃ rest final,
      (language.grammar label name).eval definitions bound .top
        (.stream slot (.ofText (String.ofList tree.print))) journal =
          .done (.success (.fresh rest) tree.value) final ∧
      rest.isEmpty = true ∧ final.log = journal.log ∧
      ∀ other : Tree language, other.value = tree.value → other = tree := by
  have hpos : 0 < tree.print.length := (tree.starts_print _ (Nat.le_refl _)).length_pos
  obtain ⟨bound, rfl⟩ : ∃ inner, bound = inner + 2 := ⟨bound - 2, by omega⟩
  let inside : Inside language := ⟨definitions, label, name, bound, journal⟩
  have hreads : (inside.parse (language.body inside.name)).Reads inside.journal
      (.stream slot (.standing [] (tree.print ++ []))) (.fresh (.standing ([] ++ tree.print) []))
      tree.value := by
    rw [← upTo_length]
    exact tree.readable.reads inside _ (Nat.le_of_lt_succ hbound) tree.rank_le (Nat.le_refl _) slot
      [] [] (stops_nil _)
  rw [List.append_nil, List.nil_append] at hreads
  have htext : Stream.ofText (String.ofList tree.print) = .standing [] tree.print := by
    rw [Stream.ofText_eq_standing, String.toList_ofList]
  rw [htext]
  exact ⟨_, journal, hreads, Stream.isEmpty_standing _, rfl, fun _ hvalue ↦ value_injective hvalue⟩

/-- Signs and factorials, products, powers and comparisons, over two letters. -/
def arithmetic : OperatorLanguage where
  atoms := "ab"
  levels := [.beside [(.before, '-'), (.behind, '!')], .between .leftward ['*', '/'],
    .between .rightward ['^'], .between .alone ['<']]
  distinct := by decide
  notAtoms := by simp [OperatorLevel.signs]
  notParentheses := by simp [OperatorLevel.signs]
  opening := by decide

/-- A comparison with operators of every level and two operands that need parentheses. -/
def comparison : Tree arithmetic :=
  let minus : Modifier arithmetic := ⟨0, .before, '-', _, rfl, by decide⟩
  let factorial : Modifier arithmetic := ⟨0, .behind, '!', _, rfl, by decide⟩
  let times : Connective arithmetic := ⟨1, .leftward, '*', _, rfl, by decide⟩
  let power : Connective arithmetic := ⟨2, .rightward, '^', _, rfl, by decide⟩
  let less : Connective arithmetic := ⟨3, .alone, '<', _, rfl, by decide⟩
  let a : Tree arithmetic := .atom 'a' (by decide)
  let b : Tree arithmetic := .atom 'b' (by decide)
  .between less (.between power (.beside factorial (.beside minus a)) b)
    (.between times (.between less a b) (.beside minus (.beside minus b)))

/-- The comparison is read back as it was meant. -/
theorem eval_print_comparison :
    comparison.print.length < 20 ∧ String.ofList comparison.print = "-a!^b<(a<b)*-(-b)" ∧
    ∃ rest final,
      (arithmetic.grammar 0 "expression").eval .none 20 .top
        (.stream none (.ofText (String.ofList comparison.print))) .empty =
          .done (.success (.fresh rest) comparison.value) final ∧
      rest.isEmpty = true ∧ final.log = Journal.empty.log ∧
      ∀ other : Tree arithmetic, other.value = comparison.value → other = comparison := by
  have hlength : comparison.print.length < 20 := by decide
  have hprint : String.ofList comparison.print = "-a!^b<(a<b)*-(-b)" := by decide
  exact ⟨hlength, hprint, comparison.eval_print .none 0 "expression" hlength none .empty⟩

end Tree

end DiagnosticParsing
