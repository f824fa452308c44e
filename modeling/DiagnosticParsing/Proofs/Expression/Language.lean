import DiagnosticParsing.Grammar.Characters
import DiagnosticParsing.Grammar.OperatorTable

/-!
# Operator languages

The languages of expressions over one operator table. An `OperatorLanguage` has atoms and operators
of one character each, in levels from the tightest binding to the loosest. A level holds operators
between two operands, all grouped in the same way, or operators in front of and behind one operand.
No two operators share a character, and none is an atom or a parenthesis.

`OperatorLanguage.grammar` is the parser of such a language: the expression parser of its table over
atoms and expressions in parentheses. A `Tree` is an expression as it is meant, `Tree.print` writes
it with no more parentheses than it needs, and `Tree.value` is the value that stands for it, which
determines it (`Tree.value_injective`).

Two facts about written trees decide how far each level of the parser reads. The first character of
a tree is no operator of a level looser than the tree (`Tree.starts_print`), and an operator belongs
to one level only (`OperatorLanguage.hasSign_unique`).
-/

set_option autoImplicit false

namespace DiagnosticParsing

/-! ### Levels of operators -/

/-- How a chain of operators between operands is grouped. -/
inductive Grouping where
  /-- From the left. -/
  | leftward
  /-- From the right. -/
  | rightward
  /-- Not at all: no operand has an operator of the same level. -/
  | alone
  deriving DecidableEq

/-- The kind of an operator that is grouped in a given way. -/
def Grouping.kind : Grouping → OperatorKind
  | leftward => .leftward
  | rightward => .rightward
  | alone => .alone

/-- On which side of its operand an operator stands. -/
inductive Side where
  /-- In front of it. -/
  | before
  /-- Behind it. -/
  | behind
  deriving DecidableEq

/-- The kind of an operator on a given side of its operand. -/
def Side.kind : Side → OperatorKind
  | before => .before
  | behind => .behind

/-- Operators of one precedence, each with the character by which it is written. -/
inductive OperatorLevel where
  /-- Operators between two operands. -/
  | between (grouping : Grouping) (signs : List Char)
  /-- Operators beside one operand. -/
  | beside (signs : List (Side × Char))
  deriving DecidableEq

/-- A character that stands for a function. -/
def Grammar.sign (build : Char → Value) (c : Char) : Grammar :=
  map (char (.char c)) (Function.const (build c)).call

namespace OperatorLevel

/-- The function that builds the node of an operator between two operands. -/
def buildBetween (c : Char) : Value :=
  .operation (.node (String.singleton c))

/-- The function that builds the node of an operator beside an operand. -/
def buildBeside (c : Char) : Value :=
  .function (.node (String.singleton c))

/-- The characters of the operators. -/
def signs : OperatorLevel → List Char
  | between _ signs => signs
  | beside signs => signs.map (·.2)

/-- The characters of the operators on one side of an operand. -/
def sideSigns (side : Side) (signs : List (Side × Char)) : List Char :=
  (signs.filter (·.1 == side)).map (·.2)

theorem mem_sideSigns {side : Side} {signs : List (Side × Char)} {c : Char} :
    c ∈ sideSigns side signs ↔ (side, c) ∈ signs := by
  simp [sideSigns]

theorem mem_signs_of_mem_sideSigns {side : Side} {signs : List (Side × Char)} {c : Char}
    (hc : c ∈ sideSigns side signs) : c ∈ (beside signs).signs :=
  List.mem_map.mpr ⟨(side, c), mem_sideSigns.mp hc, rfl⟩

/-- The operators as a level of a table. -/
def operators : OperatorLevel → List (Operator Grammar)
  | between grouping signs => signs.map fun c ↦ ⟨grouping.kind, .sign buildBetween c⟩
  | beside signs => signs.map fun entry ↦ ⟨entry.1.kind, .sign buildBeside entry.2⟩

end OperatorLevel

/-! ### The parser of a level -/

/-- The parser of operands with operators between them. -/
def Grouping.join : Grouping → (operand op : Grammar) → Grammar
  | leftward => .chainLeft
  | rightward => .chainRight
  | alone => .unchained

namespace OperatorLevel

open Grammar (level affixed choice)

theorem ofKind_between (kind : OperatorKind) (grouping : Grouping) (signs : List Char) :
    Operator.ofKind kind (between grouping signs).operators =
      if grouping.kind = kind then signs.map (.sign buildBetween) else [] := by
  rw [Operator.ofKind, operators, List.filter_map, List.map_map]
  by_cases hkind : grouping.kind = kind
  · rw [if_pos hkind]
    exact congrArg (List.map (Grammar.sign buildBetween))
      (List.filter_eq_self.mpr fun _ _ ↦ beq_iff_eq.mpr hkind)
  · rw [if_neg hkind, List.filter_eq_nil_iff.mpr fun _ _ ↦ by simpa using hkind]
    rfl

theorem ofKind_beside (side : Side) (signs : List (Side × Char)) :
    Operator.ofKind side.kind (beside signs).operators =
      (sideSigns side signs).map (.sign buildBeside) := by
  rw [Operator.ofKind, operators, List.filter_map, List.map_map, sideSigns, List.map_map]
  refine congrArg _ (List.filter_congr fun entry _ ↦ ?_)
  obtain ⟨other, c⟩ := entry
  cases side <;> cases other <;> rfl

/-- A level beside operands has no operators of a kind that stands between them. -/
theorem ofKind_beside_of_ne {kind : OperatorKind} (hkind : ∀ side : Side, side.kind ≠ kind)
    (signs : List (Side × Char)) : Operator.ofKind kind (beside signs).operators = [] := by
  rw [Operator.ofKind, operators, List.filter_map, List.map_map,
    List.filter_eq_nil_iff.mpr fun entry _ ↦ by simpa using hkind entry.1]
  rfl

theorem level_between_nil (term : Grammar) (grouping : Grouping) :
    level term (between grouping []).operators = affixed [] [] term :=
  rfl

theorem level_between_cons (term : Grammar) (grouping : Grouping) (c : Char) (signs : List Char) :
    level term (between grouping (c :: signs)).operators =
      grouping.join (affixed [] [] term) (choice ((c :: signs).map (.sign buildBetween))) := by
  cases grouping <;>
    simp only [level, ofKind_between, Grouping.kind, reduceCtorEq, if_false, if_true,
      List.map_cons, Grouping.join]

theorem level_beside (term : Grammar) (signs : List (Side × Char)) :
    level term (beside signs).operators =
      affixed ((sideSigns .before signs).map (.sign buildBeside))
        ((sideSigns .behind signs).map (.sign buildBeside)) term := by
  have hleftward : Operator.ofKind .leftward (beside signs).operators = [] :=
    ofKind_beside_of_ne (fun side ↦ by cases side <;> nofun) signs
  have hrightward : Operator.ofKind .rightward (beside signs).operators = [] :=
    ofKind_beside_of_ne (fun side ↦ by cases side <;> nofun) signs
  have halone : Operator.ofKind .alone (beside signs).operators = [] :=
    ofKind_beside_of_ne (fun side ↦ by cases side <;> nofun) signs
  rw [← ofKind_beside, ← ofKind_beside]
  simp only [level, hleftward, hrightward, halone]
  rfl

end OperatorLevel

/-! ### Languages -/

/-- A language of expressions. Only the opening parenthesis is kept from being an atom: no atom is
read where a closing one can stand. -/
structure OperatorLanguage where
  /-- The characters that are expressions on their own. -/
  atoms : String
  /-- The operators, those that bind tightest first. -/
  levels : List OperatorLevel
  /-- The operators are written differently from each other, -/
  distinct : (levels.flatMap OperatorLevel.signs).Nodup
  /-- from the atoms, -/
  notAtoms : ∀ c ∈ levels.flatMap OperatorLevel.signs, c ∉ atoms.toList
  /-- and from parentheses. -/
  notParentheses : ∀ c ∈ levels.flatMap OperatorLevel.signs, c ≠ '(' ∧ c ≠ ')'
  /-- An opening parenthesis is not read as an atom. -/
  opening : '(' ∉ atoms.toList

namespace OperatorLanguage

variable {language : OperatorLanguage}

/-- An atom, or an expression in parentheses. -/
def simple (language : OperatorLanguage) (name : String) : Grammar :=
  .either (.oneOf (.text language.atoms)) (.mid (.char (.char '(')) (.var name) (.char (.char ')')))

/-- The expression parser of the levels that bind tightest. -/
def upTo (language : OperatorLanguage) (name : String) (count : Nat) : Grammar :=
  .expression ((language.levels.take count).map OperatorLevel.operators) (language.simple name)

/-- The operands of the next level, with some operators in front of them and some behind. -/
def affixes (language : OperatorLanguage) (name : String) (index : Nat)
    (fronts behinds : List Char) : Grammar :=
  .affixed (fronts.map (.sign OperatorLevel.buildBeside))
    (behinds.map (.sign OperatorLevel.buildBeside)) (language.upTo name index)

/-- The expression parser of the whole table. The variable in it stands for the parser itself. -/
def body (language : OperatorLanguage) (name : String) : Grammar :=
  .expression (language.levels.map OperatorLevel.operators) (language.simple name)

/-- The parser of the language. -/
def grammar (language : OperatorLanguage) (label : Nat) (name : String) : Grammar :=
  .fix label name (language.body name)

theorem upTo_succ {index : Nat} {level : OperatorLevel}
    (hlevel : language.levels[index]? = some level) (name : String) :
    language.upTo name (index + 1) = .level (language.upTo name index) level.operators := by
  rw [upTo, List.take_add_one, hlevel, Option.toList_some, List.map_append, Grammar.expression,
    List.foldl_append]
  rfl

theorem upTo_length (language : OperatorLanguage) (name : String) :
    language.upTo name language.levels.length = language.body name := by
  rw [upTo, List.take_length, body]

/-- A character is an operator of the level with a given index. -/
def HasSign (language : OperatorLanguage) (index : Nat) (c : Char) : Prop :=
  ∃ level, language.levels[index]? = some level ∧ c ∈ level.signs

theorem HasSign.mem {index : Nat} {c : Char} (hsign : language.HasSign index c) :
    c ∈ language.levels.flatMap OperatorLevel.signs := by
  obtain ⟨level, hlevel, hc⟩ := hsign
  exact List.mem_flatMap.mpr ⟨level, List.mem_of_getElem? hlevel, hc⟩

theorem hasSign_iff {index : Nat} {level : OperatorLevel}
    (hlevel : language.levels[index]? = some level) (c : Char) :
    language.HasSign index c ↔ c ∈ level.signs := by
  constructor
  · rintro ⟨other, hother, hc⟩
    rw [hlevel] at hother
    rwa [Option.some.inj hother]
  · intro hc
    exact ⟨level, hlevel, hc⟩

/-- No operator of a level occurs in a later one. -/
theorem not_hasSign_of_lt {first second : Nat} (hlt : first < second) {c : Char}
    (hfirst : language.HasSign first c) : ¬ language.HasSign second c := by
  intro hsecond
  obtain ⟨level, hlevel, hc⟩ := hfirst
  obtain ⟨other, hother, hc'⟩ := hsecond
  have hdisjoint := (List.pairwise_flatMap.mp language.distinct).2
  obtain ⟨hfirst, rfl⟩ := List.getElem?_eq_some_iff.mp hlevel
  obtain ⟨hsecond, rfl⟩ := List.getElem?_eq_some_iff.mp hother
  exact List.pairwise_iff_getElem.mp hdisjoint first second hfirst hsecond hlt c hc c hc' rfl

/-- An operator belongs to one level only. -/
theorem hasSign_unique {first second : Nat} {c : Char} (hfirst : language.HasSign first c)
    (hsecond : language.HasSign second c) : first = second := by
  rcases Nat.lt_trichotomy first second with hlt | heq | hgt
  · exact absurd hsecond (not_hasSign_of_lt hlt hfirst)
  · exact heq
  · exact absurd hfirst (not_hasSign_of_lt hgt hsecond)

/-- Within a level that stands beside operands, an operator stands on one side only. -/
theorem side_unique {index : Nat} {signs : List (Side × Char)}
    (hlevel : language.levels[index]? = some (.beside signs)) {first second : Side} {c : Char}
    (hfirst : (first, c) ∈ signs) (hsecond : (second, c) ∈ signs) : first = second := by
  have hdistinct : (signs.map (·.2)).Nodup :=
    (List.pairwise_flatMap.mp language.distinct).1 _ (List.mem_of_getElem? hlevel)
  have hpairwise := List.pairwise_iff_getElem.mp (List.pairwise_map.mp hdistinct)
  obtain ⟨i, hi, hgeti⟩ := List.getElem_of_mem hfirst
  obtain ⟨j, hj, hgetj⟩ := List.getElem_of_mem hsecond
  rcases Nat.lt_trichotomy i j with hlt | rfl | hgt
  · exact absurd (by rw [hgeti, hgetj]) (hpairwise i j hi hj hlt)
  · exact (Prod.mk.inj (hgeti.symm.trans hgetj)).1
  · exact absurd (by rw [hgeti, hgetj]) (hpairwise j i hj hi hgt)

/-! ### Where texts start and stop -/

/-- What follows is no operator of the first levels: a parser of these levels stops in front of
it. -/
def Stops (language : OperatorLanguage) (count : Nat) (following : List Char) : Prop :=
  ∀ c ∈ following.head?, ∀ index < count, ¬ language.HasSign index c

/-- A text starts with a character that is no operator but of the first levels. -/
def Starts (language : OperatorLanguage) (count : Nat) (text : List Char) : Prop :=
  ∃ c tail, text = c :: tail ∧ ∀ index, language.HasSign index c → index < count

theorem Stops.mono {count more : Nat} {following : List Char}
    (hstops : language.Stops more following) (hle : count ≤ more) :
    language.Stops count following :=
  fun c hc index hindex ↦ hstops c hc index (by omega)

theorem Starts.mono {count more : Nat} {text : List Char} (hstarts : language.Starts count text)
    (hle : count ≤ more) : language.Starts more text := by
  obtain ⟨c, tail, htext, hc⟩ := hstarts
  exact ⟨c, tail, htext, fun index hsign ↦ by have := hc index hsign; omega⟩

theorem Starts.append {count : Nat} {text : List Char} (hstarts : language.Starts count text)
    (more : List Char) : language.Starts count (text ++ more) := by
  obtain ⟨c, tail, rfl, hc⟩ := hstarts
  exact ⟨c, tail ++ more, rfl, hc⟩

theorem Starts.length_pos {count : Nat} {text : List Char} (hstarts : language.Starts count text) :
    0 < text.length := by
  obtain ⟨c, tail, rfl, -⟩ := hstarts
  exact Nat.succ_pos _

theorem stops_nil (count : Nat) : language.Stops count [] :=
  fun _ hc ↦ nomatch hc

/-- The parsers of tighter levels stop in front of an operator. -/
theorem stops_sign {index : Nat} {c : Char} (hsign : language.HasSign index c)
    (following : List Char) : language.Stops index (c :: following) := by
  intro d hd other hother hsign'
  obtain rfl : c = d := Option.some.inj hd
  have := hasSign_unique hsign hsign'
  omega

/-- Every parser of expressions stops in front of a closing parenthesis. -/
theorem stops_closing (count : Nat) (following : List Char) :
    language.Stops count (')' :: following) := by
  intro c hc index _ hsign
  obtain rfl : ')' = c := Option.some.inj hc
  exact (language.notParentheses _ hsign.mem).2 rfl

theorem starts_opening (tail : List Char) : language.Starts 0 ('(' :: tail) :=
  ⟨'(', tail, rfl, fun _ hsign ↦ absurd rfl (language.notParentheses _ hsign.mem).1⟩

theorem starts_atom {c : Char} (hc : c ∈ language.atoms.toList) (tail : List Char) :
    language.Starts 0 (c :: tail) :=
  ⟨c, tail, rfl, fun _ hsign ↦ absurd hc (language.notAtoms _ hsign.mem)⟩

theorem starts_sign {index : Nat} {c : Char} (hsign : language.HasSign index c)
    (tail : List Char) : language.Starts (index + 1) (c :: tail) :=
  ⟨c, tail, rfl, fun other hother ↦ by have := hasSign_unique hsign hother; omega⟩

end OperatorLanguage

/-! ### Trees -/

/-- An operator of a language between two operands. -/
structure Connective (language : OperatorLanguage) where
  /-- The index of its level. -/
  level : Nat
  /-- How it is grouped. -/
  grouping : Grouping
  /-- How it is written. -/
  sign : Char
  /-- It is an operator of the language. -/
  listed : ∃ signs, language.levels[level]? = some (.between grouping signs) ∧ sign ∈ signs

/-- An operator of a language beside one operand. -/
structure Modifier (language : OperatorLanguage) where
  /-- The index of its level. -/
  level : Nat
  /-- The side on which it stands. -/
  side : Side
  /-- How it is written. -/
  sign : Char
  /-- It is an operator of the language. -/
  listed : ∃ signs, language.levels[level]? = some (.beside signs) ∧ (side, sign) ∈ signs

/-- An expression of a language. -/
inductive Tree (language : OperatorLanguage) where
  /-- An atom. -/
  | atom (c : Char) (listed : c ∈ language.atoms.toList)
  /-- An operator with the operands on both sides of it. -/
  | between (op : Connective language) (left right : Tree language)
  /-- An operator with its one operand. -/
  | beside (op : Modifier language) (operand : Tree language)

variable {language : OperatorLanguage}

theorem Connective.hasSign (op : Connective language) : language.HasSign op.level op.sign := by
  obtain ⟨signs, hlevel, hsign⟩ := op.listed
  exact ⟨_, hlevel, hsign⟩

theorem Modifier.hasSign (op : Modifier language) : language.HasSign op.level op.sign := by
  obtain ⟨signs, hlevel, hsign⟩ := op.listed
  exact ⟨_, hlevel, List.mem_map.mpr ⟨_, hsign, rfl⟩⟩

/-- An operator between operands is determined by its character. -/
theorem Connective.eq_of_sign {first second : Connective language}
    (hsign : first.sign = second.sign) : first = second := by
  have hlevel : first.level = second.level :=
    OperatorLanguage.hasSign_unique (hsign ▸ first.hasSign) second.hasSign
  obtain ⟨level, grouping, sign, signs, hfirst, hmem⟩ := first
  obtain ⟨level', grouping', sign', signs', hsecond, hmem'⟩ := second
  obtain rfl : level = level' := hlevel
  obtain rfl : sign = sign' := hsign
  rw [hfirst] at hsecond
  obtain ⟨rfl, rfl⟩ := OperatorLevel.between.inj (Option.some.inj hsecond)
  rfl

/-- An operator beside an operand is determined by its character. -/
theorem Modifier.eq_of_sign {first second : Modifier language}
    (hsign : first.sign = second.sign) : first = second := by
  have hlevel : first.level = second.level :=
    OperatorLanguage.hasSign_unique (hsign ▸ first.hasSign) second.hasSign
  obtain ⟨level, side, sign, signs, hfirst, hmem⟩ := first
  obtain ⟨level', side', sign', signs', hsecond, hmem'⟩ := second
  obtain rfl : level = level' := hlevel
  obtain rfl : sign = sign' := hsign
  obtain rfl : signs = signs' := by
    rw [hfirst] at hsecond
    exact OperatorLevel.beside.inj (Option.some.inj hsecond)
  obtain rfl : side = side' := OperatorLanguage.side_unique hfirst hmem hmem'
  rfl

theorem Value.char_injective {c d : Char} (h : Value.char c = Value.char d) : c = d :=
  String.singleton_inj.mp (Value.text.inj h)

namespace Tree

/-- The number of levels that a parser needs to read a tree without parentheses around it. -/
def rank : Tree language → Nat
  | atom _ _ => 0
  | between op _ _ => op.level + 1
  | beside op _ => op.level + 1

/-- The tree is an operator in front of its operand. -/
def isFronted : Tree language → Bool
  | beside op _ => op.side = .before
  | _ => false

/-- Whether an operand of an operator is written in parentheses: always if it is looser than the
level of the operator, and if it is of that level when `own` says so. -/
def enclosed (operand : Tree language) (level : Nat) (own : Bool) : Bool :=
  level + 1 < operand.rank || (operand.rank = level + 1 && own)

/-- A text, in parentheses if asked for. -/
def enclose (asked : Bool) (text : List Char) : List Char :=
  if asked then '(' :: (text ++ [')']) else text

/-- A tree as it is written. -/
def print : Tree language → List Char
  | atom c _ => [c]
  | between op left right =>
    enclose (left.enclosed op.level (op.grouping ≠ .leftward)) left.print ++
      op.sign :: enclose (right.enclosed op.level (op.grouping ≠ .rightward)) right.print
  | beside op operand =>
    match op.side with
    | .before => op.sign :: enclose (operand.enclosed op.level true) operand.print
    | .behind => enclose (operand.enclosed op.level !operand.isFronted) operand.print ++ [op.sign]

/-- A tree as it is built by the functions that the operators stand for. -/
def value : Tree language → Value
  | atom c _ => .char c
  | between op left right => .list [.char op.sign, left.value, right.value]
  | beside op operand => .list [.char op.sign, operand.value]

/-- A tree is determined by its value. -/
theorem value_injective {first second : Tree language} (h : first.value = second.value) :
    first = second := by
  induction first generalizing second with
  | atom c hc =>
    cases second with
    | atom d hd =>
      obtain rfl : c = d := Value.char_injective h
      rfl
    | between op left right => nomatch h
    | beside op operand => nomatch h
  | between op left right ihleft ihright =>
    cases second with
    | atom d hd => nomatch h
    | between op' left' right' =>
      simp only [value, Value.list.injEq, List.cons.injEq, and_true] at h
      obtain ⟨hsign, hleft, hright⟩ := h
      rw [Connective.eq_of_sign (Value.char_injective hsign), ihleft hleft, ihright hright]
    | beside op' operand' => simp [value] at h
  | beside op operand ih =>
    cases second with
    | atom d hd => nomatch h
    | between op' left' right' => simp [value] at h
    | beside op' operand' =>
      simp only [value, Value.list.injEq, List.cons.injEq, and_true] at h
      obtain ⟨hsign, hoperand⟩ := h
      rw [Modifier.eq_of_sign (Value.char_injective hsign), ih hoperand]

/-- The levels of the operators of a language bound the rank of a tree. -/
theorem rank_le (tree : Tree language) : tree.rank ≤ language.levels.length := by
  have hbound (index : Nat) (level : OperatorLevel)
      (hlevel : language.levels[index]? = some level) : index + 1 ≤ language.levels.length := by
    obtain ⟨hindex, -⟩ := List.getElem?_eq_some_iff.mp hlevel
    exact hindex
  cases tree with
  | atom c hc => exact Nat.zero_le _
  | between op left right =>
    obtain ⟨signs, hlevel, -⟩ := op.listed
    exact hbound op.level _ hlevel
  | beside op operand =>
    obtain ⟨signs, hlevel, -⟩ := op.listed
    exact hbound op.level _ hlevel

/-- An operand without parentheses is of its operator's level at most, and tighter if operands of
that level are to be enclosed. -/
theorem rank_le_of_not_enclosed {operand : Tree language} {level : Nat} {own : Bool}
    (h : operand.enclosed level own = false) :
    operand.rank ≤ level + 1 ∧ (own = true → operand.rank ≤ level) := by
  simp only [enclosed, Bool.or_eq_false_iff, decide_eq_false_iff_not, Bool.and_eq_false_iff] at h
  obtain ⟨hloose, hown⟩ := h
  refine ⟨by omega, fun htrue ↦ ?_⟩
  rcases hown with hrank | hfalse
  · omega
  · rw [htrue] at hfalse
    nomatch hfalse

theorem starts_enclose {operand : Tree language} {level : Nat} {own : Bool}
    (hstarts : ∀ count, operand.rank ≤ count → language.Starts count operand.print) :
    language.Starts (level + 1) (enclose (operand.enclosed level own) operand.print) := by
  cases h : operand.enclosed level own with
  | true => exact (OperatorLanguage.starts_opening _).mono (Nat.zero_le _)
  | false => exact hstarts _ (rank_le_of_not_enclosed h).1

/-- A written tree starts with a character that is no operator but of a level of the tree. -/
theorem starts_print (tree : Tree language) :
    ∀ count, tree.rank ≤ count → language.Starts count tree.print := by
  induction tree with
  | atom c hc => exact fun count _ ↦ (OperatorLanguage.starts_atom hc []).mono (Nat.zero_le _)
  | between op left right ihleft ihright =>
    exact fun count hrank ↦ ((starts_enclose ihleft).append _).mono hrank
  | beside op operand ih =>
    intro count hrank
    rw [print]
    cases op.side with
    | before => exact (OperatorLanguage.starts_sign op.hasSign _).mono hrank
    | behind => exact ((starts_enclose ih).append _).mono hrank

end Tree

end DiagnosticParsing
