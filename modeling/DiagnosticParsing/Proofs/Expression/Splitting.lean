import DiagnosticParsing.Grammar.Construction
import DiagnosticParsing.Grammar.Meaning
import DiagnosticParsing.Proofs.Expression.Language
import DiagnosticParsing.Proofs.Expression.Reading
import DiagnosticParsing.Proofs.ProperReplies

/-!
# Levels of mixed operators

A level of an operator table can hold operators of every kind. How they bind relative to each other
is told by splitting the level into three: operators before and behind an operand and those grouped
from the left bind tightest, then those grouped from the right, then those that are not grouped
(`Operator.split`). The expression parser stays the same, down to what it logs and notes
(`Grammar.mixed_level_split`). So only the order among operators of the same kind counts, operators
without a place make no difference, nor does an empty level.

A level around an operand always looks for an operator before it and for one behind it. When the
level has none, it finds none, logs nothing and applies nothing (`Parse.around_without_signs`), so
that it does what its operand does, as far as the operand is proper. The parser of a level always is
(`Grammar.proper_level`). What the levels above do depends on nothing but what this one does
(`Grammar.meaning_expression_congr`).
-/

set_option autoImplicit false

namespace DiagnosticParsing

/-! ### Splitting a level -/

namespace Operator

variable {α : Type} {kind : OperatorKind} {kinds : List OperatorKind}

/-- The operators of some kinds, in the order in which they stand. -/
def only (kinds : List OperatorKind) (operators : List (Operator α)) : List (Operator α) :=
  operators.filter (kinds.contains ·.kind)

/-- The levels into which a level comes apart: what stands before and behind an operand and what is
grouped from the left, what is grouped from the right, and what stands alone. -/
def split (operators : List (Operator α)) : List (List (Operator α)) :=
  [only [.before, .behind, .leftward] operators, only [.rightward] operators,
    only [.alone] operators]

theorem ofKind_only (hkind : kind ∈ kinds) (operators : List (Operator α)) :
    ofKind kind (only kinds operators) = ofKind kind operators := by
  rw [ofKind, only, List.filter_filter, ofKind]
  refine congrArg _ (List.filter_congr fun operator _ ↦ ?_)
  by_cases h : operator.kind = kind
  · simp [h, hkind]
  · simp [h]

theorem ofKind_only_of_not_mem (hkind : kind ∉ kinds) (operators : List (Operator α)) :
    ofKind kind (only kinds operators) = [] := by
  rw [ofKind, only, List.filter_filter, List.filter_eq_nil_iff.mpr, List.map_nil]
  intro operator _ h
  simp only [Bool.and_eq_true, beq_iff_eq, List.contains_iff_mem] at h
  exact hkind (h.1 ▸ h.2)

theorem ofKind_append (first last : List (Operator α)) :
    ofKind kind (first ++ last) = ofKind kind first ++ ofKind kind last := by
  simp only [ofKind, List.filter_append, List.map_append]

/-- An operator of another kind does not count. -/
theorem ofKind_cons_of_ne {operator : Operator α} (hkind : operator.kind ≠ kind)
    (operators : List (Operator α)) :
    ofKind kind (operator :: operators) = ofKind kind operators := by
  rw [ofKind, List.filter_cons_of_neg (by simpa using hkind), ofKind]

theorem ofKind_map {β : Type} (f : α → β) (operators : List (Operator α)) :
    ofKind kind (operators.map fun operator ↦ ⟨operator.kind, f operator.parser⟩) =
      (ofKind kind operators).map f := by
  rw [ofKind, List.filter_map, List.map_map, ofKind, List.map_map]
  rfl

end Operator

/-! ### An operand without operators around it -/

namespace Parse

open Run

variable {p : Parse}

/-- An operator that does not exist is not found, and nothing is logged. -/
theorem optional_empty : optional empty = succeed .null := by
  funext place
  ext journal
  exact congrArg (Outcome.done _) (Journal.rollback_mark journal)

/-- Without operators around it an operand is handed on. -/
theorem around_without_signs (p : Parse) :
    map (both (both (optional empty) p) (optional empty)) Grammar.applyAround =
      andThen p fun rest value ↦ return .success rest value := by
  have hbefore : both (succeed .null) p =
      andThen p fun rest value ↦ return .success rest (.tuple [.null, value]) := rfl
  have hbehind (q : Parse) : both q (succeed .null) =
      andThen q fun rest value ↦ return .success rest (.tuple [value, .null]) := rfl
  rw [optional_empty, hbefore, hbehind, andThen_of_success p, map, andThen_of_success p]
  rfl

end Parse

/-! ### What a level means -/

/-- Operands with operators between them, if there are any. -/
def Grouping.joinAny (grouping : Grouping) (operand : Grammar) : List Grammar → Grammar
  | [] => operand
  | ops => grouping.join operand (Grammar.choice ops)

namespace Grammar

/-- The operators of a level around an operand, kind by kind. -/
theorem level_eq (term : Grammar) (operators : List (Operator Grammar)) :
    level term operators =
      Grouping.alone.joinAny
        (Grouping.rightward.joinAny
          (Grouping.leftward.joinAny
            (affixed (Operator.ofKind .before operators) (Operator.ofKind .behind operators) term)
            (Operator.ofKind .leftward operators))
          (Operator.ofKind .rightward operators))
        (Operator.ofKind .alone operators) := by
  unfold level Grouping.joinAny
  rfl

section Meaning

variable {definitions : Definitions} {enter : Scope → Grammar → Parse} {bound : Nat} {scope : Scope}
  {term term' : Grammar}

theorem meaning_affixed (before behind : List Grammar) (term : Grammar) :
    (affixed before behind term).meaning definitions enter bound scope =
      Parse.map (Parse.both
        (Parse.both (Parse.optional ((choice before).meaning definitions enter bound scope))
          (term.meaning definitions enter bound scope))
        (Parse.optional ((choice behind).meaning definitions enter bound scope))) applyAround :=
  rfl

/-- Without operators around it an operand is handed on. -/
theorem meaning_affixed_nil (term : Grammar) :
    (affixed [] [] term).meaning definitions enter bound scope =
      Parse.andThen (term.meaning definitions enter bound scope) fun rest value ↦
        return .success rest value :=
  Parse.around_without_signs _

/-- That an operand was handed on does not show behind further operators around it. -/
theorem meaning_affixed_affixed_nil (before behind : List Grammar) (term : Grammar) :
    (affixed before behind (affixed [] [] term)).meaning definitions enter bound scope =
      (affixed before behind term).meaning definitions enter bound scope := by
  rw [meaning_affixed before behind, meaning_affixed before behind, meaning_affixed_nil]
  simp only [Parse.both, Parse.andThen_of_success _ fun value ↦ value]

/-- What operators between operands do depends on nothing but what the operands do. -/
theorem meaning_joinAny_congr (grouping : Grouping) (ops : List Grammar)
    (h : term.meaning definitions enter bound scope = term'.meaning definitions enter bound scope) :
    (grouping.joinAny term ops).meaning definitions enter bound scope =
      (grouping.joinAny term' ops).meaning definitions enter bound scope := by
  cases ops with
  | nil => exact h
  | cons op ops =>
    simp only [meaning] at h ⊢
    cases grouping <;> simp only [Grouping.joinAny, Grouping.join, unchained, read, h]

/-- A level whose operands do the same around operators does the same. -/
theorem meaning_level_congr (operators : List (Operator Grammar))
    (h : ∀ before behind, (affixed before behind term).meaning definitions enter bound scope =
      (affixed before behind term').meaning definitions enter bound scope) :
    (level term operators).meaning definitions enter bound scope =
      (level term' operators).meaning definitions enter bound scope := by
  rw [level_eq, level_eq]
  exact meaning_joinAny_congr _ _ (meaning_joinAny_congr _ _ (meaning_joinAny_congr _ _ (h _ _)))

/-- What the levels above do depends on nothing but what those below do. -/
theorem meaning_expression_congr (table : List (List (Operator Grammar))) :
    ∀ {term term' : Grammar}, term.meaning definitions enter bound scope =
        term'.meaning definitions enter bound scope →
      (expression table term).meaning definitions enter bound scope =
        (expression table term').meaning definitions enter bound scope := by
  induction table with
  | nil => exact id
  | cons operators table ih =>
    intro term term' h
    refine ih (meaning_level_congr operators fun before behind ↦ ?_)
    rw [meaning_affixed, meaning_affixed, h]

/-! ### Levels are proper -/

theorem proper_joinAny (grouping : Grouping) (ops : List Grammar)
    (h : Parse.Proper (term.meaning definitions enter bound scope)) :
    Parse.Proper ((grouping.joinAny term ops).meaning definitions enter bound scope) := by
  cases ops with
  | nil => exact h
  | cons op ops =>
    cases grouping with
    | leftward => exact Parse.proper_chainLeft bound _ _
    | rightward => exact Parse.proper_chainRight bound _ _
    | alone =>
      simp only [meaning, Grouping.joinAny, Grouping.join, unchained, read]
      exact Parse.proper_chooseNext _ _ fun x ↦
        Parse.proper_either (Parse.proper_map _ _) fun place ↦ Parse.proper_success place x

/-- The parser of a level is proper, whatever its operands are. -/
theorem proper_level (term : Grammar) (operators : List (Operator Grammar)) :
    Parse.Proper ((level term operators).meaning definitions enter bound scope) := by
  rw [level_eq]
  exact proper_joinAny _ _ (proper_joinAny _ _ (proper_joinAny _ _ (Parse.proper_map _ _)))

/-! ### Levels apart -/

/-- Around a proper operand a level without operators does nothing. -/
theorem meaning_affixed_nil_of_proper
    (h : Parse.Proper (term.meaning definitions enter bound scope)) :
    (affixed [] [] term).meaning definitions enter bound scope =
      term.meaning definitions enter bound scope := by
  rw [meaning_affixed_nil, Parse.andThen_success h]

/-- Around the parser of another level a level without operators around its operands does what its
operators between them do. -/
theorem meaning_joinAny_affixed_nil (grouping : Grouping) (ops : List Grammar) (term : Grammar)
    (operators : List (Operator Grammar)) :
    (grouping.joinAny (affixed [] [] (level term operators)) ops).meaning definitions enter bound
        scope =
      (grouping.joinAny (level term operators) ops).meaning definitions enter bound scope :=
  meaning_joinAny_congr grouping ops (meaning_affixed_nil_of_proper (proper_level term operators))

theorem level_only_leftward (term : Grammar) (operators : List (Operator Grammar)) :
    level term (Operator.only [.before, .behind, .leftward] operators) =
      Grouping.leftward.joinAny
        (affixed (Operator.ofKind .before operators) (Operator.ofKind .behind operators) term)
        (Operator.ofKind .leftward operators) := by
  rw [level_eq, Operator.ofKind_only (by decide), Operator.ofKind_only (by decide),
    Operator.ofKind_only (by decide), Operator.ofKind_only_of_not_mem (by decide),
    Operator.ofKind_only_of_not_mem (by decide)]
  rfl

theorem level_only_rightward (term : Grammar) (operators : List (Operator Grammar)) :
    level term (Operator.only [.rightward] operators) =
      Grouping.rightward.joinAny (affixed [] [] term) (Operator.ofKind .rightward operators) := by
  rw [level_eq, Operator.ofKind_only_of_not_mem (by decide),
    Operator.ofKind_only_of_not_mem (by decide), Operator.ofKind_only_of_not_mem (by decide),
    Operator.ofKind_only (by decide), Operator.ofKind_only_of_not_mem (by decide)]
  rfl

theorem level_only_alone (term : Grammar) (operators : List (Operator Grammar)) :
    level term (Operator.only [.alone] operators) =
      Grouping.alone.joinAny (affixed [] [] term) (Operator.ofKind .alone operators) := by
  rw [level_eq, Operator.ofKind_only_of_not_mem (by decide),
    Operator.ofKind_only_of_not_mem (by decide), Operator.ofKind_only_of_not_mem (by decide),
    Operator.ofKind_only_of_not_mem (by decide), Operator.ofKind_only (by decide)]
  rfl

/-- A level of mixed operators does what its three parts do one around the other. -/
theorem meaning_split (term : Grammar) (operators : List (Operator Grammar)) :
    (expression (Operator.split operators) term).meaning definitions enter bound scope =
      (level term operators).meaning definitions enter bound scope := by
  have hparts : expression (Operator.split operators) term =
      level (level (level term (Operator.only [.before, .behind, .leftward] operators))
        (Operator.only [.rightward] operators)) (Operator.only [.alone] operators) := rfl
  rw [hparts, level_only_alone, meaning_joinAny_affixed_nil, level_eq term operators]
  refine meaning_joinAny_congr _ _ ?_
  rw [level_only_rightward, meaning_joinAny_affixed_nil, level_only_leftward]

end Meaning

/-! ### Empty levels -/

section Insertion

variable {definitions : Definitions} {enter : Scope → Grammar → Parse} {bound : Nat} {scope : Scope}

theorem expression_append (lower upper : List (List (Operator Grammar))) (term : Grammar) :
    expression (lower ++ upper) term = expression upper (expression lower term) :=
  List.foldl_append

/-- A level without operators can be inserted anywhere. Assumes: there is another level, or the
operand is proper. -/
theorem meaning_insert_nil (lower upper : List (List (Operator Grammar))) (term : Grammar)
    (hterm : lower ++ upper = [] → Parse.Proper (term.meaning definitions enter bound scope)) :
    (expression (lower ++ [] :: upper) term).meaning definitions enter bound scope =
      (expression (lower ++ upper) term).meaning definitions enter bound scope := by
  have hinserted : expression (lower ++ [] :: upper) term =
      expression upper (affixed [] [] (expression lower term)) :=
    expression_append lower ([] :: upper) term
  rw [hinserted, expression_append]
  rcases lower.eq_nil_or_concat with rfl | ⟨init, last, rfl⟩
  · cases upper with
    | nil => exact meaning_affixed_nil_of_proper (hterm rfl)
    | cons operators upper =>
      refine meaning_expression_congr upper (meaning_level_congr operators fun before behind ↦ ?_)
      exact meaning_affixed_affixed_nil before behind term
  · have hlast : expression (init ++ [last]) term = level (expression init term) last :=
      expression_append init [last] term
    rw [List.concat_eq_append, hlast]
    exact meaning_expression_congr upper (meaning_affixed_nil_of_proper (proper_level _ last))

end Insertion

/-! ### Tables of operands -/

/-- The parsers that the operators of a level are. -/
def entries (operators : List (Operator Operand)) : List (Operator Grammar) :=
  operators.map fun operator ↦ ⟨operator.kind, operator.parser.entry⟩

/-- Whether the first operator of a kind can parse. -/
def checkFirst (kind : OperatorKind) (operators : List (Operator Operand)) : Except Fault Unit :=
  discard (choiceOf (Operator.ofKind kind operators))

theorem checkFirst_only {kind : OperatorKind} {kinds : List OperatorKind} (hkind : kind ∈ kinds)
    (operators : List (Operator Operand)) :
    checkFirst kind (Operator.only kinds operators) = checkFirst kind operators := by
  rw [checkFirst, Operator.ofKind_only hkind, checkFirst]

theorem checkFirst_only_of_not_mem {kind : OperatorKind} {kinds : List OperatorKind}
    (hkind : kind ∉ kinds) (operators : List (Operator Operand)) :
    checkFirst kind (Operator.only kinds operators) = pure () := by
  rw [checkFirst, Operator.ofKind_only_of_not_mem hkind]
  rfl

/-- The kinds are looked at one after the other. -/
theorem operatorsOf_eq (operators : List (Operator Operand)) :
    operatorsOf operators = do
      checkFirst .before operators
      checkFirst .behind operators
      checkFirst .leftward operators
      checkFirst .rightward operators
      checkFirst .alone operators
      return entries operators := by
  simp [operatorsOf, checkFirst, entries]

theorem entries_only (kinds : List OperatorKind) (operators : List (Operator Operand)) :
    entries (Operator.only kinds operators) = Operator.only kinds (entries operators) := by
  rw [entries, entries, Operator.only, Operator.only, List.filter_map]
  rfl

/-- The three parts of a level are built, one after the other, as the whole level is. -/
theorem mapM_split (operators : List (Operator Operand)) :
    (Operator.split operators).mapM operatorsOf =
      (fun _ ↦ Operator.split (entries operators)) <$> operatorsOf operators := by
  simp (disch := decide) only [Operator.split, List.mapM_cons, List.mapM_nil, operatorsOf_eq,
    checkFirst_only, checkFirst_only_of_not_mem, entries_only, map_bind, map_pure, bind_assoc,
    pure_bind]

/-- Operators of the same kinds in the same order for each kind are built alike. -/
theorem operatorsOf_of_ofKind_eq {operators reordered : List (Operator Operand)}
    (h : ∀ kind, kind ≠ .inert →
      Operator.ofKind kind reordered = Operator.ofKind kind operators) :
    operatorsOf reordered = (fun _ ↦ entries reordered) <$> operatorsOf operators := by
  have hcheck {kind : OperatorKind} (hkind : kind ≠ .inert) :
      checkFirst kind reordered = checkFirst kind operators := by
    rw [checkFirst, h kind hkind, checkFirst]
  simp (disch := decide) only [operatorsOf_eq, hcheck, map_bind, map_pure]

theorem level_entries_of_ofKind_eq {operators reordered : List (Operator Operand)}
    (h : ∀ kind, kind ≠ .inert →
      Operator.ofKind kind reordered = Operator.ofKind kind operators) (term : Grammar) :
    level term (entries reordered) = level term (entries operators) := by
  have hentries {kind : OperatorKind} (hkind : kind ≠ .inert) :
      Operator.ofKind kind (entries reordered) = Operator.ofKind kind (entries operators) := by
    rw [entries, Operator.ofKind_map, h kind hkind, ← Operator.ofKind_map, entries]
  simp (disch := decide) only [level_eq, hentries]

/-! ### Expression parsers of operands -/

variable {definitions : Definitions} {bound : Nat} {scope : Scope}

/-- What the expression parser of a table over an operand does, or the fault of building it. -/
def parseOf (definitions : Definitions) (bound : Nat) (scope : Scope)
    (table : List (List (Operator Operand))) (term : Operand) : Except Fault Parse :=
  (fun p ↦ p.entry.eval definitions bound scope) <$> expressionOf table term

theorem parseOf_eq (table : List (List (Operator Operand))) (term : Operand) :
    parseOf definitions bound scope table term =
      (fun levels ↦ (expression levels term.entry).eval definitions bound scope) <$>
        table.mapM operatorsOf := by
  unfold parseOf expressionOf
  cases table.mapM operatorsOf with
  | error fault => rfl
  | ok levels => cases levels <;> rfl

/-- Grammars that mean the same behave the same. -/
theorem eval_congr {p q : Grammar}
    (h : ∀ bound, p.meaning definitions (eval definitions bound) (bound + 1) scope =
      q.meaning definitions (eval definitions bound) (bound + 1) scope) :
    p.eval definitions bound scope = q.eval definitions bound scope := by
  cases bound with
  | zero => rfl
  | succ bound => exact h bound

/-- Other levels can stand for one in the middle of a table if they are built as it is and mean the
same around every operand. -/
theorem parseOf_replace {operators : List (Operator Operand)}
    {middle : List (List (Operator Operand))} {levels : List (List (Operator Grammar))}
    (hbuild : middle.mapM operatorsOf = (fun _ ↦ levels) <$> operatorsOf operators)
    (hmeaning : ∀ bound inner,
      (expression levels inner).meaning definitions (eval definitions bound) (bound + 1) scope =
        (level inner (entries operators)).meaning definitions (eval definitions bound) (bound + 1)
          scope)
    (lower upper : List (List (Operator Operand))) (term : Operand) :
    parseOf definitions bound scope (lower ++ (middle ++ upper)) term =
      parseOf definitions bound scope (lower ++ operators :: upper) term := by
  have hentries : operatorsOf operators = (fun _ ↦ entries operators) <$> operatorsOf operators :=
    operatorsOf_of_ofKind_eq fun _ _ ↦ rfl
  have heval (below above : List (List (Operator Grammar))) :
      (expression (below ++ (levels ++ above)) term.entry).eval definitions bound scope =
        (expression (below ++ entries operators :: above) term.entry).eval definitions bound
          scope := by
    refine eval_congr fun bound ↦ ?_
    rw [expression_append, expression_append, expression_append]
    exact meaning_expression_congr above (hmeaning bound (expression below term.entry))
  rw [parseOf_eq, parseOf_eq, List.mapM_append, List.mapM_append, List.mapM_append, List.mapM_cons,
    hbuild, hentries]
  simp only [map_bind, bind_assoc, bind_map_left, pure_bind, map_pure, heval]

/-- A table that is built without any level has none. -/
theorem eq_nil_of_mapM_ok {table : List (List (Operator Operand))}
    (h : table.mapM operatorsOf = .ok []) : table = [] := by
  cases table with
  | nil => rfl
  | cons operators table =>
    rw [List.mapM_cons] at h
    cases hfirst : operatorsOf operators with
    | error fault => simp [hfirst, Bind.bind, Except.bind] at h
    | ok first =>
      cases hrest : table.mapM operatorsOf with
      | error fault => simp [hfirst, hrest, Bind.bind, Except.bind] at h
      | ok rest => simp [hfirst, hrest, Bind.bind, Except.bind, pure, Except.pure] at h

/-- An empty level can be inserted anywhere. Assumes: there is another level, or the operand is
proper. -/
theorem parseOf_insert_nil (lower upper : List (List (Operator Operand))) (term : Operand)
    (hterm : lower ++ upper = [] → term.entry.Proper definitions scope) :
    parseOf definitions bound scope (lower ++ [] :: upper) term =
      parseOf definitions bound scope (lower ++ upper) term := by
  have hempty : operatorsOf [] = .ok [] := rfl
  rw [parseOf_eq, parseOf_eq, List.mapM_append, List.mapM_append, List.mapM_cons, hempty]
  cases hlower : lower.mapM operatorsOf with
  | error fault => rfl
  | ok below =>
    cases hupper : upper.mapM operatorsOf with
    | error fault => rfl
    | ok above =>
      refine congrArg Except.ok (eval_congr fun bound ↦ ?_)
      refine meaning_insert_nil below above term.entry fun hnone ↦ ?_
      obtain ⟨rfl, rfl⟩ := List.append_eq_nil_iff.mp hnone
      rw [eq_nil_of_mapM_ok hlower, eq_nil_of_mapM_ok hupper] at hterm
      exact hterm rfl (bound + 1)

/-! ### The law -/

/-- A level of mixed operators is the same as its split into the operators before and behind an
operand and those grouped from the left, those grouped from the right, and those that are not
grouped. In any table, at any of its levels, and over any operand, the parser does the same, down to
the messages and the notes and within every bound; or it cannot be built for the same reason.
Assumes, for an empty level in a table without others: the operand is proper. -/
theorem mixed_level_split (definitions : Definitions) (bound : Nat) (scope : Scope)
    (lower upper : List (List (Operator Operand))) (operators : List (Operator Operand))
    (term : Operand) :
    parseOf definitions bound scope (lower ++ (Operator.split operators ++ upper)) term =
        parseOf definitions bound scope (lower ++ operators :: upper) term ∧
      (∀ reordered : List (Operator Operand),
        (∀ kind, kind ≠ .inert →
          Operator.ofKind kind reordered = Operator.ofKind kind operators) →
        parseOf definitions bound scope (lower ++ reordered :: upper) term =
          parseOf definitions bound scope (lower ++ operators :: upper) term) ∧
      (∀ (first last : List (Operator Operand)) (p : Operand), operators = first ++ last →
        parseOf definitions bound scope (lower ++ (first ++ ⟨.inert, p⟩ :: last) :: upper) term =
          parseOf definitions bound scope (lower ++ operators :: upper) term) ∧
      ((lower ++ upper = [] → term.entry.Proper definitions scope) →
        parseOf definitions bound scope (lower ++ [] :: upper) term =
          parseOf definitions bound scope (lower ++ upper) term) := by
  have hreordered (reordered : List (Operator Operand))
      (h : ∀ kind, kind ≠ .inert →
        Operator.ofKind kind reordered = Operator.ofKind kind operators) :
      parseOf definitions bound scope (lower ++ reordered :: upper) term =
        parseOf definitions bound scope (lower ++ operators :: upper) term := by
    have hbuild : [reordered].mapM operatorsOf =
        (fun _ ↦ [entries reordered]) <$> operatorsOf operators := by
      rw [List.mapM_cons, operatorsOf_of_ofKind_eq h]
      simp
    refine parseOf_replace hbuild (fun bound inner ↦ ?_) lower upper term
    exact congrArg _ (level_entries_of_ofKind_eq h inner)
  refine ⟨?_, hreordered, ?_, fun hterm ↦ parseOf_insert_nil lower upper term hterm⟩
  · exact parseOf_replace (mapM_split operators)
      (fun _ inner ↦ meaning_split inner (entries operators)) lower upper term
  · rintro first last p rfl
    refine hreordered _ fun kind hkind ↦ ?_
    rw [Operator.ofKind_append, Operator.ofKind_append, Operator.ofKind_cons_of_ne hkind.symm]

/-- Two operators of one level, the one that is grouped from the right in front. -/
def mixedSigns : List (Operator Operand) :=
  [⟨.rightward, .parser (sign OperatorLevel.buildBetween '^')⟩,
    ⟨.leftward, .parser (sign OperatorLevel.buildBetween '-')⟩]

/-- The operator grouped from the left binds tighter, whichever of the two stands in front. -/
theorem mixed_level_split_mixedSigns :
    let one : Operand := .parser (char (.text "1"))
    let difference : Value := .list [.text "-", .text "1", .text "1"]
    parseOf .none 5 .top (Operator.split mixedSigns) one = parseOf .none 5 .top [mixedSigns] one ∧
      parseOf .none 5 .top [mixedSigns.reverse] one = parseOf .none 5 .top [mixedSigns] one ∧
      parseOf .none 5 .top [⟨.inert, .value .null⟩ :: mixedSigns] one =
        parseOf .none 5 .top [mixedSigns] one ∧
      parseOf .none 5 .top [[]] one = parseOf .none 5 .top [] one ∧
      (fun p ↦ p (.fresh (.ofText "1-1^1")) .empty) <$> parseOf .none 5 .top [mixedSigns] one =
        .ok (.done (.success (.fresh ⟨.text "1-1^1".toList.toArray, 5, ⟨0, 5⟩⟩)
          (.list [.text "^", difference, .text "1"])) .empty) := by
  intro one difference
  obtain ⟨hsplit, hreordered, hinert, hempty⟩ :=
    mixed_level_split .none 5 .top [] [] mixedSigns one
  have hone : one.entry.Proper .none .top :=
    proper_of_everywhere (Definitions.everywhere_none _) trivial trivial
  refine ⟨hsplit, hreordered mixedSigns.reverse fun kind _ ↦ ?_, hinert [] mixedSigns _ rfl,
    hempty fun _ ↦ hone, rfl⟩
  cases kind <;> rfl

end Grammar

end DiagnosticParsing
