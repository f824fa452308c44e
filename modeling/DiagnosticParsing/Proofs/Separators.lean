import DiagnosticParsing.Grammar.Characters
import DiagnosticParsing.Grammar.Lists
import DiagnosticParsing.Proofs.Repetition

/-!
# Lists with separators

Three parsers read items with separators. `sepBy` takes an item, and then separators with items
behind them; `endBy` takes items with separators behind them; and a chain of operators takes items
for operands and separators for operators. They group the same run of items and separators in
different ways, and so they give up at different places.

A list of at least one item is the chain in which every operand is a list of one and every operator
is concatenation (`Grammar.eval_sepBy1`). What `sepBy` reads can be grouped anew so that all items
but the last one have their separators behind them (`Grammar.exists_successes_left`); from there
`endBy` goes on, or does not, with the separator behind the last item. So there are three cases. If
the list of `sepBy` is empty, then so is that of `endBy`, at the start. If another separator
succeeds behind the last item, `endBy` has the same list and ends behind that separator. Otherwise
it has the list without its last item and ends where that item begins. The main result is
`Grammar.separated_lists_agree`.
-/

set_option autoImplicit false

namespace DiagnosticParsing

namespace Parse

open Run (ofExcept ofCall)

/-- A value as the list of it. -/
def listOf (v : Value) : Call Value :=
  .pure (.list [v])

/-- Concatenation in the place of a value. -/
def concatenation (_ : Value) : Call Value :=
  .pure (.operation .add)

theorem apply₂_concatenation (xs ys : List Value) :
    (Value.operation .add).apply₂ (.list xs) (.list ys) = .pure (.list (xs ++ ys)) :=
  rfl

variable {sep : Parse}

/-- Combining a list with a list of one is an attempt at a separator and an item. -/
theorem combine_concatenation (p : Parse) (hsep : Proper sep) (place : Place)
    (values : List Value) :
    combine (map p listOf) (map sep concatenation) place (.list values.reverse) =
      (attempt (right sep p) place values >>= fun found ↦
        pure (found.map (Prod.map id fun values ↦ .list values.reverse))) := by
  simp only [combine, link, attempt, right_eq hsep, map, andThen_apply, bind_assoc]
  refine bind_congr fun mark ↦ (hsep place).bind_congr fun reply hreply ↦ ?_
  cases reply with
  | malformed v => exact hreply.elim
  | failure => simp [follow]
  | success middle v =>
    simp only [follow_success, concatenation, Run.ofCall_pure, pure_bind, Reply.first, Reply.second,
      Run.ofExcept_ok_bind, bind_assoc]
    refine bind_congr fun item ↦ ?_
    cases item with
    | failure => simp [follow]
    | success rest value => simp [listOf, apply₂_concatenation]
    | malformed v => simp [follow, listOf, apply₂_concatenation]

/-- A list of at least one item is a chain of lists of one. -/
theorem sepBy1_eq_chainLeft (bound : Nat) (p : Parse) (hsep : Proper sep) :
    map (both p (many bound (right sep p))) Function.cons.call =
      chainLeft bound (map p listOf) (map sep concatenation) := by
  have hfirst (next : Place → Value → Run Reply) :
      andThen (map p listOf) next = andThen p fun rest value ↦ next rest (.list [value]) :=
    andThen_of_success p (fun value ↦ .list [value]) next
  simp only [map_both, ← collect_singleton]
  rw [chainLeft_eq, chainLeftBy, hfirst]
  congr 1
  funext middle first
  have hrounds : rounds bound (combine (map p listOf) (map sep concatenation)) middle
      (.list [first]) = (rounds bound (attempt (right sep p)) middle [first] >>= fun last ↦
        pure (Prod.map id (fun values ↦ .list values.reverse) last)) :=
    rounds_map (fun values ↦ Value.list values.reverse) (combine_concatenation p hsep) bound middle
      [first]
  simp [foldLeft, collect, hrounds]

end Parse

namespace Grammar

variable {definitions : Definitions} {scope : Scope} {p sep : Grammar}
  {place rest last : Place} {log middle log₁ log₂ log' log'' : Log} {value : Value}
  {values : List Value}

/-- A list of at least one item. -/
theorem eval_sepBy1 (p : Grammar) (hsep : sep.Proper definitions scope) (bound : Nat) :
    (sepBy1 p sep).eval definitions bound scope =
      (chainLeft (map p Parse.listOf) (map sep Parse.concatenation)).eval definitions bound
        scope := by
  cases bound with
  | zero => rfl
  | succ bound =>
    exact Parse.sepBy1_eq_chainLeft (bound + 1) (p.eval definitions (bound + 1) scope)
      (hsep (bound + 1))

/-- A list of any number of items fails nowhere. -/
theorem endsWith_sepBy {ending : Except Fault Reply × Log} :
    (sepBy p sep).EndsWith definitions scope place log ending ↔
      ((∀ log', ending ≠ (.ok .failure, log')) ∧
        (sepBy1 p sep).EndsWith definitions scope place log ending) ∨
      (∃ log', p.Fails definitions scope place log log') ∧
        ending = (.ok (.success place (.list [])), log) := by
  have hfails {log' : Log} : (sepBy1 p sep).Fails definitions scope place log log' ↔
      p.Fails definitions scope place log log' :=
    fails_map.trans fails_both_many
  rw [sepBy, endsWith_either]
  simp only [hfails, endsWith_succeed, exists_and_right]

/-- One more success behind the others. -/
theorem Successes.snoc (h : Successes definitions scope p place log values last middle)
    (hvalue : p.Gives definitions scope last middle value rest log') :
    Successes definitions scope p place log (values ++ [value]) rest log' := by
  induction h with
  | none => exact .next hvalue (.none rest log')
  | next hvalue' _ ih => exact .next hvalue' (ih hvalue)

/-- An item, and separators with items behind them, are items with separators behind them, and an
item. -/
theorem exists_successes_left (hp : p.Proper definitions scope)
    (hsep : sep.Proper definitions scope)
    (hvalues : Successes definitions scope (right sep p) rest middle values last log') :
    ∀ {place : Place} {log : Log} {first : Value},
      p.Gives definitions scope place log first rest middle →
      ∃ init item before log₁, first :: values = init ++ [item] ∧
        Successes definitions scope (left p sep) place log init before log₁ ∧
        p.Gives definitions scope before log₁ item last log' := by
  induction hvalues with
  | none rest middle =>
    intro place log first hfirst
    exact ⟨[], first, place, log, rfl, .none place log, hfirst⟩
  | next hvalue _ ih =>
    intro place log first hfirst
    obtain ⟨s, next, log₂, hs, hitem⟩ := (gives_right hsep).mp hvalue
    obtain ⟨init, item, before, log₁, hsame, hinit, hlast⟩ := ih hitem
    have hleft := (gives_left hp hsep).mpr ⟨_, _, s, hfirst, hs⟩
    refine ⟨first :: init, item, before, log₁, ?_, .next hleft hinit, hlast⟩
    rw [hsame, List.cons_append]

/-- A repetition ends behind its last success. -/
theorem endsWith_endBy {init : List Value} (hinit : Successes definitions scope (left p sep) place
      log init last middle)
    (hfails : (left p sep).Fails definitions scope last middle log'') :
    (endBy p sep).EndsWith definitions scope place log (.ok (.success last (.list init)), middle) :=
  endsWith_many.mpr ⟨init, last, rfl, hinit, log'', hfails⟩

/-- What a list of at least one item is made of. -/
theorem exists_of_gives_sepBy1 (hp : p.Proper definitions scope)
    (hsep : sep.Proper definitions scope)
    (h : (sepBy1 p sep).Gives definitions scope place log value last log') :
    ∃ init item before log₁, value = .list (init ++ [item]) ∧
      Successes definitions scope (left p sep) place log init before log₁ ∧
      p.Gives definitions scope before log₁ item last log' ∧
      ∃ log'', (right sep p).Fails definitions scope last log' log'' := by
  obtain ⟨_, hboth, hcons⟩ := gives_map.mp h
  obtain ⟨first, rest, middle, _, hfirst, hmany, rfl⟩ := gives_both.mp hboth
  obtain ⟨values, rfl, hvalues, hfails⟩ := gives_many.mp hmany
  obtain ⟨init, item, before, log₁, hsame, hinit, hitem⟩ :=
    exists_successes_left hp hsep hvalues hfirst
  refine ⟨init, item, before, log₁, ?_, hinit, hitem, hfails⟩
  rw [← hsame]
  exact (Except.ok.inj hcons).symm

/-- The lists with separators agree. One item or more come to the same ends as a chain of lists of
one with concatenation for an operator. Any number of items come to the same ends as one or more,
except that where the first item fails, the list is empty and nothing is consumed or logged. Where
they end with a list, items with separators behind them have all of it or all but its last item.
Assumes: the replies of both parsers are proper. -/
theorem separated_lists_agree (definitions : Definitions) (scope : Scope) (p sep : Grammar)
    (hp : p.Proper definitions scope) (hsep : sep.Proper definitions scope) :
    SameEnds definitions scope (sepBy1 p sep) definitions scope
      (chainLeft (map p Parse.listOf) (map sep Parse.concatenation)) ∧
    (∀ place log ending, (sepBy p sep).EndsWith definitions scope place log ending ↔
      ((∀ log', ending ≠ (.ok .failure, log')) ∧
        (sepBy1 p sep).EndsWith definitions scope place log ending) ∨
      (∃ log', p.Fails definitions scope place log log') ∧
        ending = (.ok (.success place (.list [])), log)) ∧
    (∀ place log reply log', (sepBy p sep).EndsWith definitions scope place log (.ok reply, log') →
      ∃ last values, reply = .success last (.list values)) ∧
    ∀ place log values last log',
      (sepBy p sep).EndsWith definitions scope place log
        (.ok (.success last (.list values)), log') →
      (values = [] ∧ last = place ∧
        (endBy p sep).EndsWith definitions scope place log (.ok (.success place (.list [])), log)) ∨
      ∃ init item before log₁, values = init ++ [item] ∧
        Successes definitions scope (left p sep) place log init before log₁ ∧
        p.Gives definitions scope before log₁ item last log' ∧
        ((∃ s behind log₂, sep.Gives definitions scope last log' s behind log₂ ∧
            (endBy p sep).EndsWith definitions scope place log
              (.ok (.success behind (.list values)), log₂)) ∨
          (∃ log₂, sep.Fails definitions scope last log' log₂) ∧
            (endBy p sep).EndsWith definitions scope place log
              (.ok (.success before (.list init)), log₁)) := by
  have hproper : (sepBy1 p sep).Proper definitions scope := proper_map _ _ _ _
  refine ⟨.of_eval_eq (eval_sepBy1 p hsep), fun _ _ _ ↦ endsWith_sepBy, ?_, ?_⟩
  · intro place log reply log' h
    rcases endsWith_sepBy.mp h with ⟨hnot, hends⟩ | ⟨-, heq⟩
    · rcases (endsWith_ok hproper).mp hends with ⟨rfl, -⟩ | ⟨last, value, rfl, hgives⟩
      · exact (hnot log' rfl).elim
      · obtain ⟨init, item, -, -, rfl, -⟩ := exists_of_gives_sepBy1 hp hsep hgives
        exact ⟨last, init ++ [item], rfl⟩
    · exact ⟨place, [], Except.ok.inj (Prod.mk.inj heq).1⟩
  · intro place log values last log' h
    rcases endsWith_sepBy.mp h with ⟨-, hends⟩ | ⟨⟨log'', hfails⟩, heq⟩
    · obtain ⟨init, item, before, log₁, hvalues, hinit, hitem, log'', hended⟩ :=
        exists_of_gives_sepBy1 hp hsep ((endsWith_success hproper).mp hends)
      obtain rfl : values = init ++ [item] := by simpa using hvalues
      refine .inr ⟨init, item, before, log₁, rfl, hinit, hitem, ?_⟩
      rcases (fails_right hsep).mp hended with hfails | ⟨s, behind, log₂, hs, hfails⟩
      · have hleft := (fails_left hp hsep).mpr (.inr ⟨item, last, log', hitem, hfails⟩)
        exact .inr ⟨⟨log'', hfails⟩, endsWith_endBy hinit hleft⟩
      · have hleft := (gives_left hp hsep).mpr ⟨last, log', s, hitem, hs⟩
        have hstop := (fails_left hp hsep).mpr (.inl hfails)
        exact .inl ⟨s, behind, log₂, hs, endsWith_endBy (hinit.snoc hleft) hstop⟩
    · obtain ⟨hreply, rfl⟩ := Prod.mk.inj heq
      obtain ⟨rfl, hvalues⟩ := Reply.success.inj (Except.ok.inj hreply)
      obtain rfl : values = [] := by simpa using hvalues
      have hleft := (fails_left hp hsep).mpr (.inl hfails)
      exact .inl ⟨rfl, rfl, endsWith_endBy (.none last log') hleft⟩

/-- A list of digits with a comma behind it, which belongs to the list for one of the parsers. -/
theorem separated_lists_agree_digits :
    let comma := char (.text ",")
    let start : Place := .fresh (.ofText "1,2,")
    let finish : Place := .fresh ⟨.text "1,2,".toList.toArray, 3, ⟨0, 3⟩⟩
    let items : List Value := [.text "1", .text "2"]
    digit.Proper .none .top ∧ comma.Proper .none .top ∧
      (sepBy digit comma).EndsWith .none .top start .empty
        (.ok (.success finish (.list items)), .empty) ∧
      ∃ s behind log, comma.Gives .none .top finish .empty s behind log ∧
        (endBy digit comma).EndsWith .none .top start .empty
          (.ok (.success behind (.list items)), log) := by
  intro comma start finish items
  have hdigit : digit.Proper .none .top :=
    proper_of_everywhere (Definitions.everywhere_none _) trivial trivial
  have hcomma : comma.Proper .none .top :=
    proper_of_everywhere (Definitions.everywhere_none _) trivial trivial
  have hsepBy : (sepBy digit comma).EndsWith .none .top start .empty
      (.ok (.success finish (.list items)), .empty) :=
    endsWith_of_eval 5 .empty rfl
  have hbehind : comma.Gives .none .top finish .empty (.text ",")
      (.fresh ⟨.text "1,2,".toList.toArray, 4, ⟨0, 4⟩⟩) .empty :=
    ⟨_, endsWith_of_eval 1 .empty rfl, rfl⟩
  refine ⟨hdigit, hcomma, hsepBy, ?_⟩
  obtain ⟨-, -, -, hendBy⟩ := separated_lists_agree .none .top digit comma hdigit hcomma
  rcases hendBy start .empty items finish .empty hsepBy with
    ⟨hempty, -⟩ | ⟨-, -, -, -, -, -, -, hgives | ⟨⟨log, hfails⟩, -⟩⟩
  · exact nomatch hempty
  · exact hgives
  · exact (hbehind.not_fails hfails).elim

end Grammar

end DiagnosticParsing
