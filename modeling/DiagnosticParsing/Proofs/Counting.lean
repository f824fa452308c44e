import DiagnosticParsing.Grammar.Characters
import DiagnosticParsing.Proofs.Repetition

/-!
# Counted repetitions

A counted repetition makes a fixed number of attempts. It takes nothing back: when one of them
fails, so does the whole, and what that attempt has logged stays. A repetition that goes on as long
as it can takes back what its last attempt has logged. Yet both go through the same successes one
after another (`Grammar.Successes`), and so the end of the one tells the end of the other: the
values of a counted repetition are the first ones of the longer list, and it ends where the last of
these successes left the input and the log. Counting beyond that list fails with the attempt that
ended it, and the log is that of the longer repetition followed by the messages of this attempt
(`Grammar.count_against_many`).

What is gathered by counting does not depend on what has been gathered before
(`Parse.gatherTimes_append`). So counting to a sum is counting to one summand and then to the other
(`Parse.count_add`), whatever the parser does, and a counted repetition can be read as a recursion
(`Parse.count_succ`).
-/

set_option autoImplicit false

namespace DiagnosticParsing

namespace Parse

open Run (ofExcept ofCall)

/-! ### Gathering a number of values -/

/-- Runs a parser a number of times more and gathers its values in front of the given ones. There is
nothing to go on with once it has failed. -/
def gatherTimes (p : Parse) : (count : Nat) → Place → List Value → Run (Option (Place × List Value))
  | 0, place, values => return some (place, values)
  | count + 1, place, values => do
    match ← p place with
    | .failure => return none
    | reply =>
      let (rest, value) ← ofExcept reply.parts
      gatherTimes p count rest (value :: values)

/-- What is replied when values have been gathered, the latest first. -/
def gathered (found : Option (Place × List Value)) : Reply :=
  found.elim .failure fun last ↦ .success last.1 (.list last.2.reverse)

theorem countFrom_eq (p : Parse) (n : Nat) :
    ∀ place values, countFrom p n place values =
      (gatherTimes p n place values >>= fun found ↦ pure (gathered found)) := by
  induction n with
  | zero => exact fun _ _ ↦ rfl
  | succ n ih =>
    intro place values
    simp only [countFrom, gatherTimes, andThen_apply, bind_assoc]
    refine bind_congr fun reply ↦ ?_
    cases reply with
    | failure => rfl
    | _ => simp [follow, ih]

/-- A sum of rounds is the rounds of one summand, gone on with for those of the other. -/
theorem gatherTimes_add (p : Parse) (n m : Nat) :
    ∀ place values, gatherTimes p (n + m) place values =
      (gatherTimes p n place values >>= fun found ↦
        found.elim (pure none) fun last ↦ gatherTimes p m last.1 last.2) := by
  induction n with
  | zero =>
    intro place values
    simp [gatherTimes]
  | succ n ih =>
    intro place values
    rw [Nat.succ_add]
    simp only [gatherTimes, bind_assoc]
    refine bind_congr fun reply ↦ ?_
    cases reply with
    | failure => rfl
    | _ => simp [ih]

/-- What has been gathered before stays behind what is gathered now. -/
theorem gatherTimes_append (p : Parse) (before : List Value) (n : Nat) :
    ∀ place values, gatherTimes p n place (values ++ before) =
      (gatherTimes p n place values >>= fun found ↦
        pure (found.map (Prod.map id (· ++ before)))) := by
  induction n with
  | zero =>
    intro place values
    simp [gatherTimes]
  | succ n ih =>
    intro place values
    simp only [gatherTimes, bind_assoc, ← List.cons_append]
    refine bind_congr fun reply ↦ ?_
    cases reply with
    | failure => rfl
    | _ => simp only [bind_assoc, ih]

theorem gatherTimes_eq (p : Parse) (n : Nat) (place : Place) (before : List Value) :
    gatherTimes p n place before =
      (gatherTimes p n place [] >>= fun found ↦
        pure (found.map (Prod.map id (· ++ before)))) :=
  gatherTimes_append p before n place []

/-! ### Counting to a sum -/

theorem count_apply (p : Parse) (n : Nat) (place : Place) :
    count n p place = (gatherTimes p n place [] >>= fun found ↦ pure (gathered found)) :=
  countFrom_eq p n place []

/-- What comes behind a counted repetition goes on with the values gathered. -/
theorem andThen_count (p : Parse) (n : Nat) (next : Place → Value → Run Reply) (place : Place) :
    andThen (count n p) next place =
      (gatherTimes p n place [] >>= fun found ↦
        found.elim (pure .failure) fun last ↦ next last.1 (.list last.2.reverse)) := by
  rw [andThen_apply, count_apply, bind_assoc]
  refine bind_congr fun found ↦ ?_
  cases found <;> rfl

/-- The two lists of a pair, one behind the other. -/
def concatenated : Value → Call Value
  | .tuple [x, y] => .ofExcept (x.add y)
  | _ => .fault (.unsuitable "cannot unpack")

theorem concatenated_tuple (xs ys : List Value) :
    concatenated (.tuple [.list xs, .list ys]) = .pure (.list (xs ++ ys)) :=
  rfl

/-- Counting to a sum is counting to one summand and then to the other. -/
theorem count_add (p : Parse) (n m : Nat) :
    count (n + m) p = map (both (count n p) (count m p)) concatenated := by
  funext place
  rw [map_both, andThen_count, count_apply, gatherTimes_add, bind_assoc]
  refine bind_congr fun found ↦ ?_
  cases found with
  | none => rfl
  | some last =>
    rw [Option.elim_some, Option.elim_some, gatherTimes_eq, andThen_count, bind_assoc]
    refine bind_congr fun found ↦ ?_
    cases found with
    | none => rfl
    | some more => simp [concatenated_tuple, gathered]

/-- Counting one more is once and then the others. -/
theorem count_succ (p : Parse) (n : Nat) :
    count (n + 1) p = map (both p (count n p)) Function.cons.call := by
  funext place
  have hnext (rest : Place) (value : Value) :
      (gatherTimes p n rest [value] >>= fun found ↦ pure (gathered found)) =
        andThen (count n p) (fun rest values ↦ do
          return .success rest (← ofCall (Function.cons.call (.tuple [value, values])))) rest := by
    rw [gatherTimes_eq, andThen_count, bind_assoc]
    refine bind_congr fun found ↦ ?_
    cases found with
    | none => rfl
    | some last => simp [cons_tuple, gathered]
  rw [map_both, andThen_apply, count_apply, gatherTimes, bind_assoc]
  refine bind_congr fun reply ↦ ?_
  cases reply with
  | failure => rfl
  | success rest value => exact hnext rest value
  | malformed v =>
    simp only [bind_assoc, hnext]
    rfl

end Parse

namespace Grammar

variable {definitions : Definitions} {scope : Scope} {p : Grammar} {place last : Place}
  {log log' : Log} {value : Value} {values : List Value} {n : Nat}

/-! ### Counted repetitions and successes -/

/-- Not even once is to succeed without a value. -/
theorem sameEnds_count_zero (definitions : Definitions) (scope : Scope) (p : Grammar) :
    SameEnds definitions scope (count 0 p) definitions scope (succeed (.list [])) := by
  refine .of_eval_eq fun bound ↦ ?_
  cases bound <;> rfl

/-- Once more, and the recursive definition. -/
theorem sameEnds_count_succ (definitions : Definitions) (scope : Scope) (n : Nat) (p : Grammar) :
    SameEnds definitions scope (count (n + 1) p) definitions scope
      (map (both p (count n p)) Function.cons.call) := by
  refine .of_eval_eq fun bound ↦ ?_
  cases bound with
  | zero => rfl
  | succ bound => exact Parse.count_succ _ n

/-- A counted repetition gives the values of as many successes one after another. -/
theorem gives_count :
    (count n p).Gives definitions scope place log value last log' ↔
      ∃ values, value = .list values ∧ values.length = n ∧
        Successes definitions scope p place log values last log' := by
  induction n generalizing place log value with
  | zero =>
    rw [(sameEnds_count_zero definitions scope p).gives, gives_succeed]
    constructor
    · rintro ⟨rfl, rfl, rfl⟩
      exact ⟨[], rfl, rfl, .none last log'⟩
    · rintro ⟨_, rfl, hlength, hvalues⟩
      cases hvalues with
      | none => exact ⟨rfl, rfl, rfl⟩
      | next => exact nomatch hlength
  | succ n ih =>
    rw [(sameEnds_count_succ definitions scope n p).gives, gives_map]
    simp only [gives_both, ih]
    constructor
    · rintro ⟨_, ⟨first, rest, middle, _, hfirst, ⟨values, rfl, rfl, hvalues⟩, rfl⟩, hcons⟩
      exact ⟨first :: values, (Except.ok.inj hcons).symm, rfl, .next hfirst hvalues⟩
    · rintro ⟨_, rfl, hlength, hvalues⟩
      cases hvalues with
      | none => exact nomatch hlength
      | next hfirst hvalues =>
        exact ⟨_, ⟨_, _, _, _, hfirst, ⟨_, rfl, Nat.succ.inj hlength, hvalues⟩, rfl⟩, rfl⟩

/-- A counted repetition fails where one of its attempts does, with what that one has logged. -/
theorem fails_count :
    (count n p).Fails definitions scope place log log' ↔
      ∃ values last middle, values.length < n ∧
        Successes definitions scope p place log values last middle ∧
        p.Fails definitions scope last middle log' := by
  induction n generalizing place log with
  | zero =>
    rw [Fails, sameEnds_count_zero definitions scope p place log, endsWith_succeed]
    simp
  | succ n ih =>
    rw [Fails, sameEnds_count_succ definitions scope n p place log, ← Fails, fails_map, fails_both]
    simp only [ih]
    constructor
    · rintro (hfails |
        ⟨first, rest, middle, hfirst, values, last, before, hlength, hvalues, hfails⟩)
      · exact ⟨[], place, log, Nat.succ_pos n, .none place log, hfails⟩
      · refine ⟨first :: values, last, before, ?_, .next hfirst hvalues, hfails⟩
        exact Nat.succ_lt_succ hlength
    · rintro ⟨_, last, middle, hlength, hvalues, hfails⟩
      cases hvalues with
      | none => exact .inl hfails
      | next hfirst hvalues =>
        exact .inr ⟨_, _, _, hfirst, _, _, _, Nat.lt_of_succ_lt_succ hlength, hvalues, hfails⟩

/-- The first ones of successes one after another are such themselves. -/
theorem Successes.take (h : Successes definitions scope p place log values last log') (n : Nat) :
    ∃ rest middle, Successes definitions scope p place log (values.take n) rest middle := by
  induction h generalizing n with
  | none place log =>
    rw [List.take_nil]
    exact ⟨place, log, .none place log⟩
  | @next place _ _ log _ _ _ _ hvalue _ ih =>
    cases n with
    | zero => exact ⟨place, log, .none place log⟩
    | succ n =>
      obtain ⟨rest, middle, hvalues⟩ := ih n
      exact ⟨rest, middle, .next hvalue hvalues⟩

theorem proper_count (definitions : Definitions) (scope : Scope) (n : Nat) (p : Grammar) :
    (count n p).Proper definitions scope :=
  proper_of_succ fun _ place ↦ Parse.proper_countFrom _ n place []

/-- Counting goes through the successes of a repetition. Where any number of times ends with a list,
a fixed number of times succeeds if and only if that number is not greater than the length of the
list, with the first values of the list. And for any parser and any two numbers, be there an end or
not, as many times as their sum is as many times as the first, then as many times as the second,
with the lists put together. -/
theorem count_against_many (definitions : Definitions) (scope : Scope) (p : Grammar) :
    (∀ place log xs last log',
      (many p).EndsWith definitions scope place log (.ok (.success last (.list xs)), log') → ∀ n,
        ((∃ value rest middle, (count n p).Gives definitions scope place log value rest middle) ↔
          n ≤ xs.length) ∧
        (n ≤ xs.length → ∃ rest middle,
          Successes definitions scope p place log (xs.take n) rest middle ∧
          (count n p).EndsWith definitions scope place log
            (.ok (.success rest (.list (xs.take n))), middle)) ∧
        (xs.length < n → ∃ messages, p.Fails definitions scope last .empty messages ∧
          (count n p).Fails definitions scope place log (log' ++ messages))) ∧
    ∀ n m bound, (count (n + m) p).eval definitions bound scope =
      (map (both (count n p) (count m p)) Parse.concatenated).eval definitions bound scope := by
  refine ⟨fun place log xs last log' hmany n ↦ ?_, fun n m bound ↦ ?_⟩
  · obtain ⟨xs', last', hreply, hvalues, log'', hfails⟩ := endsWith_many.mp hmany
    obtain ⟨rfl, hxs⟩ := Reply.success.inj hreply
    obtain rfl : xs = xs' := Value.list.inj hxs
    have hgives (hn : n ≤ xs.length) : ∃ rest middle,
        Successes definitions scope p place log (xs.take n) rest middle ∧
          (count n p).Gives definitions scope place log (.list (xs.take n)) rest middle := by
      obtain ⟨rest, middle, hfirst⟩ := hvalues.take n
      exact ⟨rest, middle, hfirst, gives_count.mpr ⟨_, rfl, List.length_take_of_le hn, hfirst⟩⟩
    have hstops (hn : xs.length < n) : (count n p).Fails definitions scope place log log'' :=
      fails_count.mpr ⟨xs, last, log', hn, hvalues, hfails⟩
    refine ⟨⟨?_, fun hn ↦ ?_⟩, fun hn ↦ ?_, fun hn ↦ ?_⟩
    · rintro ⟨value, rest, middle, hcount⟩
      exact Nat.le_of_not_lt fun hn ↦ hcount.not_fails (hstops hn)
    · obtain ⟨rest, middle, -, hcount⟩ := hgives hn
      exact ⟨_, rest, middle, hcount⟩
    · obtain ⟨rest, middle, hfirst, hcount⟩ := hgives hn
      have hproper := proper_count definitions scope n p
      exact ⟨rest, middle, hfirst, (endsWith_success hproper).mpr hcount⟩
    · obtain ⟨_, messages, halone, hending⟩ := endsWith_after.mp hfails
      obtain ⟨rfl, rfl⟩ := Prod.mk.inj hending
      exact ⟨messages, halone, hstops hn⟩
  · cases bound with
    | zero => rfl
    | succ bound => exact Parse.count_add _ n m

/-- One of the two digits in front of a letter, and one digit too many. -/
theorem count_against_many_digits :
    let start : Place := .fresh (.ofText "12a")
    let finish : Place := .fresh ⟨.text "12a".toList.toArray, 2, ⟨0, 2⟩⟩
    (many digit).EndsWith .none .top start .empty
        (.ok (.success finish (.list [.text "1", .text "2"])), .empty) ∧
      (∃ rest log, Successes .none .top digit start .empty [.text "1"] rest log ∧
        (count 1 digit).EndsWith .none .top start .empty
          (.ok (.success rest (.list [.text "1"])), log)) ∧
      ∃ messages, digit.Fails .none .top finish .empty messages ∧
        (count 3 digit).Fails .none .top start .empty (.empty ++ messages) := by
  intro start finish
  have hmany : (many digit).EndsWith .none .top start .empty
      (.ok (.success finish (.list [.text "1", .text "2"])), .empty) :=
    endsWith_of_eval 5 .empty rfl
  have hcount := (count_against_many .none .top digit).1 start .empty _ finish .empty hmany
  exact ⟨hmany, (hcount 1).2.1 (by decide), (hcount 3).2.2 (by decide)⟩

end Grammar

end DiagnosticParsing
