import DiagnosticParsing.Proofs.Elements
import DiagnosticParsing.Proofs.Encoding
import DiagnosticParsing.Proofs.Repetition
import Mathlib.Data.List.Forall2

/-!
# The end of the input

A step finds null where nothing is left, and a null element is found the same way. So whoever goes
by what a step finds takes such an element for the end of the input, or the end for such an element,
while `eof` goes by the number of elements left.

A matcher of a sequence goes by what the next steps find (`Stream.upcoming`), which is what is left
with nulls behind it. It succeeds if these are equal to its own elements one by one, and it has then
taken as many steps, which consume one element each as long as elements are left. The result is
`Grammar.literal_matches`: it accepts just what begins with the sequence, unless the sequence holds
a null that reaches beyond the end.

Reading any elements as long as there are some stops in front of the first null
(`Grammar.successes_anyElement`). If there is none, the whole input has been read: the value is the
list of exactly the elements left, and steps find null just where the stream is empty. Otherwise
`eof` fails at the first null, where steps find null and the stream is not empty. The main result is
`Grammar.read_everything`. A text and a run of bytes have no null elements.
-/

set_option autoImplicit false

namespace DiagnosticParsing

/-! ### What the next steps find -/

namespace Stream

variable {stream rest last : Stream} {element : Value} {count : Nat}

/-- What a number of steps find: the elements left, and null for each step beyond the end. -/
def upcoming (stream : Stream) (count : Nat) : List Value :=
  stream.rest.toList.take count ++ List.replicate (count - stream.rest.size) .null

theorem upcoming_zero (stream : Stream) : stream.upcoming 0 = [] := by
  rw [upcoming, List.take_zero, Nat.zero_sub, List.replicate_zero, List.append_nil]

theorem upcoming_of_end (hrest : stream.rest.toList = []) :
    stream.upcoming (count + 1) = .null :: stream.upcoming count := by
  have hsize : stream.rest.size = 0 := by
    rw [← Sequence.length_toList, hrest, List.length_nil]
  simp only [upcoming, hrest, hsize, List.take_nil, List.nil_append, Nat.sub_zero,
    List.replicate_succ]

theorem upcoming_of_taken (hrest : stream.rest.toList = element :: rest.rest.toList) :
    stream.upcoming (count + 1) = element :: rest.upcoming count := by
  have hsize : stream.rest.size = rest.rest.size + 1 := by
    rw [← Sequence.length_toList, hrest, List.length_cons, Sequence.length_toList]
  rw [upcoming, upcoming, hrest, hsize, List.take_succ_cons, Nat.add_sub_add_right,
    List.cons_append]

@[simp]
theorem length_upcoming (stream : Stream) (count : Nat) :
    (stream.upcoming count).length = count := by
  rw [upcoming, List.length_append, List.length_take, List.length_replicate,
    Sequence.length_toList]
  omega

/-- Within what is left, steps find its elements. -/
theorem upcoming_of_le (hle : count ≤ stream.rest.size) :
    stream.upcoming count = stream.rest.toList.take count := by
  rw [upcoming, Nat.sub_eq_zero_of_le hle, List.replicate_zero, List.append_nil]

/-- Under a rule for positions that never raises, any number of steps can be taken. They consume
what is left and nothing beyond. -/
theorem exists_advance (htotal : stream.source.Total) (count : Nat) :
    ∃ last, stream.advance count = .ok last ∧
      last.index = stream.index + min count stream.rest.size ∧
        last.rest.toList = stream.rest.toList.drop count := by
  induction count generalizing stream with
  | zero => exact ⟨stream, rfl, by omega, rfl⟩
  | succ count ih =>
    have hlength := stream.rest.length_toList
    cases hrest : stream.rest.toList with
    | nil =>
      obtain ⟨last, hlast, hindex, hdrop⟩ := ih htotal
      rw [hrest, List.length_nil] at hlength
      refine ⟨last, ?_, by omega, ?_⟩
      · rw [advance_succ, next_of_end hrest]
        exact hlast
      · rw [hdrop, hrest, List.drop_nil, List.drop_nil]
    | cons element more =>
      obtain ⟨behind, hnext, rfl, hsource, hindex⟩ := exists_taken htotal hrest
      obtain ⟨last, hlast, hindex', hdrop⟩ := @ih behind (hsource ▸ htotal)
      rw [hrest, List.length_cons, Sequence.length_toList] at hlength
      refine ⟨last, ?_, by omega, ?_⟩
      · rw [advance_succ, hnext]
        exact hlast
      · rw [hdrop, List.drop_succ_cons]

/-- Steps do not lead beyond the end. -/
theorem Reaches.index_le_size (h : stream.Reaches last) (hindex : stream.index ≤ stream.data.size) :
    last.index ≤ last.data.size := by
  obtain ⟨count, hcount⟩ := h
  have honward := onward_of_advance hcount
  have hle := honward.index_le_max
  rwa [Nat.max_eq_right hindex, data, ← honward.source] at hle

/-- Up to its end, a stream is empty where no elements are left. -/
theorem isEmpty_iff (hindex : stream.index ≤ stream.data.size) :
    stream.isEmpty = true ↔ stream.rest.toList = [] := by
  rw [← List.length_eq_zero_iff, Sequence.length_toList, rest, Sequence.size_drop, isEmpty,
    remaining, beq_iff_eq]
  omega

end Stream

/-! ### Sequences of elements -/

namespace Parse

/-- The next steps find elements equal to the given ones. -/
def Matches (stream : Stream) (items : List Value) : Prop :=
  List.Forall₂ (fun found expected ↦ found.same expected = true) (stream.upcoming items.length)
    items

/-- The elements are compared with what the next steps find, and these steps are taken. -/
theorem expectAll_eq (items : List Value) {stream : Stream} (htotal : stream.source.Total) :
    (Matches stream items → ∃ last, stream.advance items.length = .ok last ∧
      expectAll items stream = .ok (some last)) ∧
    (¬Matches stream items → expectAll items stream = .ok none) := by
  induction items generalizing stream with
  | nil =>
    have hmatches : Matches stream [] := by
      rw [Matches, List.length_nil, Stream.upcoming_zero]
      exact .nil
    exact ⟨fun _ ↦ ⟨stream, rfl, rfl⟩, fun hnot ↦ (hnot hmatches).elim⟩
  | cons item items ih =>
    -- Whatever the step finds, the other items are compared with what is behind it.
    have hround {found : Value} {rest : Stream} (hnext : stream.next = .ok (found, rest))
        (htotal' : rest.source.Total)
        (hupcoming : stream.upcoming (items.length + 1) = found :: rest.upcoming items.length) :
        (Matches stream (item :: items) → ∃ last, stream.advance (items.length + 1) = .ok last ∧
          expectAll (item :: items) stream = .ok (some last)) ∧
        (¬Matches stream (item :: items) → expectAll (item :: items) stream = .ok none) := by
      have hiff : Matches stream (item :: items) ↔
          found.same item = true ∧ Matches rest items := by
        rw [Matches, List.length_cons, hupcoming, List.forall₂_cons]
        rfl
      have hexpect : expectAll (item :: items) stream =
          if found.same item then expectAll items rest else .ok none := by
        rw [expectAll, hnext]
        rfl
      rw [hiff, hexpect, Stream.advance_succ, hnext]
      by_cases hsame : found.same item = true
      · rw [if_pos hsame]
        obtain ⟨haccepts, hrejects⟩ := ih htotal'
        exact ⟨fun h ↦ haccepts h.2, fun hnot ↦ hrejects fun h ↦ hnot ⟨hsame, h⟩⟩
      · rw [if_neg hsame]
        exact ⟨fun h ↦ absurd h.1 hsame, fun _ ↦ rfl⟩
    cases hrest : stream.rest.toList with
    | nil => exact hround (Stream.next_of_end hrest) htotal (Stream.upcoming_of_end hrest)
    | cons element more =>
      obtain ⟨behind, hnext, rfl, hsource, -⟩ := Stream.exists_taken htotal hrest
      exact hround hnext (hsource ▸ htotal) (Stream.upcoming_of_taken hrest)

/-- Null equals nothing else. So items without null, or items that reach no further than what is
left, are matched by elements left only. -/
theorem matches_iff {stream : Stream} {items : List Value}
    (h : items.length ≤ stream.rest.size ∨ .null ∉ items) :
    Matches stream items ↔ items.length ≤ stream.rest.size ∧
      List.Forall₂ (fun found expected ↦ found.same expected = true)
        (stream.rest.toList.take items.length) items := by
  by_cases hle : items.length ≤ stream.rest.size
  · rw [Matches, Stream.upcoming_of_le hle, and_iff_right hle]
  · have hnull : .null ∉ items := h.resolve_left hle
    refine iff_of_false (fun hmatches ↦ ?_) fun hleft ↦ hle hleft.1
    have hitem : stream.rest.size < items.length := Nat.lt_of_not_le hle
    have hfound : stream.rest.size < (stream.upcoming items.length).length := by
      rwa [Stream.length_upcoming]
    have hnullFound : (stream.upcoming items.length)[stream.rest.size] = .null := by
      simp [Stream.upcoming, List.getElem_append_right, Nat.le_of_lt hitem]
    have hsame := hmatches.get hfound hitem
    rw [List.get_eq_getElem, List.get_eq_getElem, hnullFound, Value.same_null] at hsame
    · exact Bool.false_ne_true hsame
    · exact fun heq ↦ hnull (heq ▸ List.getElem_mem hitem)

theorem literal_of_matches {stream last : Stream} {expected : Value} {items : List Value}
    (slot : Option Nat) (hitems : expected.elements = .ok items)
    (hlast : expectAll items stream = .ok (some last)) :
    literal expected (.stream slot stream) = pure (.success (.fresh last) expected) := by
  simp only [literal, hitems, hlast, Run.ofExcept_ok_bind]

theorem literal_of_not_matches {stream : Stream} {expected : Value} {items : List Value}
    (slot : Option Nat) (hitems : expected.elements = .ok items)
    (hnone : expectAll items stream = .ok none) :
    literal expected (.stream slot stream) =
      giveUp (.stream slot stream) ("expecting \"" ++ expected.display ++ "\".") := by
  simp only [literal, hitems, hnone, Run.ofExcept_ok_bind]

end Parse

namespace Grammar

variable {definitions : Definitions} {scope : Scope} {slot : Option Nat} {stream last : Stream}
  {log : Log}

/-- A sequence is matched by what the next steps find: if these are elements equal to its own one by
one, its matcher succeeds and logs nothing, and otherwise it fails and logs exactly one error at the
start. If the sequence is no longer than what is left, or has no null among its elements, it is
matched just where as many elements are left and these are equal to its own. Assumes: a rule for
positions that never raises. -/
theorem literal_matches (definitions : Definitions) (scope : Scope) (slot : Option Nat)
    (stream : Stream) (log : Log) (expected : Value) (items : List Value)
    (htotal : stream.source.Total) (hitems : expected.elements = .ok items) :
    (∀ ending, (literal expected).EndsWith definitions scope (.stream slot stream) log ending ↔
      (Parse.Matches stream items ∧ ∃ last, stream.advance items.length = .ok last ∧
        last.index = stream.index + min items.length stream.rest.size ∧
          ending = (.ok (.success (.fresh last) expected), log)) ∨
      (¬Parse.Matches stream items ∧ ending = (.ok .failure, log.add
        ⟨.error, stream.position, "expecting \"" ++ expected.display ++ "\"."⟩))) ∧
      (items.length ≤ stream.rest.size ∨ .null ∉ items →
        (Parse.Matches stream items ↔ items.length ≤ stream.rest.size ∧
          List.Forall₂ (fun found expected ↦ found.same expected = true)
            (stream.rest.toList.take items.length) items)) := by
  refine ⟨fun ending ↦ ?_, Parse.matches_iff⟩
  obtain ⟨haccepts, hrejects⟩ := Parse.expectAll_eq items htotal
  by_cases hmatches : Parse.Matches stream items
  · obtain ⟨last, hlast, hexpect⟩ := haccepts hmatches
    obtain ⟨last', hlast', hindex, -⟩ := Stream.exists_advance htotal items.length
    obtain rfl : last = last' := Except.ok.inj (hlast.symm.trans hlast')
    have hends : (literal expected).EndsWith definitions scope (.stream slot stream) log
        (.ok (.success (.fresh last) expected), log) := by
      refine endsWith_of_eval 1 ⟨log, #[], ∅⟩ ?_
      have heval : (literal expected).eval definitions 1 scope (.stream slot stream) =
          pure (.success (.fresh last) expected) :=
        Parse.literal_of_matches slot hitems hexpect
      rw [heval]
      rfl
    rw [hends.iff_eq]
    simp [hmatches, hlast, hindex]
  · have hends : (literal expected).Fails definitions scope (.stream slot stream) log
        (log.add ⟨.error, stream.position, "expecting \"" ++ expected.display ++ "\"."⟩) :=
      fails_of_giveUp fun _ ↦ Parse.literal_of_not_matches slot hitems (hrejects hmatches)
    rw [hends.iff_eq]
    simp [hmatches]

/-- A text in front of what is left of the input. -/
theorem literal_matches_text :
    let start := Stream.ofText "abc"
    (literal (.text "ab")).EndsWith .none .top (.fresh start) .empty
      (.ok (.success (.fresh ⟨start.source, 2, ⟨0, 2⟩⟩) (.text "ab")), .empty) := by
  intro start
  have htotal : start.source.Total := fun _ _ ↦ ⟨_, rfl⟩
  have hmatches : Parse.Matches start [.text "a", .text "b"] :=
    .cons rfl (.cons rfl .nil)
  obtain ⟨hends, -⟩ := literal_matches .none .top none start .empty (.text "ab")
    [.text "a", .text "b"] htotal rfl
  exact (hends _).mpr (.inl ⟨hmatches, ⟨start.source, 2, ⟨0, 2⟩⟩, rfl, rfl, rfl⟩)

/-- A null among the elements of a sequence is matched by the end of the input, although no element
is left that could equal it. -/
theorem literal_null_at_end :
    let start := Stream.ofText ""
    start.rest.size = 0 ∧
      (literal (.list [.null])).EndsWith .none .top (.fresh start) .empty
        (.ok (.success (.fresh start) (.list [.null])), .empty) :=
  ⟨rfl, endsWith_of_eval 1 .empty rfl⟩

/-! ### Reading everything -/

theorem gives_eof (hempty : stream.isEmpty = true) :
    eof.Gives definitions scope (.stream slot stream) log .null (.stream slot stream) log := by
  refine ⟨.success (.stream slot stream) .null, endsWith_of_eval 1 ⟨log, #[], ∅⟩ ?_, rfl⟩
  have heval : eof.eval definitions 1 scope (.stream slot stream) =
      pure (.success (.stream slot stream) .null) := by
    change Parse.eof (.stream slot stream) = _
    simp only [Parse.eof, Place.stream?, Run.ofExcept_ok_bind, hempty, if_true]
  rw [heval]
  rfl

theorem fails_eof (hempty : stream.isEmpty = false) :
    eof.Fails definitions scope (.stream slot stream) log
      (log.add ⟨.error, stream.position, "expecting end of input."⟩) := by
  refine fails_of_giveUp fun bound ↦ ?_
  change Parse.eof (.stream slot stream) = _
  simp only [Parse.eof, Place.stream?, Run.ofExcept_ok_bind, hempty, Bool.false_eq_true, if_false]

/-- Elements other than null are read one after the other. -/
theorem successes_anyElement (htotal : stream.source.Total) {front more : List Value}
    (hrest : stream.rest.toList = front ++ more) (hfront : .null ∉ front)
    (hlast : stream.advance front.length = .ok last) :
    Successes definitions scope anyElement (.stream slot stream) log front
      (.stream (if front = [] then slot else none) last) log := by
  induction front generalizing slot stream with
  | nil =>
    obtain rfl : stream = last := Except.ok.inj hlast
    exact .none _ _
  | cons x front ih =>
    rw [List.cons_append] at hrest
    obtain ⟨hx, hothers⟩ := not_or.mp (mt List.mem_cons.mpr hfront)
    obtain ⟨behind, hnext, hbehind, hsource, -⟩ := Stream.exists_taken htotal hrest
    rw [List.length_cons, Stream.advance_succ, hnext] at hlast
    have hsuccesses := @ih none behind (hsource ▸ htotal) hbehind hothers hlast
    rw [ite_self] at hsuccesses
    rw [if_neg (List.cons_ne_nil x front)]
    exact .next (gives_element hnext (Ne.symm hx) rfl) hsuccesses

/-- No element is read where null comes next, or nothing. -/
theorem fails_anyElement (htotal : stream.source.Total)
    (hrest : ∀ x ∈ stream.rest.toList.head?, x = .null) :
    ∃ log', anyElement.Fails definitions scope (.stream slot stream) log log' := by
  cases hleft : stream.rest.toList with
  | nil => exact ⟨_, fails_element_of_null (Stream.next_of_end hleft)⟩
  | cons element more =>
    obtain ⟨behind, hnext, -⟩ := Stream.exists_taken htotal hleft
    obtain rfl : element = .null := hrest element (by rw [hleft]; rfl)
    exact ⟨_, fails_element_of_null hnext⟩

/-- Any elements are read up to the first null, or to the end. -/
theorem gives_many_anyElement (definitions : Definitions) (scope : Scope) (slot : Option Nat)
    (log : Log) (htotal : stream.source.Total) {front more : List Value}
    (hrest : stream.rest.toList = front ++ more) (hfront : .null ∉ front)
    (hmore : ∀ x ∈ more.head?, x = .null) (hlast : stream.advance front.length = .ok last) :
    (many anyElement).Gives definitions scope (.stream slot stream) log (.list front)
      (.stream (if front = [] then slot else none) last) log := by
  obtain ⟨last', hlast', -, hdrop⟩ := Stream.exists_advance htotal front.length
  obtain rfl : last = last' := Except.ok.inj (hlast.symm.trans hlast')
  have hsource : last.source = stream.source := (Stream.onward_of_advance hlast).source
  rw [hrest, List.drop_left] at hdrop
  have hstop : ∀ x ∈ last.rest.toList.head?, x = .null := by
    rwa [hdrop]
  exact gives_many.mpr ⟨front, rfl, successes_anyElement htotal hrest hfront hlast,
    fails_anyElement (hsource ▸ htotal) hstop⟩

/-- Elements of texts and of runs of bytes are not null. -/
theorem null_notMem_rest {stream : Stream} (hdata : (∃ chars, stream.data = .text chars) ∨
    (∃ items, stream.data = .bytes items) ∨ ∃ items, stream.data = .byteArray items) :
    .null ∉ stream.rest.toList := by
  have hall : ∀ x ∈ stream.data.toList, x ≠ .null := by
    rcases hdata with ⟨chars, hdata⟩ | ⟨items, hdata⟩ | ⟨items, hdata⟩
    all_goals
      rw [hdata]
      intro x hx
      obtain ⟨c, -, rfl⟩ := List.mem_map.mp hx
      exact nofun
  intro hnull
  rw [Stream.rest, Sequence.toList_drop] at hnull
  exact hall .null (List.mem_of_mem_drop hnull) rfl

/-- Without null among the elements left, steps find null just where the stream is empty. -/
theorem next_null_iff_isEmpty {start s : Stream} (hindex : start.index ≤ start.data.size)
    (hnull : .null ∉ start.rest.toList) (hreached : start.Reaches s) :
    (∃ s', s.next = .ok (.null, s')) ↔ s.isEmpty = true := by
  rw [Stream.isEmpty_iff (hreached.index_le_size hindex)]
  cases s.step with
  | ended hrest hnext => exact iff_of_true ⟨s, hnext⟩ hrest
  | raised element more fault hrest hnext =>
    rw [hrest, hnext]
    exact iff_of_false (fun ⟨_, h⟩ ↦ nomatch h) (List.cons_ne_nil _ _)
  | taken element behind hrest hnext _ _ =>
    obtain ⟨count, hcount⟩ := hreached
    have helement : element ∈ start.rest.toList := by
      refine (Stream.onward_of_advance hcount).suffix.subset ?_
      rw [hrest]
      exact List.mem_cons_self
    rw [hrest, hnext]
    refine iff_of_false ?_ (List.cons_ne_nil _ _)
    rintro ⟨s', h⟩
    obtain ⟨rfl, -⟩ := Prod.mk.inj (Except.ok.inj h)
    exact hnull helement

/-- Reading everything reads up to the first null. If none is left, as in texts and runs of bytes,
any elements as long as there are some and then the end of the input succeed with the list of the
elements left, and leave an empty stream and the log as it was. If a null is left, they fail and log
one error at the first null. Assumes: a rule for positions that never raises, and a stream that is
not beyond its end. -/
theorem read_everything (definitions : Definitions) (scope : Scope) (slot : Option Nat)
    (stream : Stream) (log : Log) (htotal : stream.source.Total)
    (hindex : stream.index ≤ stream.data.size) :
    (.null ∉ stream.rest.toList →
      (∃ last, stream.advance stream.rest.size = .ok last ∧ last.index = stream.data.size ∧
        last.isEmpty = true ∧ ∀ ending,
          (left (many anyElement) eof).EndsWith definitions scope (.stream slot stream) log ending ↔
            ending = (.ok (.success (.stream (if stream.rest.toList = [] then slot else none) last)
              (.list stream.rest.toList)), log)) ∧
      ∀ s, stream.Reaches s → ((∃ s', s.next = .ok (.null, s')) ↔ s.isEmpty = true)) ∧
    ((∃ chars, stream.data = .text chars) ∨ (∃ items, stream.data = .bytes items) ∨
        (∃ items, stream.data = .byteArray items) → .null ∉ stream.rest.toList) ∧
    ∀ front more, stream.rest.toList = front ++ .null :: more → .null ∉ front →
      ∃ stop, stream.advance front.length = .ok stop ∧ (∃ s', stop.next = .ok (.null, s')) ∧
        stop.isEmpty = false ∧ ∀ ending,
          (left (many anyElement) eof).EndsWith definitions scope (.stream slot stream) log ending ↔
            ending =
              (.ok .failure, log.add ⟨.error, stop.position, "expecting end of input."⟩) := by
  have hmany := proper_many definitions scope anyElement
  have heof := proper_eof definitions scope
  have hsize : stream.rest.size = stream.data.size - stream.index := Sequence.size_drop _ _
  have hlength := stream.rest.length_toList
  refine ⟨fun hnull ↦ ⟨?_, fun s ↦ next_null_iff_isEmpty hindex hnull⟩, null_notMem_rest,
    fun front more hrest hfront ↦ ?_⟩
  · obtain ⟨last, hlast, hlastIndex, hdrop⟩ := Stream.exists_advance htotal stream.rest.size
    have hend : last.index = stream.data.size := by omega
    have hempty : last.isEmpty = true := by
      rw [Stream.isEmpty_iff (Stream.Reaches.index_le_size ⟨_, hlast⟩ hindex), hdrop, ← hlength,
        List.drop_length]
    have hgives := gives_many_anyElement definitions scope slot log htotal
      (List.append_nil _).symm hnull nofun (hlength ▸ hlast)
    have hboth := (gives_left hmany heof).mpr ⟨_, _, _, hgives, gives_eof hempty⟩
    have hends := (endsWith_success (proper_left definitions scope _ _)).mpr hboth
    exact ⟨last, hlast, hend, hempty, fun ending ↦ hends.iff_eq⟩
  · obtain ⟨stop, hstop, -, hdrop⟩ := Stream.exists_advance htotal front.length
    have hsource := (Stream.onward_of_advance hstop).source
    rw [hrest, List.drop_left] at hdrop
    obtain ⟨behind, hnext, -⟩ := Stream.exists_taken (hsource ▸ htotal) hdrop
    have hempty : stop.isEmpty = false := by
      rw [← Bool.not_eq_true, Stream.isEmpty_iff (Stream.Reaches.index_le_size ⟨_, hstop⟩ hindex),
        hdrop]
      exact List.cons_ne_nil _ _
    have hgives := gives_many_anyElement definitions scope slot log htotal hrest hfront
      (by simp) hstop
    have hends := (fails_left hmany heof).mpr (.inr ⟨_, _, _, hgives, fails_eof hempty⟩)
    exact ⟨stop, hstop, ⟨behind, hnext⟩, hempty, fun ending ↦ EndsWith.iff_eq hends⟩

/-- Numbers that take a row each, with the first of them consumed. -/
theorem read_everything_rows :
    let source : Source := .tokens (.list #[.int 3, .int 1, .int 2]) .row
    (left (many anyElement) eof).EndsWith .none .top (.fresh ⟨source, 1, ⟨1, 0⟩⟩) .empty
      (.ok (.success (.fresh ⟨source, 3, ⟨3, 0⟩⟩) (.list [.int 1, .int 2])), .empty) := by
  intro source
  have htotal : source.Total := fun _ _ ↦ ⟨_, rfl⟩
  have hnull : .null ∉ [Value.int 1, Value.int 2] := by simp
  obtain ⟨hall, -, -⟩ := read_everything .none .top none ⟨source, 1, ⟨1, 0⟩⟩ .empty htotal
    (Nat.le_of_ble_eq_true rfl)
  obtain ⟨⟨last, hlast, -, -, hends⟩, -⟩ := hall hnull
  obtain rfl : ⟨source, 3, ⟨3, 0⟩⟩ = last := Except.ok.inj hlast
  exact (hends _).mpr rfl

/-- A null token is left and taken for the end of the input, which it is not. -/
theorem read_everything_null :
    let start := Stream.ofTokens (.list #[.null])
    (∃ behind, start.next = .ok (.null, behind)) ∧ start.isEmpty = false ∧
      (left (many anyElement) eof).EndsWith .none .top (.fresh start) .empty
        (.ok .failure, Log.empty.add ⟨.error, .origin, "expecting end of input."⟩) :=
  ⟨⟨_, rfl⟩, rfl, endsWith_of_eval 3 .empty rfl⟩

end Grammar

end DiagnosticParsing
