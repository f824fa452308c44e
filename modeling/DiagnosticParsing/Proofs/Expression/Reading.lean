import DiagnosticParsing.Grammar.Meaning
import DiagnosticParsing.Proofs.Ensures

/-!
# Reading a text without a trace

How the parts of an expression parser act on a text, stated as equations about single runs. A stream
is given by the text in front of it and the text behind it (`Stream.standing`), so that consuming a
character moves it from one to the other. A parser either reads a piece of text and leaves the
journal as it found it (`Parse.Reads`), or it fails and what it logged goes away with a rollback
(`Parse.Refuses`). There is one lemma for each way of building a parser and of ending its run; they
are used as rewrite rules on the runs of larger parsers.
-/

set_option autoImplicit false

namespace DiagnosticParsing

/-! ### Streams over a text -/

namespace Stream

/-- The position behind a text. -/
def positionBehind (text : List Char) : Position :=
  text.foldl (fun position c ↦ position.advance (.char c) (.text "\n")) .origin

/-- The stream over a text of which one part is consumed and the other is left. -/
def standing (before rest : List Char) : Stream :=
  ⟨.text (before ++ rest).toArray, before.length, positionBehind before⟩

theorem ofText_eq_standing (text : String) : ofText text = standing [] text.toList :=
  rfl

theorem positionBehind_append_singleton (text : List Char) (c : Char) :
    positionBehind (text ++ [c]) = (positionBehind text).advance (.char c) (.text "\n") := by
  rw [positionBehind, List.foldl_append]
  rfl

theorem next_standing_nil (before : List Char) :
    (standing before []).next = .ok (.null, standing before []) := by
  have hcurrent : (standing before []).current? = none := by
    simp [standing, current?, data, Source.data, Sequence.get?]
  rw [next, hcurrent]

theorem next_standing_cons (before rest : List Char) (c : Char) :
    (standing before (c :: rest)).next = .ok (.char c, standing (before ++ [c]) rest) := by
  have hcurrent : (standing before (c :: rest)).current? = some (.char c) := by
    simp [standing, current?, data, Source.data, Sequence.get?]
  have hposition := positionBehind_append_singleton before c
  rw [next, hcurrent]
  simp only [standing, Source.advance, Advance.newline, Except.map, hposition, List.append_assoc,
    List.singleton_append, List.length_append, List.length_singleton]

/-- Nothing is left of a text that is consumed. -/
theorem isEmpty_standing (before : List Char) : (standing before []).isEmpty = true := by
  simp [standing, isEmpty, remaining, data, Source.data, Sequence.size]

end Stream

/-- A message is taken back by a rollback to where the log ended before it. -/
theorem Journal.rollback_complain (journal : Journal) (message : Message) :
    (journal.complain message).rollback journal.log.mark = journal := by
  obtain ⟨⟨messages⟩, notes, memory⟩ := journal
  simp [complain, rollback, Log.add, Log.rollback, Log.mark]

namespace Parse

/-- A parser succeeds at a place and leaves the journal as it is. -/
def Reads (p : Parse) (journal : Journal) (place rest : Place) (value : Value) : Prop :=
  p place journal = .done (.success rest value) journal

/-- A parser fails at a place, and a rollback makes the journal what it was. -/
def Refuses (p : Parse) (journal : Journal) (place : Place) : Prop :=
  ∃ final, p place journal = .done .failure final ∧ final.rollback journal.log.mark = journal

variable {p q r op : Parse} {journal : Journal} {place middle next rest : Place}
  {before following : List Char} {slot : Option Nat} {value first second : Value} {c : Char}

/-! ### Single characters -/

section

variable {test : Value → Except Fault Bool} {describe : Value → Except Fault String}

theorem reads_element (htest : test (.char c) = .ok true) :
    Reads (element test describe) journal (.stream slot (.standing before (c :: following)))
      (.fresh (.standing (before ++ [c]) following)) (.char c) := by
  have hnext := Stream.next_standing_cons before following c
  simp only [Reads, element, Place.stream?, Run.ofExcept_ok_bind, hnext, Value.char]
  rw [Value.char] at htest
  rw [htest]
  rfl

theorem refuses_element (htest : test (.char c) = .ok false)
    (hdescribe : ∃ shown, describe (.char c) = .ok shown) :
    Refuses (element test describe) journal
      (.stream slot (.standing before (c :: following))) := by
  have hnext := Stream.next_standing_cons before following c
  obtain ⟨shown, hdescribe⟩ := hdescribe
  refine ⟨_, ?_, journal.rollback_complain ⟨.error, Stream.positionBehind before, shown⟩⟩
  simp only [element, Place.stream?, Run.ofExcept_ok_bind, hnext, Value.char]
  rw [Value.char] at htest hdescribe
  rw [htest, hdescribe]
  rfl

/-- No element is read where none is left. -/
theorem refuses_element_nil :
    Refuses (element test describe) journal (.stream slot (.standing before [])) := by
  have hnext := Stream.next_standing_nil before
  refine ⟨_, ?_, journal.rollback_complain ⟨.error, Stream.positionBehind before, endOfInput⟩⟩
  simp only [element, Place.stream?, Run.ofExcept_ok_bind, hnext]
  rfl

end

/-! ### Values -/

theorem Reads.map {f : Value → Call Value} {mapped : Value} (hp : p.Reads journal place rest value)
    (hf : f value = .pure mapped) : (Parse.map p f).Reads journal place rest mapped := by
  unfold Reads at hp ⊢
  simp only [Parse.map, andThen, Run.bind_apply, hp, Reply.parts, Run.ofExcept, hf]
  rfl

theorem Refuses.map (f : Value → Call Value) (hp : p.Refuses journal place) :
    (Parse.map p f).Refuses journal place := by
  obtain ⟨final, hrun, hfinal⟩ := hp
  refine ⟨final, ?_, hfinal⟩
  simp only [Parse.map, andThen, Run.bind_apply, hrun]
  rfl

/-! ### One parser after another -/

/-- A parser that reads hands over to what comes next. -/
theorem Reads.andThen_eq (hp : p.Reads journal place rest value)
    (proceed : Place → Value → Run Reply) :
    andThen p proceed place journal = proceed rest value journal := by
  unfold Reads at hp
  simp only [andThen, Run.bind_apply, hp, Reply.parts, Run.ofExcept]

theorem Reads.both (hp : p.Reads journal place middle first)
    (hq : q.Reads journal middle rest second) :
    (Parse.both p q).Reads journal place rest (.tuple [first, second]) := by
  unfold Reads
  rw [Parse.both, hp.andThen_eq, hq.andThen_eq]
  rfl

theorem Refuses.both (hp : p.Refuses journal place) (q : Parse) :
    (Parse.both p q).Refuses journal place := by
  obtain ⟨final, hrun, hfinal⟩ := hp
  refine ⟨final, ?_, hfinal⟩
  simp only [Parse.both, andThen, Run.bind_apply, hrun]
  rfl

/-- A choice of the next parser that reports nothing leads to that parser. -/
theorem Reads.chooseNext_eq (hp : p.Reads journal place rest value) (choose : Value → Call Unit)
    (hchoose : choose value = .pure ()) (choice : Value → Parse) :
    chooseNext p choose choice place journal = choice value rest journal := by
  rw [chooseNext, hp.andThen_eq, hchoose]
  rfl

theorem Reads.mid (hp : p.Reads journal place middle first)
    (hq : q.Reads journal middle next value) (hr : r.Reads journal next rest second) :
    (Parse.mid p q r).Reads journal place rest value := by
  unfold Reads at hp hq hr ⊢
  simp only [Parse.mid, whenSuccess, Run.bind_apply, hp, Reply.first, Run.ofExcept, hq, hr,
    Reply.second]
  rfl

/-! ### Alternatives -/

theorem Reads.either (hp : p.Reads journal place rest value) (q : Parse) :
    (Parse.either p q).Reads journal place rest value := by
  unfold Reads at hp ⊢
  simp only [Parse.either, Run.bind_apply, Run.mark, hp]
  rfl

/-- After a refusal an alternative runs as if it stood alone. -/
theorem Refuses.either_eq (hp : p.Refuses journal place) (q : Parse) :
    Parse.either p q place journal = q place journal := by
  obtain ⟨final, hrun, hfinal⟩ := hp
  simp only [Parse.either, Run.bind_apply, Run.mark, hrun, Run.rollback, hfinal]

theorem Reads.optional (hp : p.Reads journal place rest value) :
    (Parse.optional p).Reads journal place rest value := by
  unfold Reads at hp ⊢
  simp only [Parse.optional, Run.bind_apply, Run.mark, hp]
  rfl

theorem Refuses.optional (hp : p.Refuses journal place) :
    (Parse.optional p).Reads journal place place .null := by
  obtain ⟨final, hrun, hfinal⟩ := hp
  unfold Reads
  simp only [Parse.optional, Run.bind_apply, Run.mark, hrun, Run.rollback, hfinal]
  rfl

/-- Alternatives refuse where each of them does. -/
theorem Refuses.foldl_either (hp : p.Refuses journal place) {more : List Parse}
    (hmore : ∀ q ∈ more, q.Refuses journal place) :
    (more.foldl Parse.either p).Refuses journal place := by
  induction more generalizing p with
  | nil => exact hp
  | cons q more ih =>
    obtain ⟨hq, hmore⟩ := List.forall_mem_cons.mp hmore
    have heither : (Parse.either p q).Refuses journal place := by
      unfold Refuses
      rw [hp.either_eq]
      exact hq
    exact ih heither hmore

/-- Alternatives read where one of them reads and each other one refuses or reads the same. -/
theorem reads_foldl_either {more : List Parse}
    (hall : ∀ q ∈ p :: more, q.Reads journal place rest value ∨ q.Refuses journal place)
    (hone : ∃ q ∈ p :: more, q.Reads journal place rest value) :
    (more.foldl Parse.either p).Reads journal place rest value := by
  induction more generalizing p with
  | nil =>
    obtain ⟨q, hmem, hq⟩ := hone
    rw [List.mem_singleton.mp hmem] at hq
    exact hq
  | cons q more ih =>
    obtain ⟨hp, hall⟩ := List.forall_mem_cons.mp hall
    obtain ⟨hq, hmore⟩ := List.forall_mem_cons.mp hall
    rcases hp with hp | hp
    · have heither := hp.either q
      exact ih (List.forall_mem_cons.mpr ⟨.inl heither, hmore⟩) ⟨_, List.mem_cons_self, heither⟩
    · have heither : Parse.either p q place journal = q place journal := hp.either_eq q
      refine ih (List.forall_mem_cons.mpr ⟨?_, hmore⟩) ?_
      · unfold Reads Refuses at hq ⊢
        rw [heither]
        exact hq
      · obtain ⟨reader, hmem, hreader⟩ := hone
        rcases List.mem_cons.mp hmem with rfl | hmem
        · obtain ⟨final, hrun, -⟩ := hp
          rw [Reads, hrun] at hreader
          nomatch hreader
        · rcases List.mem_cons.mp hmem with rfl | hmem
          · refine ⟨_, List.mem_cons_self, ?_⟩
            unfold Reads at hreader ⊢
            rw [heither]
            exact hreader
          · exact ⟨reader, List.mem_cons_of_mem _ hmem, hreader⟩

/-! ### Chains -/

theorem Reads.link (hop : op.Reads journal place middle first)
    (hp : p.Reads journal middle rest second) :
    Parse.link p op place journal = .done (some (rest, ⟨first, second⟩)) journal := by
  unfold Reads at hop hp
  simp only [Parse.link, Run.bind_apply, Run.mark, hop, Reply.first, Run.ofExcept, hp,
    Reply.second, Reply.parts]
  rfl

theorem Refuses.link (hop : op.Refuses journal place) (p : Parse) :
    Parse.link p op place journal = .done none journal := by
  obtain ⟨final, hrun, hfinal⟩ := hop
  simp only [Parse.link, Run.bind_apply, Run.mark, hrun, Run.rollback, hfinal]
  rfl

variable {bound : Nat} {found : Link} {last applied : Value} {links : List Link}

theorem chainLeftFrom_of_link
    (hlink : Parse.link p op place journal = .done (some (rest, found)) journal)
    (happly : found.operator.apply₂ value found.operand = .pure applied) :
    chainLeftFrom p op (bound + 1) place value journal =
      chainLeftFrom p op bound rest applied journal := by
  rw [chainLeftFrom, Run.bind_apply, hlink]
  simp only [happly]
  rfl

theorem chainLeftFrom_of_no_link (hlink : Parse.link p op place journal = .done none journal) :
    chainLeftFrom p op (bound + 1) place value journal =
      .done (.success place value) journal := by
  rw [chainLeftFrom, Run.bind_apply, hlink]
  rfl

/-- Applies the pending operators of a chain that is grouped from the right. -/
def unwind (last : Value) (links : List Link) : Run Value :=
  links.foldlM (fun combined pending ↦
    Run.ofCall (pending.operator.apply₂ pending.operand combined)) last

theorem unwind_cons (happly : found.operator.apply₂ found.operand last = .pure applied) :
    unwind last (found :: links) journal = unwind applied links journal := by
  rw [unwind, List.foldlM_cons, happly]
  rfl

theorem chainRightFrom_of_link
    (hlink : Parse.link p op place journal = .done (some (rest, found)) journal) :
    chainRightFrom p op (bound + 1) place last links journal =
      chainRightFrom p op bound rest found.operand (⟨found.operator, last⟩ :: links) journal := by
  rw [chainRightFrom, Run.bind_apply, hlink]

theorem chainRightFrom_of_no_link (hlink : Parse.link p op place journal = .done none journal) :
    chainRightFrom p op (bound + 1) place last links journal =
      (unwind last links >>= fun combined ↦ pure (.success place combined)) journal := by
  rw [chainRightFrom, Run.bind_apply, hlink]
  rfl

end Parse

end DiagnosticParsing
