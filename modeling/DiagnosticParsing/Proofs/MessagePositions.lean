import DiagnosticParsing.Proofs.Correspondence.Parsers
import DiagnosticParsing.Proofs.Progress

/-!
# Messages are about places of the input

Each message of a parse carries the position of a stream that comes from the given one by consuming
elements one after the other (`Message.PlacedFrom`), whichever parser logged it: one that gave up at
the start of its operand, an annotation, or a look-ahead that was undone later. This needs to be
known of all streams on which the parts of a parser are run, together with the messages, and it is
known of both when a run is compared with itself. `Correspondence.placed` pairs each stream with
itself if steps lead to it, and messages with themselves if they are placed; every way of building a
parser but a parse function written by hand keeps it, by the laws of
`DiagnosticParsing.Proofs.Correspondence.Parsers`.

Under a rule for positions that starts a row at a given element, steps go forward in the order of
positions (`Stream.position_le`) and come to the end of the data (`Stream.exists_last`). Then no
message is about a position before the start or behind that of the end.
-/

set_option autoImplicit false

namespace DiagnosticParsing

/-! ### The order of positions along a stream -/

namespace Position

theorem le_refl (p : Position) : p ≤ p :=
  .inr rfl

theorem le_trans {p q r : Position} (hpq : p ≤ q) (hqr : q ≤ r) : p ≤ r := by
  rcases hpq with hpq | rfl
  · rcases hqr with hqr | rfl
    · refine .inl ?_
      change p.row < q.row ∨ p.row = q.row ∧ p.col < q.col at hpq
      change q.row < r.row ∨ q.row = r.row ∧ q.col < r.col at hqr
      change p.row < r.row ∨ p.row = r.row ∧ p.col < r.col
      omega
    · exact .inl hpq
  · exact hqr

/-- An element moves the position on, be it to the next row or to the next column. -/
theorem le_advance (position : Position) (element newline : Value) :
    position ≤ position.advance element newline := by
  unfold advance
  by_cases hnewline : element.same newline = true
  · rw [if_pos hnewline]
    exact .inl (.inl (Nat.lt_succ_self _))
  · rw [if_neg hnewline]
    exact .inl (.inr ⟨rfl, Nat.lt_succ_self _⟩)

end Position

namespace Stream

theorem current?_eq_none_iff {stream : Stream} :
    stream.current? = none ↔ stream.data.size ≤ stream.index := by
  rw [current?, ← Sequence.getElem?_toList, List.getElem?_eq_none_iff, Sequence.length_toList]

/-- At the end of the data no step leads further. -/
theorem advance_of_current?_eq_none {stream : Stream} (h : stream.current? = none) (count : Nat) :
    stream.advance count = .ok stream := by
  have hnext : stream.next = .ok (.null, stream) := by
    simp only [next, h]
  induction count with
  | zero => rfl
  | succ count ih =>
    rw [advance_succ, hnext]
    exact ih

section Newline

variable {newline : Value} {start rest last : Stream}

/-- Steps go forward in the order of positions. -/
theorem position_le (hrule : start.source.advance = .newline newline) (h : start.Reaches rest) :
    start.position ≤ rest.position := by
  obtain ⟨count, hcount⟩ := h
  induction count generalizing start with
  | zero =>
    rw [Except.ok.inj hcount]
    exact Position.le_refl _
  | succ count ih =>
    rw [advance_succ] at hcount
    cases hnext : start.next with
    | error fault =>
      rw [hnext] at hcount
      exact nomatch hcount
    | ok step =>
      rw [hnext, Except.bind] at hcount
      rcases next_cases hnext with ⟨-, hstep⟩ | ⟨position, -, hadvance, hstep⟩
      · rw [hstep] at hcount
        exact ih hrule hcount
      · rw [hstep] at hcount
        rw [hrule] at hadvance
        have hposition : start.position.advance step.1 newline = position :=
          Except.ok.inj hadvance
        have hle : position ≤ rest.position :=
          @ih ⟨start.source, start.index + 1, position⟩ hrule hcount
        refine Position.le_trans (start.position.le_advance step.1 newline) ?_
        rwa [hposition]

/-- As many steps as elements are left lead to the end of the data. -/
theorem exists_last (hrule : start.source.advance = .newline newline) :
    ∃ last, start.advance start.remaining.toNat = .ok last ∧ last.current? = none := by
  induction hleft : start.remaining.toNat generalizing start with
  | zero =>
    refine ⟨start, rfl, current?_eq_none_iff.mpr ?_⟩
    rw [remaining] at hleft
    omega
  | succ left ih =>
    rw [remaining] at hleft
    cases hcurrent : start.current? with
    | none =>
      rw [current?_eq_none_iff] at hcurrent
      omega
    | some element =>
      have hnext : start.next = .ok (element,
          ⟨start.source, start.index + 1, start.position.advance element newline⟩) := by
        simp only [next, hcurrent, hrule]
        rfl
      have hstep : ((start.data.size : Int) - (start.index + 1 : Nat)).toNat = left := by
        omega
      obtain ⟨last, hlast, hend⟩ :=
        @ih ⟨start.source, start.index + 1, start.position.advance element newline⟩ hrule hstep
      refine ⟨last, ?_, hend⟩
      rw [advance_succ, hnext]
      exact hlast

/-- Every stream that steps lead to stands at or before the end of the data. -/
theorem Reaches.reaches_last (h : start.Reaches rest) {count : Nat}
    (hlast : start.advance count = .ok last) (hend : last.current? = none) : rest.Reaches last := by
  obtain ⟨steps, hsteps⟩ := h
  by_cases hle : steps ≤ count
  · obtain ⟨more, rfl⟩ := Nat.exists_eq_add_of_le hle
    rw [advance_add, hsteps] at hlast
    exact ⟨more, hlast⟩
  · obtain ⟨more, rfl⟩ := Nat.exists_eq_add_of_le (Nat.le_of_not_le hle)
    rw [advance_add, hlast] at hsteps
    have hrest : last.advance more = .ok rest := hsteps
    rw [advance_of_current?_eq_none hend, Except.ok.injEq] at hrest
    rw [hrest]
    exact reaches_refl rest

end Newline

end Stream

/-! ### Placed messages -/

/-- The message carries the position of a stream that steps lead to. -/
def Message.PlacedFrom (start : Stream) (message : Message) : Prop :=
  ∃ count rest, start.advance count = .ok rest ∧ message.position = rest.position

namespace Correspondence

/-- Each stream goes with itself if steps lead to it, and messages go with themselves if they are
placed. -/
def placed (start : Stream) : Correspondence where
  streams s s' := start.Reaches s ∧ s = s'
  messages added added' := added = added' ∧ ∀ message ∈ added, message.PlacedFrom start
  pardons _ := False
  endless := True
  isEmpty_eq := fun h ↦ by rw [h.2]
  next := by
    rintro s _ ⟨hs, rfl⟩
    cases hnext : s.next with
    | error fault => exact .inl ⟨fault, rfl, rfl⟩
    | ok step =>
      exact .inr ⟨step.1, step.2, step.2, rfl, rfl, hs.trans (Stream.reaches_of_next hnext), rfl⟩
  silence := ⟨rfl, fun _ h ↦ absurd h List.not_mem_nil⟩
  append := by
    rintro added _ more _ ⟨rfl, hadded⟩ ⟨rfl, hmore⟩
    refine ⟨rfl, fun message hmessage ↦ ?_⟩
    rcases List.mem_append.mp hmessage with hmessage | hmessage
    · exact hadded message hmessage
    · exact hmore message hmessage
  message := by
    rintro s _ ⟨⟨count, hcount⟩, rfl⟩ severity text
    refine ⟨rfl, fun message hmessage ↦ ?_⟩
    rw [List.mem_singleton.mp hmessage]
    exact ⟨count, s, hcount, rfl⟩

end Correspondence

namespace Grammar

open Correspondence

/-- Every parser keeps to streams that steps lead to, and says things about their places. -/
theorem placed_hereditary (start : Stream) : Hereditary IsBuiltIn (placed start).Related :=
  hereditary trivial (fun pattern _ ↦ related_regex And.right pattern) (fun _ h ↦ h.elim)
    fun _ observe _ ↦ indifferent_of_eq And.right observe

/-- Every diagnostic points at a real place of the input at or after the start. A run that has come
to an end adds messages that each carry the position of the stream moved on by a number of steps.
Under a rule for positions that starts a row at a given element, none is about a position before
that of the start or behind that of the end of the data. Assumes: a grammar and definitions without
parse functions written by hand. -/
theorem messages_placed {definitions : Definitions} {p : Grammar} (hp : p.Everywhere IsBuiltIn)
    (hdefinitions : definitions.Everywhere IsBuiltIn) (bound : Nat) (slot : Option Nat)
    (start : Stream) (journal : Journal) :
    let outcome := p.eval definitions bound .top (.stream slot start) journal
    outcome.result? ≠ none →
      ∃ added, outcome.messages = journal.log.toList ++ added ∧
        (∀ message ∈ added, ∃ count rest, start.advance count = .ok rest ∧
          message.position = rest.position) ∧
        ∀ newline, start.source.advance = .newline newline →
          ∃ last, start.advance start.remaining.toNat = .ok last ∧ last.current? = none ∧
            ∀ message ∈ added, start.position ≤ message.position ∧
              message.position ≤ last.position := by
  intro outcome hended
  have hends : (placed start).Ends journal.log.toList journal.log.toList
      (Reply.Related (placed start).streams) outcome outcome :=
    (placed_hereditary start).eval hdefinitions bound .top p trivial hp
      (.stream slot ⟨start.reaches_refl, rfl⟩) journal journal
  obtain ⟨added, -, ⟨-, hplaced⟩, hmessages, -⟩ := hends.messages_of_ended hended fun _ _ _ ↦ id
  refine ⟨added, hmessages, hplaced, fun newline hrule ↦ ?_⟩
  obtain ⟨last, hlast, hend⟩ := Stream.exists_last hrule
  refine ⟨last, hlast, hend, fun message hmessage ↦ ?_⟩
  obtain ⟨count, rest, hcount, hposition⟩ := hplaced message hmessage
  have hreached : start.Reaches rest := ⟨count, hcount⟩
  have hsource : rest.source = start.source := (Stream.onward_of_advance hcount).source
  rw [hposition]
  refine ⟨Stream.position_le hrule hreached, ?_⟩
  exact Stream.position_le (by rw [hsource, hrule]) (hreached.reaches_last hlast hend)

/-- An "a" that no "b" follows, with a warning in front and a name. -/
def loneA : Grammar :=
  label (annotate .warning (left (char (.text "a")) (notFollowedBy (char (.text "b")))) "rare") "a"

/-- On the text "ab" it warns about the start, objects to the "b" and says at the start what was
expected. All this is between the start and the end. -/
theorem messages_placed_loneA :
    let outcome := loneA.eval .none 1 .top (.fresh (.ofText "ab")) .empty
    outcome.messages.map (·.position) = [⟨0, 0⟩, ⟨0, 1⟩, ⟨0, 0⟩] ∧
      ∀ message ∈ outcome.messages, ⟨0, 0⟩ ≤ message.position ∧ message.position ≤ ⟨0, 2⟩ := by
  intro outcome
  have hloneA : loneA.Everywhere IsBuiltIn := by
    simp [loneA, char, Everywhere, IsBuiltIn]
  have hended : outcome.result? ≠ none := Option.some_ne_none _
  obtain ⟨added, hmessages, -, hbetween⟩ := messages_placed hloneA (Definitions.everywhere_none _) 1
    none (.ofText "ab") .empty hended
  obtain ⟨last, hlast, -, hadded⟩ := hbetween (.text "\n") rfl
  have hposition : last.position = ⟨0, 2⟩ := by
    rw [← Except.ok.inj hlast]
    rfl
  refine ⟨rfl, fun message hmessage ↦ ?_⟩
  have hmessage : message ∈ added := by
    rwa [hmessages] at hmessage
  rw [← hposition]
  exact hadded message hmessage

end Grammar

end DiagnosticParsing
