import DiagnosticParsing.Proofs.Copies
import Mathlib.Data.List.DropRight

/-!
# Rows and columns

A source without a rule for positions of its own (`Source.Plain`) counts rows by the line feeds of a
text, by the bytes ten of a run of bytes, and by the elements of a list or a tuple that are the text
of a line feed. The position of a stream over such a source is known without following the steps
that led there: the row has grown by the number of these elements, and the column is the number of
elements behind the last of them (`Position.after`, `Stream.positionAfter`).

The rule folded over the elements between two streams comes to this closed form
(`Position.foldlM_newline`), one element at a time from the back. Elements move it forward in the
order of positions (`Position.lt_after`). So of two streams that steps from one start lead to, the
one with the greater index has the greater position (`Stream.Reaches.position_lt`), and positions
are in the same order as indices.

The main result is `Stream.rows_and_columns`. It holds of any start, be it beyond the end of the
data:

* As many steps as there are elements left, or fewer, consume one element each, and the position is
  the closed form. Any further steps change nothing.
* Of all streams that steps lead to, each one that has elements left can consume one, which moves
  its position forward, and any two have their positions in the same order as their indices.
* All of this is kept by copies. In a session that sets up the stream, consumes from it, copies it,
  and does so with the copies too, every name that refers to a stream refers to the one to which as
  many steps lead from the start as elements have been asked for of it, those included that were
  asked for of the streams that it is a copy of (`Session.Follows`).
-/

set_option autoImplicit false

namespace DiagnosticParsing

/-! ### The closed form -/

namespace Position

variable {α : Type}

/-- The position behind elements of which some end a row. Each of these takes a row, and the column
is the number of elements behind the last of them. -/
def after (position : Position) (endsRow : α → Bool) (elements : List α) : Position :=
  ⟨position.row + elements.countP endsRow,
    if elements.any endsRow then (elements.rtakeWhile (!endsRow ·)).length
    else position.col + elements.length⟩

/-- The last element starts a row or moves one column on. -/
theorem after_concat (position : Position) (endsRow : α → Bool) (elements : List α) (x : α) :
    position.after endsRow (elements ++ [x]) =
      if endsRow x then (position.after endsRow elements).nextRow
      else (position.after endsRow elements).nextColumn := by
  by_cases hx : endsRow x = true
  · simp [after, nextRow, hx, Nat.add_assoc]
  · rw [Bool.not_eq_true] at hx
    by_cases hany : elements.any endsRow = true
    · simp [after, nextColumn, hx, hany]
    · simp [after, nextColumn, hx, hany, Nat.add_assoc]

/-- The rule of a newline, followed through the elements, comes to the closed form. -/
theorem foldlM_newline (position : Position) (newline : Value) (elements : List Value) :
    elements.foldlM (Advance.newline newline) position =
      .ok (position.after (·.same newline) elements) := by
  induction elements using List.reverseRecOn with
  | nil => rfl
  | append_singleton elements x ih =>
    rw [List.foldlM_append, ih, after_concat]
    rfl

/-- What ends a row can be told before the elements are read as values. -/
theorem after_map {β : Type} (position : Position) (endsRow : β → Bool) (f : α → β)
    (elements : List α) :
    position.after endsRow (elements.map f) = position.after (endsRow ∘ f) elements := by
  induction elements using List.reverseRecOn with
  | nil => rfl
  | append_singleton elements x ih =>
    rw [List.map_append, List.map_singleton, after_concat, after_concat, ih]
    rfl

/-- Elements move the position forward. -/
theorem lt_after (position : Position) (endsRow : α → Bool) {elements : List α}
    (hne : elements ≠ []) : position < position.after endsRow elements := by
  by_cases hany : elements.any endsRow = true
  · obtain ⟨x, hx, hends⟩ := List.any_eq_true.mp hany
    have hcount : 0 < elements.countP endsRow := List.countP_pos_iff.mpr ⟨x, hx, hends⟩
    exact .inl (Nat.lt_add_of_pos_right hcount)
  · have hcount : elements.countP endsRow = 0 := by
      rw [List.countP_eq_zero]
      exact fun x hx hends ↦ hany (List.any_eq_true.mpr ⟨x, hx, hends⟩)
    refine .inr ⟨?_, ?_⟩
    · rw [after, hcount, Nat.add_zero]
    · rw [after, if_neg hany]
      exact Nat.lt_add_of_pos_right (List.length_pos_iff.mpr hne)

theorem lt_asymm {p q : Position} (hpq : p < q) : ¬q < p := by
  intro hqp
  change p.row < q.row ∨ p.row = q.row ∧ p.col < q.col at hpq
  change q.row < p.row ∨ q.row = p.row ∧ q.col < p.col at hqp
  omega

theorem lt_irrefl (position : Position) : ¬position < position := fun h ↦ lt_asymm h h

end Position

/-! ### Three rules -/

/-- The element is the text of a line feed. No number is. -/
def Value.isLineFeed : Value → Bool
  | .text s => s == "\n"
  | _ => false

theorem Value.same_lineFeed (x : Value) : x.same (.text "\n") = x.isLineFeed := by
  cases x <;> simp [same, isLineFeed, number?, bytes?]

theorem Value.same_byte_ten (b : UInt8) : (byte b).same (.int 10) = (b == 10) := by
  have hiff : (b.toNat : Int) = 10 ↔ b = 10 := by
    rw [← UInt8.toNat_inj]
    exact Int.ofNat_inj
  simp [byte, same, number?, hiff]

/-- The element that ends a row of a sequence which comes without a rule for positions. -/
def Sequence.newline : Sequence → Value
  | .text _ | .list _ | .tuple _ => .text "\n"
  | .bytes _ | .byteArray _ => .int 10

/-- The source has no rule for positions but the one that suits its data. -/
def Source.Plain (source : Source) : Prop :=
  source.advance = .default source.data

theorem Advance.default_eq (data : Sequence) : default data = newline data.newline := by
  cases data <;> rfl

theorem Source.Plain.advance_eq {source : Source} (hplain : source.Plain) :
    source.advance = .newline source.data.newline :=
  Eq.trans hplain (Advance.default_eq source.data)

theorem Source.Plain.total {source : Source} (hplain : source.Plain) : source.Total := by
  intro position element
  rw [hplain.advance_eq]
  exact ⟨_, rfl⟩

namespace Stream

/-- The position behind a number of the elements that are left. Rows are counted by line feeds in a
text, by bytes ten in a run of bytes, and in other sequences by elements that are the text of a line
feed. -/
def positionAfter (stream : Stream) (count : Nat) : Position :=
  match stream.data with
  | .text chars =>
    stream.position.after (· == '\n') ((chars.toList.drop stream.index).take count)
  | .bytes items | .byteArray items =>
    stream.position.after (· == 10) ((items.toList.drop stream.index).take count)
  | .list items | .tuple items =>
    stream.position.after Value.isLineFeed ((items.toList.drop stream.index).take count)

theorem positionAfter_eq (stream : Stream) (count : Nat) :
    stream.positionAfter count =
      stream.position.after (·.same stream.data.newline) (stream.rest.toList.take count) := by
  have hchar : (fun x : Value ↦ x.same (.text "\n")) ∘ Value.char = (· == '\n') :=
    funext fun c ↦ Value.same_char c '\n'
  have hbyte : (fun x : Value ↦ x.same (.int 10)) ∘ Value.byte = (· == 10) :=
    funext Value.same_byte_ten
  have hvalue : (fun x : Value ↦ x.same (.text "\n")) = Value.isLineFeed :=
    funext Value.same_lineFeed
  rw [positionAfter, rest, Sequence.toList_drop]
  cases stream.data with
  | text chars =>
    rw [Sequence.toList, Sequence.newline, ← List.map_drop, ← List.map_take, Position.after_map,
      hchar]
  | list items | tuple items =>
    rw [Sequence.toList, Sequence.newline, hvalue]
  | bytes items | byteArray items =>
    rw [Sequence.toList, Sequence.newline, ← List.map_drop, ← List.map_take, Position.after_map,
      hbyte]

/-! ### Steps -/

variable {start stream s s' : Stream} {element : Value} {count : Nat}

/-- Steps lead to the position in closed form. -/
theorem Reaches.eq_after (hplain : s.source.Plain) (h : s.Reaches s') :
    s' = ⟨s.source, s'.index, s.positionAfter (s'.index - s.index)⟩ := by
  obtain ⟨steps, hsteps⟩ := h
  have honward := onward_of_advance hsteps
  have hposition := honward.position
  rw [hplain.advance_eq, Position.foldlM_newline, List.drop_take] at hposition
  have hclosed : s'.position = s.positionAfter (s'.index - s.index) := by
    rw [positionAfter_eq, rest, Sequence.toList_drop]
    exact (Except.ok.inj hposition).symm
  rw [← hclosed, ← honward.source]

/-- As long as elements are left, steps consume one each. -/
theorem advance_eq_after (hplain : stream.source.Plain) (hcount : count ≤ stream.rest.size) :
    stream.advance count =
      .ok ⟨stream.source, stream.index + count, stream.positionAfter count⟩ := by
  obtain ⟨last, hlast, hindex, -⟩ := exists_advance hplain.total count
  rw [Nat.min_eq_left hcount] at hindex
  rw [hlast, Reaches.eq_after hplain ⟨count, hlast⟩, hindex, Nat.add_sub_cancel_left]

/-- Beyond the end, steps change nothing. -/
theorem advance_of_size_le (htotal : stream.source.Total) (hcount : stream.rest.size ≤ count) :
    stream.advance count = stream.advance stream.rest.size := by
  obtain ⟨last, hlast, hindex, -⟩ := exists_advance htotal stream.rest.size
  obtain ⟨more, rfl⟩ := Nat.exists_eq_add_of_le hcount
  have hend : last.current? = none := by
    have hsize : stream.rest.size = stream.data.size - stream.index := Sequence.size_drop _ _
    rw [current?_eq_none_iff, data, (onward_of_advance hlast).source, ← data]
    omega
  rw [advance_add, hlast]
  exact advance_of_current?_eq_none hend more

/-- The greater index has the greater position. -/
theorem Reaches.position_lt (hplain : s.source.Plain) (h : s.Reaches s')
    (hindex : s.index < s'.index) : s.position < s'.position := by
  have hmax : s'.index ≤ max s.index s.data.size := by
    obtain ⟨steps, hsteps⟩ := h
    exact (onward_of_advance hsteps).index_le_max
  have hsize : s.rest.size = s.data.size - s.index := Sequence.size_drop _ _
  rw [h.eq_after hplain, positionAfter_eq]
  refine Position.lt_after _ _ (List.ne_nil_of_length_pos ?_)
  rw [List.length_take, Sequence.length_toList]
  omega

/-- Of two streams that steps lead to, steps lead from one to the other. -/
theorem Reaches.total (h : start.Reaches s) (h' : start.Reaches s') :
    s.Reaches s' ∨ s'.Reaches s := by
  obtain ⟨count, hcount⟩ := h
  obtain ⟨count', hcount'⟩ := h'
  rcases Nat.le_total count count' with hle | hle
  · obtain ⟨more, rfl⟩ := Nat.exists_eq_add_of_le hle
    rw [advance_add, hcount] at hcount'
    exact .inl ⟨more, hcount'⟩
  · obtain ⟨more, rfl⟩ := Nat.exists_eq_add_of_le hle
    rw [advance_add, hcount'] at hcount
    exact .inr ⟨more, hcount⟩

/-- Of two streams that steps lead to, the one with the smaller index has the smaller position. -/
theorem position_lt_of_index_lt (hplain : start.source.Plain) (h : start.Reaches s)
    (h' : start.Reaches s') (hindex : s.index < s'.index) : s.position < s'.position := by
  obtain ⟨steps, hsteps⟩ := h
  have hsource := (onward_of_advance hsteps).source
  rcases Reaches.total ⟨steps, hsteps⟩ h' with hforward | ⟨back, hback⟩
  · exact hforward.position_lt (hsource ▸ hplain) hindex
  · have hle := (onward_of_advance hback).index_le
    omega

/-- And with the same index they are the same stream. -/
theorem eq_of_index_eq (hplain : start.source.Plain) (h : start.Reaches s)
    (h' : start.Reaches s') (hindex : s.index = s'.index) : s = s' := by
  rw [h.eq_after hplain, h'.eq_after hplain, hindex]

/-- Positions are in the same order as indices. -/
theorem position_lt_iff_and_eq_iff (hplain : start.source.Plain) (h : start.Reaches s)
    (h' : start.Reaches s') :
    (s.position < s'.position ↔ s.index < s'.index) ∧
      (s.position = s'.position ↔ s.index = s'.index) := by
  rcases Nat.lt_trichotomy s.index s'.index with hlt | heq | hgt
  · have hposition := position_lt_of_index_lt hplain h h' hlt
    refine ⟨iff_of_true hposition hlt, iff_of_false (fun heq ↦ ?_) (Nat.ne_of_lt hlt)⟩
    rw [heq] at hposition
    exact Position.lt_irrefl _ hposition
  · obtain rfl := eq_of_index_eq hplain h h' heq
    exact ⟨iff_of_false (Position.lt_irrefl _) (Nat.lt_irrefl _), iff_of_true rfl rfl⟩
  · have hposition := position_lt_of_index_lt hplain h' h hgt
    refine ⟨iff_of_false (Position.lt_asymm hposition) (Nat.lt_asymm hgt),
      iff_of_false (fun heq ↦ ?_) (Nat.ne_of_gt hgt)⟩
    rw [heq] at hposition
    exact Position.lt_irrefl _ hposition

/-- A step that consumes an element moves the position forward. -/
theorem exists_next_position_lt (hplain : s.source.Plain) (hindex : s.index < s.data.size) :
    ∃ element s', s.next = .ok (element, s') ∧ s.position < s'.position := by
  obtain ⟨step, hnext⟩ := exists_next hplain.total
  refine ⟨step.1, step.2, hnext, (reaches_of_next hnext).position_lt hplain ?_⟩
  rcases next_cases hnext with ⟨hend, -⟩ | ⟨position, -, -, hstep⟩
  · omega
  · rw [hstep]
    exact Nat.lt_succ_self _

/-- Positions have a closed form and a strict order, and copies keep both, of a stream at any index
and any position. The row grows by the number of elements that end a row, and the column is the
number of elements behind the last of them, or grows by the number of all if there is none. Assumes:
a source without a rule for positions of its own, that is, a text, or a run of bytes, a list or a
tuple under the rule that suits it. -/
theorem rows_and_columns (start : Stream) (hplain : start.source.Plain) :
    (∀ count ≤ start.rest.size, start.advance count =
      .ok ⟨start.source, start.index + count, start.positionAfter count⟩) ∧
    (∀ count ≥ start.rest.size, start.advance count = start.advance start.rest.size) ∧
    (∀ s, start.Reaches s → s.index < s.data.size →
      ∃ element s', s.next = .ok (element, s') ∧ s.position < s'.position) ∧
    (∀ s s', start.Reaches s → start.Reaches s' →
      (s.position < s'.position ↔ s.index < s'.index) ∧
        (s.position = s'.position ↔ s.index = s'.index)) ∧
    ∀ definitions parsers name steps, (∀ step ∈ steps, step.Moves) →
      ∀ other count, Step.requested name steps other = some count →
        ∃ slot s,
          (((Session.start definitions parsers).hold name start).after steps).place other =
            .ok (.stream (some slot) s) ∧ start.advance count = .ok s := by
  refine ⟨fun count ↦ advance_eq_after hplain, fun count ↦ advance_of_size_le hplain.total,
    fun s hreached ↦ ?_, fun s s' ↦ position_lt_iff_and_eq_iff hplain,
    fun definitions parsers name steps hsteps other count ↦
      Session.exists_place hplain.total definitions parsers name hsteps⟩
  obtain ⟨steps, hsteps⟩ := hreached
  exact exists_next_position_lt ((onward_of_advance hsteps).source ▸ hplain)

/-- A text whose first character has been consumed, and a copy made one character later, in front of
the line feed. -/
theorem rows_and_columns_copied :
    let start : Stream := ⟨.text #['x', 'a', '\n', 'b'], 1, ⟨4, 7⟩⟩
    let steps : List DiagnosticParsing.Step :=
      [.next "text" 1, .copy "text" "copy", .next "copy" 2, .next "text" 1]
    let session := ((Session.start .none []).hold "text" start).after steps
    start.source.Plain ∧
      (∃ slot, session.place "copy" = .ok (.stream (some slot) ⟨start.source, 4, ⟨5, 1⟩⟩)) ∧
      ∃ slot, session.place "text" = .ok (.stream (some slot) ⟨start.source, 3, ⟨5, 0⟩⟩) := by
  intro start steps session
  have hplain : start.source.Plain := rfl
  have hsteps : ∀ step ∈ steps, step.Moves := by
    simp [steps, Step.Moves]
  obtain ⟨hclosed, -, -, -, hcopies⟩ := rows_and_columns start hplain
  obtain ⟨slot, s, hplace, hs⟩ := hcopies .none [] "text" steps hsteps "copy" 3 rfl
  obtain ⟨slot', s', hplace', hs'⟩ := hcopies .none [] "text" steps hsteps "text" 2 rfl
  obtain rfl := Except.ok.inj (hs.symm.trans (hclosed 3 (Nat.le_refl 3)))
  obtain rfl := Except.ok.inj (hs'.symm.trans (hclosed 2 (Nat.le_succ 2)))
  exact ⟨hplain, ⟨slot, hplace⟩, slot', hplace'⟩

end Stream

end DiagnosticParsing
