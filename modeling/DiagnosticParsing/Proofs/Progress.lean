import DiagnosticParsing.Grammar.Characters
import DiagnosticParsing.Proofs.Ensures
import DiagnosticParsing.Proofs.Invariant

/-!
# Where a parser leaves the input

A parser that succeeds on a stream leaves a stream that comes from the given one by consuming
elements one after the other, `Stream.next` each time: `start.Reaches rest` says that some number of
steps leads from one stream to the other. `Stream.Onward` lists what follows for any two such
streams: the source is the same, the index has not gone back and not beyond the end, what is left is
a suffix of what was left, and the position is the position rule folded over the elements between
the two indices.

Looking ahead and backtracking take up an earlier stream again, which every stream reaches in no
steps; a chain that drops an operator without operand goes on from the stream before the operator.
The conclusion for grammars is `Grammar.success_reached`. It leaves out parse functions written by
hand, which may answer anything.
-/

set_option autoImplicit false

namespace DiagnosticParsing

/-! ### Steps of a stream -/

namespace Stream

/-- Some number of steps leads from a stream to another. -/
def Reaches (start rest : Stream) : Prop :=
  ∃ count, start.advance count = .ok rest

@[simp]
theorem advance_zero (stream : Stream) : stream.advance 0 = .ok stream :=
  rfl

theorem advance_succ (stream : Stream) (count : Nat) :
    stream.advance (count + 1) = (stream.next).bind fun step ↦ step.2.advance count :=
  rfl

theorem advance_add (stream : Stream) (first second : Nat) :
    stream.advance (first + second) = (stream.advance first).bind fun middle ↦
      middle.advance second := by
  induction first generalizing stream with
  | zero => rw [Nat.zero_add, advance_zero, Except.bind]
  | succ first ih =>
    rw [Nat.succ_add, advance_succ, advance_succ]
    cases stream.next with
    | error fault => rfl
    | ok step => exact ih step.2

theorem reaches_refl (stream : Stream) : stream.Reaches stream :=
  ⟨0, rfl⟩

theorem Reaches.trans {start middle rest : Stream} (hfirst : start.Reaches middle)
    (hsecond : middle.Reaches rest) : start.Reaches rest := by
  obtain ⟨first, hfirst⟩ := hfirst
  obtain ⟨second, hsecond⟩ := hsecond
  refine ⟨first + second, ?_⟩
  rw [advance_add, hfirst]
  exact hsecond

theorem reaches_of_next {stream rest : Stream} {element : Value}
    (hnext : stream.next = .ok (element, rest)) : stream.Reaches rest := by
  refine ⟨1, ?_⟩
  rw [advance_succ, hnext]
  rfl

/-- A step stays where it is at the end of the input. Otherwise it takes the next element and moves
the position by it. -/
theorem next_cases {stream rest : Stream} {element : Value}
    (hnext : stream.next = .ok (element, rest)) :
    (stream.data.size ≤ stream.index ∧ rest = stream) ∨
      ∃ position, stream.data.toList[stream.index]? = some element ∧
        stream.source.advance stream.position element = .ok position ∧
        rest = ⟨stream.source, stream.index + 1, position⟩ := by
  rw [next] at hnext
  cases hcurrent : stream.current? with
  | none =>
    rw [hcurrent] at hnext
    obtain ⟨-, rfl⟩ := Prod.mk.inj (Except.ok.inj hnext)
    refine .inl ⟨?_, rfl⟩
    rwa [current?, ← Sequence.getElem?_toList, List.getElem?_eq_none_iff,
      Sequence.length_toList] at hcurrent
  | some current =>
    rw [hcurrent] at hnext
    cases hadvance : stream.source.advance stream.position current with
    | error fault => simp [hadvance, Except.map] at hnext
    | ok position =>
      simp only [hadvance, Except.map, Except.ok.injEq, Prod.mk.injEq] at hnext
      obtain ⟨rfl, rfl⟩ := hnext
      refine .inr ⟨position, ?_, hadvance, rfl⟩
      rwa [Sequence.getElem?_toList]

/-- What holds of two streams when steps lead from one to the other. -/
structure Onward (start rest : Stream) : Prop where
  /-- The sequence and the rule for positions are the same. -/
  source : rest.source = start.source
  /-- The index has not gone back. -/
  index_le : start.index ≤ rest.index
  /-- The index is not beyond the end, unless it was there already. -/
  index_le_max : rest.index ≤ max start.index start.data.size
  /-- What has been consumed and what is left make up the whole input. -/
  index_add_remaining : rest.index + rest.remaining = start.data.size
  /-- What is left is the end of what was left. -/
  suffix : rest.rest.toList <:+ start.rest.toList
  /-- The position has been moved by each element in between. -/
  position : ((start.data.toList.take rest.index).drop start.index).foldlM start.source.advance
    start.position = .ok rest.position

theorem onward_refl (stream : Stream) : stream.Onward stream where
  source := rfl
  index_le := Nat.le_refl _
  index_le_max := Nat.le_max_left _ _
  index_add_remaining := by
    rw [remaining]
    omega
  suffix := List.suffix_rfl
  position := by
    rw [List.drop_eq_nil_of_le (List.length_take_le _ _)]
    rfl

/-- The elements between two indices, the first of them set apart. -/
theorem drop_take_eq_cons {items : List Value} {start stop : Nat} {item : Value}
    (hitem : items[start]? = some item) (hlt : start < stop) :
    (items.take stop).drop start = item :: (items.take stop).drop (start + 1) := by
  obtain ⟨hlength, hget⟩ := List.getElem?_eq_some_iff.mp hitem
  have hbound : start < (items.take stop).length := by
    rw [List.length_take]
    omega
  rw [List.drop_eq_getElem_cons hbound, List.getElem_take, hget]

/-- A step in front leaves a stream that is onward of the start. -/
theorem Onward.of_next {start middle rest : Stream} {element : Value}
    (hnext : start.next = .ok (element, middle)) (hrest : middle.Onward rest) :
    start.Onward rest := by
  rcases next_cases hnext with ⟨-, rfl⟩ | ⟨position, hitem, hadvance, rfl⟩
  · exact hrest
  have hlt : start.index < start.data.size := by
    rw [← Sequence.length_toList]
    exact (List.getElem?_eq_some_iff.mp hitem).1
  have hindex : start.index + 1 ≤ rest.index := hrest.index_le
  refine ⟨hrest.source, by omega, ?_, hrest.index_add_remaining, ?_, ?_⟩
  · have hmax : rest.index ≤ max (start.index + 1) start.data.size := hrest.index_le_max
    omega
  · refine hrest.suffix.trans ?_
    rw [Stream.rest, Stream.rest, Sequence.toList_drop, Sequence.toList_drop]
    exact List.drop_suffix_drop_left _ (Nat.le_succ _)
  · rw [drop_take_eq_cons hitem hindex, List.foldlM_cons, hadvance]
    exact hrest.position

theorem onward_of_advance {count : Nat} :
    ∀ {start rest : Stream}, start.advance count = .ok rest → start.Onward rest := by
  induction count with
  | zero =>
    intro start rest h
    rw [advance_zero] at h
    rw [Except.ok.inj h]
    exact onward_refl rest
  | succ count ih =>
    intro start rest h
    rw [advance_succ] at h
    cases hnext : start.next with
    | error fault => simp [hnext, Except.bind] at h
    | ok step =>
      rw [hnext] at h
      exact Onward.of_next hnext (ih h)

end Stream

/-! ### Parsers that only step forward -/

/-- The place is a stream that steps lead to. -/
def Place.ReachedFrom (start : Stream) : Place → Prop
  | .stream _ rest => start.Reaches rest
  | .stray _ => False

/-- The reply is a failure, or a success that leaves a stream that steps lead to. -/
def Reply.ReachedFrom (start : Stream) : Reply → Prop
  | .failure => True
  | .success rest _ => rest.ReachedFrom start
  | .malformed _ => False

namespace Parse

open Run

/-- On every stream the parser fails or leaves a stream that steps lead to. -/
def Forward (p : Parse) : Prop :=
  ∀ slot start journal, (p (.stream slot start)).Ensures journal fun reply _ ↦
    reply.ReachedFrom start

variable {p q r op : Parse} {start : Stream}

/-- What follows a parser that only steps forward is run on a failure, or behind some steps. -/
theorem Forward.ensures_bind {α : Type} (hp : Forward p) {next : Reply → Run α}
    {slot : Option Nat} {journal : Journal} {post : α → Journal → Prop}
    (hfailure : ∀ final, (next .failure).Ensures final post)
    (hsuccess : ∀ slot rest value final, start.Reaches rest →
      (next (.success (.stream slot rest) value)).Ensures final post) :
    (p (.stream slot start) >>= next).Ensures journal post := by
  rw [Run.ensures_bind]
  refine (hp slot start journal).mono fun reply final hreply ↦ ?_
  cases reply with
  | failure => exact hfailure final
  | success rest value =>
    cases rest with
    | stream slot rest => exact hsuccess slot rest value final hreply
    | stray v => exact hreply.elim
  | malformed v => exact hreply.elim

/-- A run on a stream that steps lead to leaves a stream that more steps lead to. -/
theorem Forward.ensures_trans (hp : Forward p) {slot : Option Nat} {middle : Stream}
    {journal : Journal} (hmiddle : start.Reaches middle) :
    (p (.stream slot middle)).Ensures journal fun reply _ ↦ reply.ReachedFrom start := by
  refine (hp slot middle journal).mono fun reply _ hreply ↦ ?_
  cases reply with
  | failure => trivial
  | success rest value =>
    cases rest with
    | stream slot rest => exact hmiddle.trans hreply
    | stray v => exact hreply.elim
  | malformed v => exact hreply.elim

theorem ensures_failure (journal : Journal) :
    (pure .failure : Run Reply).Ensures journal fun reply _ ↦ reply.ReachedFrom start :=
  (ensures_pure _ _ _).mpr trivial

theorem ensures_success {rest : Stream} (slot : Option Nat) (value : Value) (journal : Journal)
    (hrest : start.Reaches rest) :
    (pure (.success (.stream slot rest) value) : Run Reply).Ensures journal fun reply _ ↦
      reply.ReachedFrom start :=
  (ensures_pure _ _ _).mpr hrest

theorem ensures_giveUp (place : Place) (text : String) (journal : Journal) :
    (giveUp place text).Ensures journal fun reply _ ↦ reply.ReachedFrom start := by
  simp [giveUp, Reply.ReachedFrom]

theorem forward_andThen {next : Place → Value → Run Reply} (hp : Forward p)
    (hnext : ∀ value, Forward fun rest ↦ next rest value) : Forward (andThen p next) := by
  intro slot start journal
  refine hp.ensures_bind (fun final ↦ ensures_failure final) fun slot rest value final hrest ↦ ?_
  exact (hnext value).ensures_trans hrest

/-! ### Elements -/

theorem forward_eof : Forward eof := by
  intro slot start journal
  simp only [eof, Place.stream?, Run.ensures_bind, ensures_ofExcept]
  rintro _ ⟨⟩
  split
  · exact ensures_success slot _ journal start.reaches_refl
  · exact ensures_giveUp _ _ _

theorem forward_element (test : Value → Except Fault Bool)
    (describe : Value → Except Fault String) : Forward (element test describe) := by
  intro slot start journal
  simp only [element, Place.stream?, Run.ensures_bind, ensures_ofExcept]
  rintro _ ⟨⟩ ⟨found, rest⟩ hnext
  have hrest : start.Reaches rest := Stream.reaches_of_next hnext
  split
  · exact ensures_giveUp _ _ _
  · next heq =>
    obtain ⟨rfl, rfl⟩ := Prod.mk.inj heq
    simp only [Run.ensures_bind, ensures_ofExcept]
    intro passed _
    split
    · exact ensures_success none _ journal hrest
    · simp only [Run.ensures_bind, ensures_ofExcept]
      exact fun text _ ↦ ensures_giveUp _ text _

theorem forward_token (test describe : Value → Call Value) : Forward (token test describe) := by
  intro slot start journal
  simp only [token, Place.stream?, Run.ensures_bind, ensures_ofExcept]
  rintro _ ⟨⟩ ⟨found, rest⟩ hnext
  have hrest : start.Reaches rest := Stream.reaches_of_next hnext
  split
  · exact ensures_giveUp _ _ _
  · next heq =>
    obtain ⟨rfl, rfl⟩ := Prod.mk.inj heq
    simp only [Run.ensures_bind, ensures_ofCall]
    intro value _
    split
    · simp only [Run.ensures_bind, ensures_ofCall]
      exact fun text _ ↦ ensures_giveUp _ _ _
    · exact ensures_success none _ _ hrest

/-- The elements of a literal are consumed one step at a time. -/
theorem reaches_of_expectAll (items : List Value) :
    ∀ {start rest : Stream}, expectAll items start = .ok (some rest) → start.Reaches rest := by
  induction items with
  | nil =>
    rintro start rest ⟨⟩
    exact start.reaches_refl
  | cons item items ih =>
    intro start rest h
    rw [expectAll] at h
    cases hnext : start.next with
    | error fault => simp [hnext, Bind.bind, Except.bind] at h
    | ok step =>
      simp only [hnext, Bind.bind, Except.bind] at h
      split at h
      · exact (Stream.reaches_of_next hnext).trans (ih h)
      · simp [pure, Except.pure] at h

theorem forward_literal (v : Value) : Forward (literal v) := by
  intro slot start journal
  simp only [literal, Run.ensures_bind, ensures_ofExcept]
  intro items _ found hfound
  cases found with
  | none => exact ensures_giveUp _ _ _
  | some rest => exact ensures_success none _ journal (reaches_of_expectAll items hfound)

/-- Wherever a match is said to end, the stream behind it is reached by steps. -/
theorem forward_regex (pattern : Pattern) : Forward (regex pattern) := by
  intro slot start journal
  simp only [regex, Place.stream?, Run.ensures_bind, ensures_ofExcept]
  rintro _ ⟨⟩ found _
  cases found with
  | none => exact ensures_giveUp _ _ _
  | some found =>
    simp only [Run.ensures_bind, ensures_ofExcept]
    exact fun rest hadvance ↦ ensures_success none _ journal ⟨_, hadvance⟩

/-! ### Values and sequences -/

theorem forward_map (f : Value → Call Value) (hp : Forward p) : Forward (map p f) := by
  refine forward_andThen hp fun value slot start journal ↦ ?_
  simp only [Run.ensures_bind, ensures_ofCall]
  exact fun mapped _ ↦ ensures_success slot _ _ start.reaches_refl

theorem forward_mapOption (f : Value → Call Value) (hp : Forward p) : Forward (mapOption p f) := by
  refine forward_andThen hp fun value slot start journal ↦ ?_
  simp only [Run.ensures_bind, ensures_ofCall]
  intro mapped _
  split
  · exact ensures_failure _
  · exact ensures_success slot _ _ start.reaches_refl

theorem forward_mapResult (f : Value → Call Value) (hp : Forward p) : Forward (mapResult p f) := by
  intro slot start journal
  refine forward_andThen hp (fun value slot rest journal ↦ ?_) slot start journal
  simp only [Run.ensures_bind, ensures_attempt]
  split
  · exact ensures_success slot _ _ rest.reaches_refl
  · exact ensures_giveUp _ _ _

theorem forward_compose (hp : Forward p) (hq : Forward q) : Forward (compose p q) := by
  refine forward_andThen hp fun f ↦ forward_andThen hq fun value slot start journal ↦ ?_
  simp only [Run.ensures_bind, ensures_ofCall]
  exact fun result _ ↦ ensures_success slot _ _ start.reaches_refl

theorem forward_chooseNext (choose : Value → Call Unit) {next : Value → Parse} (hp : Forward p)
    (hnext : ∀ v, Forward (next v)) : Forward (chooseNext p choose next) := by
  refine forward_andThen hp fun value slot start journal ↦ ?_
  simp only [Run.ensures_bind, ensures_ofCall]
  exact fun _ _ ↦ hnext value slot start _

theorem forward_both (hp : Forward p) (hq : Forward q) : Forward (both p q) :=
  forward_andThen hp fun _ ↦ forward_andThen hq fun _ slot start journal ↦
    ensures_success slot _ journal start.reaches_refl

theorem forward_left (hp : Forward p) (hq : Forward q) : Forward (left p q) := by
  intro slot start journal
  refine hp.ensures_bind ensures_failure fun slot middle first final hmiddle ↦ ?_
  simp only [whenSuccess, Reply.first, ofExcept_ok_bind]
  refine hq.ensures_bind ensures_failure fun slot rest second final hrest ↦ ?_
  exact ensures_success slot _ final (hmiddle.trans hrest)

theorem forward_right (hp : Forward p) (hq : Forward q) : Forward (right p q) := by
  intro slot start journal
  refine hp.ensures_bind ensures_failure fun slot middle first final hmiddle ↦ ?_
  exact hq.ensures_trans hmiddle

theorem forward_mid (hp : Forward p) (hq : Forward q) (hr : Forward r) : Forward (mid p q r) := by
  intro slot start journal
  refine hp.ensures_bind ensures_failure fun slot middle first final hmiddle ↦ ?_
  simp only [whenSuccess, Reply.first, ofExcept_ok_bind]
  refine hq.ensures_bind ensures_failure fun slot last second final hlast ↦ ?_
  simp only [ofExcept_ok_bind]
  refine hr.ensures_bind ensures_failure fun slot rest third final hrest ↦ ?_
  exact ensures_success slot _ final ((hmiddle.trans hlast).trans hrest)

/-! ### Alternatives, repetition and chains -/

theorem forward_either (hp : Forward p) (hq : Forward q) : Forward (either p q) := by
  intro slot start journal
  rw [either, ensures_mark_bind]
  refine hp.ensures_bind (fun final ↦ ?_) fun slot rest value final hrest ↦ ?_
  · simp only [Run.ensures_bind, ensures_rollback]
    exact hq slot start _
  · exact ensures_success slot value final hrest

theorem forward_optional (hp : Forward p) : Forward (optional p) := by
  intro slot start journal
  rw [optional, ensures_mark_bind]
  refine hp.ensures_bind (fun final ↦ ?_) fun slot rest value final hrest ↦ ?_
  · simp only [Run.ensures_bind, ensures_rollback]
    exact ensures_success slot _ _ start.reaches_refl
  · exact ensures_success slot value final hrest

/-- However many rounds a repetition takes, each one only steps forward, and the last attempt is
left out. -/
theorem forward_repeatFrom (hp : Forward p) (bound : Nat) :
    ∀ values, Forward fun place ↦ repeatFrom p bound place values := by
  induction bound with
  | zero => exact fun values slot start journal ↦ ensures_unfinished journal _
  | succ bound ih =>
    intro values slot start journal
    simp only [repeatFrom]
    rw [ensures_mark_bind]
    refine hp.ensures_bind (fun final ↦ ?_) fun slot rest value final hrest ↦ ?_
    · simp only [Run.ensures_bind, ensures_rollback]
      exact ensures_success slot _ _ start.reaches_refl
    · exact (ih (value :: values)).ensures_trans hrest

theorem forward_countFrom (hp : Forward p) (n : Nat) :
    ∀ values, Forward fun place ↦ countFrom p n place values := by
  induction n with
  | zero => exact fun values slot start journal ↦ ensures_success slot _ journal start.reaches_refl
  | succ n ih =>
    intro values
    exact forward_andThen hp fun value ↦ ih (value :: values)

/-- An operator with its operand leaves a stream that steps lead to. -/
theorem ensures_link (hp : Forward p) (hop : Forward op) (slot : Option Nat) (start : Stream)
    (journal : Journal) :
    (link p op (.stream slot start)).Ensures journal fun found _ ↦
      ∀ rest next, found = some (rest, next) → rest.ReachedFrom start := by
  rw [link, ensures_mark_bind]
  refine hop.ensures_bind (fun final ↦ ?_) fun slot middle f final hmiddle ↦ ?_
  · simp
  · simp only [Reply.first, ofExcept_ok_bind]
    refine hp.ensures_bind (fun final ↦ ?_) fun slot rest value final hrest ↦ ?_
    · simp
    · simp only [Reply.second, Reply.parts, ofExcept_ok_bind, ensures_pure]
      rintro _ _ ⟨⟩
      exact hmiddle.trans hrest

theorem forward_chainLeftFrom (hp : Forward p) (hop : Forward op) (bound : Nat) :
    ∀ combined, Forward fun place ↦ chainLeftFrom p op bound place combined := by
  induction bound with
  | zero => exact fun combined slot start journal ↦ ensures_unfinished journal _
  | succ bound ih =>
    intro combined slot start journal
    simp only [chainLeftFrom, Run.ensures_bind]
    refine (ensures_link hp hop slot start journal).mono fun found final hfound ↦ ?_
    cases found with
    | none => exact ensures_success slot _ final start.reaches_refl
    | some found =>
      obtain ⟨rest, next⟩ := found
      have hrest : rest.ReachedFrom start := hfound rest next rfl
      cases rest with
      | stray v => exact hrest.elim
      | stream slot rest =>
        simp only [Run.ensures_bind, ensures_ofCall]
        exact fun combined _ ↦ (ih combined).ensures_trans hrest

theorem forward_chainRightFrom (hp : Forward p) (hop : Forward op) (bound : Nat) :
    ∀ last links, Forward fun place ↦ chainRightFrom p op bound place last links := by
  induction bound with
  | zero => exact fun last links slot start journal ↦ ensures_unfinished journal _
  | succ bound ih =>
    intro last links slot start journal
    simp only [chainRightFrom, Run.ensures_bind]
    refine (ensures_link hp hop slot start journal).mono fun found final hfound ↦ ?_
    cases found with
    | none =>
      simp only [Run.ensures_bind]
      exact fun combined final _ ↦ ensures_success slot _ final start.reaches_refl
    | some found =>
      obtain ⟨rest, next⟩ := found
      have hrest : rest.ReachedFrom start := hfound rest next rfl
      cases rest with
      | stray v => exact hrest.elim
      | stream slot rest => exact (ih _ _).ensures_trans hrest

/-! ### Looking ahead, diagnostics and cells -/

theorem forward_lookAhead (hp : Forward p) : Forward (lookAhead p) := by
  intro slot start journal
  refine hp.ensures_bind ensures_failure fun _ rest value final _ ↦ ?_
  exact ensures_success slot value final start.reaches_refl

theorem forward_notFollowedBy (hp : Forward p) : Forward (notFollowedBy p) := by
  intro slot start journal
  rw [notFollowedBy, ensures_mark_bind]
  refine hp.ensures_bind (fun final ↦ ?_) fun _ rest value final _ ↦ ?_
  · simp only [Run.ensures_bind, ensures_rollback]
    exact ensures_success slot _ _ start.reaches_refl
  · simp only [Run.ensures_bind, ensures_rollback, ensures_ofExcept]
    exact fun shown _ ↦ ensures_giveUp _ _ _

theorem forward_annotate (severity : Severity) (text : String) (hp : Forward p) :
    Forward (annotate severity p text) := by
  intro slot start journal
  simp only [annotate, Run.ensures_bind, ensures_ofExcept, ensures_complain]
  exact fun position _ ↦ hp slot start _

theorem forward_label (name : String) (hp : Forward p) : Forward (label p name) := by
  intro slot start journal
  refine hp.ensures_bind (fun final ↦ ensures_giveUp _ _ final) fun slot rest value final hrest ↦ ?_
  exact ensures_success slot value final hrest

theorem forward_inspect (observe : Place → Reply → Call Unit) (hp : Forward p) :
    Forward (inspect p observe) := by
  intro slot start journal
  refine hp.ensures_bind (fun final ↦ ?_) fun _ rest value final hrest ↦ ?_
  · simp only [Run.ensures_bind, ensures_ofCall]
    exact fun _ _ ↦ ensures_failure _
  · simp only [Run.ensures_bind, ensures_ofCall]
    exact fun _ _ ↦ ensures_success _ value _ hrest

theorem forward_recover (default : Value) (hp : Forward p) : Forward (recover p default) := by
  intro slot start journal
  refine hp.ensures_bind (fun final ↦ ?_) fun slot rest value final hrest ↦ ?_
  · exact ensures_success slot default final start.reaches_refl
  · exact ensures_success slot value final hrest

theorem forward_trace (name : String) (hp : Forward p) : Forward (trace name p) := by
  intro slot start journal
  simp only [trace, Run.ensures_bind, ensures_ofExcept, ensures_note]
  intro position _ preview _
  rw [← Run.ensures_bind]
  refine hp.ensures_bind (fun final ↦ ?_) fun slot rest value final hrest ↦ ?_
  · simp only [Run.ensures_bind, ensures_note]
    exact ensures_failure _
  · simp only [Reply.second, Reply.first, ofExcept_ok_bind, Run.ensures_bind, ensures_ofExcept,
      ensures_note]
    exact fun finish _ ↦ ensures_success slot value _ hrest

end Parse

/-! ### Grammars that only step forward -/

namespace Grammar

/-- The grammar is no parse function written by hand. -/
def IsBuiltIn : Grammar → Prop
  | .reply _ => False
  | _ => True

theorem forward_invariant : Invariant IsBuiltIn Parse.Forward where
  unfinished := fun _ _ journal ↦ Run.ensures_unfinished journal _
  succeed := fun v _ slot start journal ↦
    Parse.ensures_success slot v journal start.reaches_refl
  empty := fun _ _ _ journal ↦ Parse.ensures_failure journal
  eof := fun _ ↦ Parse.forward_eof
  element := fun test describe _ ↦ Parse.forward_element test describe
  token := fun test describe _ ↦ Parse.forward_token test describe
  literal := fun v _ ↦ Parse.forward_literal v
  regex := fun pattern _ ↦ Parse.forward_regex pattern
  raise := fun fault _ _ journal ↦ Run.ensures_fault fault journal _
  reply := fun _ hreply ↦ hreply.elim
  map := fun _ _ f _ hp ↦ Parse.forward_map f hp
  mapOption := fun _ _ f _ hp ↦ Parse.forward_mapOption f hp
  mapResult := fun _ _ f _ hp ↦ Parse.forward_mapResult f hp
  compose := fun _ _ hp hq ↦ Parse.forward_compose hp hq
  chooseNext := fun _ choose _ hp hnext ↦ Parse.forward_chooseNext choose hp hnext
  both := fun _ _ hp hq ↦ Parse.forward_both hp hq
  left := fun _ _ hp hq ↦ Parse.forward_left hp hq
  right := fun _ _ hp hq ↦ Parse.forward_right hp hq
  mid := fun _ _ _ hp hq hr ↦ Parse.forward_mid hp hq hr
  either := fun _ _ hp hq ↦ Parse.forward_either hp hq
  many := fun bound _ hp ↦ Parse.forward_repeatFrom hp bound []
  oneOrMore := fun bound _ hp ↦
    Parse.forward_andThen hp fun first ↦ Parse.forward_repeatFrom hp bound [first]
  optional := fun _ hp ↦ Parse.forward_optional hp
  optionalEmpty := Parse.forward_optional fun _ _ journal ↦ Parse.ensures_failure journal
  count := fun n _ hp ↦ Parse.forward_countFrom hp n []
  chainLeft := fun bound _ _ hp hop ↦
    Parse.forward_andThen hp (Parse.forward_chainLeftFrom hp hop bound)
  chainRight := fun bound _ _ hp hop ↦
    Parse.forward_andThen hp fun first ↦ Parse.forward_chainRightFrom hp hop bound first []
  lookAhead := fun _ hp ↦ Parse.forward_lookAhead hp
  notFollowedBy := fun _ hp ↦ Parse.forward_notFollowedBy hp
  annotate := fun severity _ _ text _ hp ↦ Parse.forward_annotate severity text hp
  label := fun _ _ name _ hp ↦ Parse.forward_label name hp
  inspect := fun _ _ observe _ hp ↦ Parse.forward_inspect observe hp
  recover := fun _ _ default _ hp ↦ Parse.forward_recover default hp
  trace := fun name _ hp ↦ Parse.forward_trace name hp

/-- A success leaves the given stream moved on by a number of steps. Assumes: a grammar and
definitions without parse functions written by hand. -/
theorem success_reached {definitions : Definitions} {p : Grammar} (hp : p.Everywhere IsBuiltIn)
    (hdefinitions : definitions.Everywhere IsBuiltIn) {bound : Nat} {slot : Option Nat}
    {start : Stream} {journal final : Journal} {reply : Reply}
    (hrun : p.eval definitions bound .top (.stream slot start) journal = .done reply final)
    (hsuccess : reply ≠ .failure) :
    ∃ slot rest value count, reply = .success (.stream slot rest) value ∧
      start.advance count = .ok rest ∧ start.Onward rest := by
  have hforward := forward_invariant.eval hdefinitions bound .top p trivial hp
  have hreached : reply.ReachedFrom start := hforward slot start journal reply final hrun
  cases reply with
  | failure => exact absurd rfl hsuccess
  | malformed v => exact hreached.elim
  | success rest value =>
    cases rest with
    | stray v => exact hreached.elim
    | stream slot rest =>
      obtain ⟨count, hadvance⟩ := hreached
      exact ⟨slot, rest, value, count, rfl, hadvance, Stream.onward_of_advance hadvance⟩

/-- Ones with a zero between any two of them, read as their sum. -/
def onesBetweenZeros : Grammar :=
  chainLeft (char (.int 1)) (map (char (.int 0)) (Function.const (.operation .add)).call)

/-- A chain that ends in an operator without operand stops three steps on, in front of it. -/
theorem success_reached_onesBetweenZeros :
    ∃ slot rest value count,
      Reply.success (.fresh ⟨.tokens (.list #[.int 1, .int 0, .int 1, .int 0]) .stay, 3, ⟨0, 0⟩⟩)
        (.int 2) = .success (.stream slot rest) value ∧
      (Stream.start (.tokens (.list #[.int 1, .int 0, .int 1, .int 0]) .stay)).advance count =
        .ok rest ∧
      (Stream.start (.tokens (.list #[.int 1, .int 0, .int 1, .int 0]) .stay)).Onward rest := by
  have hbuiltIn : onesBetweenZeros.Everywhere IsBuiltIn := by
    simp [onesBetweenZeros, char, Everywhere, IsBuiltIn]
  have hdefinitions : Definitions.none.Everywhere IsBuiltIn :=
    Definitions.everywhere_none _
  have hrun : onesBetweenZeros.eval .none 3 .top
      (.stream (some 0) (.start (.tokens (.list #[.int 1, .int 0, .int 1, .int 0]) .stay))) .empty =
        .done (.success
          (.fresh ⟨.tokens (.list #[.int 1, .int 0, .int 1, .int 0]) .stay, 3, ⟨0, 0⟩⟩)
          (.int 2)) .empty := rfl
  exact success_reached hbuiltIn hdefinitions hrun (by simp)

end Grammar

end DiagnosticParsing
