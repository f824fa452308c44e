import DiagnosticParsing.Grammar.Characters
import DiagnosticParsing.Proofs.Ensures
import DiagnosticParsing.Proofs.Invariant
import DiagnosticParsing.Value.Equality

/-!
# Lossless parsing

A parser that neither computes with values nor drops any has all that it consumed in its value.
`Value.flatten?` reads the characters of a value in order, those of its parts one after the other,
and `Stream.Consumed` says which characters lie between two streams on one text. A parser is
`Lossless` when these agree for every success. The constructors that keep this are listed by
`Grammar.KeepsInput`.

An attempt that is abandoned leaves nothing behind: what goes on starts where the attempt started,
with the value gathered before it. For a repetition this is the statement of `ensures_repeatFrom`:
the values gathered so far make up what lies between the start and the present place. Nothing has to
be known of patterns but that a match has the part of the text as value that ends where the match
ends, for the stream behind it is moved by as many steps.

The conclusion is `Grammar.flatten_consumed`.
-/

set_option autoImplicit false

namespace DiagnosticParsing

/-! ### The characters of a value -/

namespace Value

mutual

/-- The characters of a value in order, where null has none. Values that are made of anything but
texts have no such reading. -/
def flatten? : Value → Option (List Char)
  | .null => some []
  | .text s => some s.toList
  | .list items => flattenAll? items
  | .tuple items => flattenAll? items
  | _ => none

/-- The characters of several values, one after the other. -/
def flattenAll? : List Value → Option (List Char)
  | [] => some []
  | v :: rest => do return (← flatten? v) ++ (← flattenAll? rest)

end

theorem flatten?_char (c : Char) : (char c).flatten? = some [c] := by
  simp [char, flatten?]

theorem flattenAll?_cons {v : Value} {items : List Value} {read more : List Char}
    (hv : v.flatten? = some read) (hitems : flattenAll? items = some more) :
    flattenAll? (v :: items) = some (read ++ more) := by
  simp only [flattenAll?, hv, hitems]
  rfl

theorem flattenAll?_singleton {v : Value} {read : List Char} (hv : v.flatten? = some read) :
    flattenAll? [v] = some read := by
  have hcons : flattenAll? [v] = some (read ++ []) := flattenAll?_cons hv rfl
  rwa [List.append_nil] at hcons

theorem flatten?_pair {v w : Value} {read more : List Char} (hv : v.flatten? = some read)
    (hw : w.flatten? = some more) : (tuple [v, w]).flatten? = some (read ++ more) :=
  flattenAll?_cons hv (flattenAll?_singleton hw)

theorem flattenAll?_concat {v : Value} {more : List Char} (hv : v.flatten? = some more)
    (items : List Value) :
    ∀ {read : List Char}, flattenAll? items = some read →
      flattenAll? (items ++ [v]) = some (read ++ more) := by
  induction items with
  | nil =>
    intro read hread
    rw [← Option.some.inj hread]
    exact flattenAll?_singleton hv
  | cons w rest ih =>
    intro read hread
    rw [flattenAll?] at hread
    obtain ⟨first, hw, hread⟩ := Option.bind_eq_some_iff.mp hread
    obtain ⟨others, hrest, hread⟩ := Option.bind_eq_some_iff.mp hread
    rw [← Option.some.inj hread, List.append_assoc]
    exact flattenAll?_cons hw (ih hrest)

end Value

/-! ### What lies between two streams -/

namespace Stream

variable {chars : Array Char} {start middle rest : Stream} {read more : List Char}

/-- The second stream stands in the text, not before the first one, and between them lie the given
characters. -/
structure Consumed (chars : Array Char) (start rest : Stream) (read : List Char) : Prop where
  /-- The stream runs over the text. -/
  source : rest.source = .text chars
  /-- The index has not gone back. -/
  index_le : start.index ≤ rest.index
  /-- The characters in between. -/
  between : (chars.extract start.index rest.index).toList = read

theorem consumed_refl (h : start.source = .text chars) : start.Consumed chars start [] where
  source := h
  index_le := Nat.le_refl _
  between := by rw [Array.extract_empty_of_stop_le_start (Nat.le_refl _)]

theorem Consumed.trans (h : start.Consumed chars middle read)
    (h' : middle.Consumed chars rest more) : start.Consumed chars rest (read ++ more) where
  source := h'.source
  index_le := Nat.le_trans h.index_le h'.index_le
  between := by
    rw [← h.between, ← h'.between, ← Array.toList_append, Array.extract_append_extract,
      Nat.min_eq_left h.index_le, Nat.max_eq_right h'.index_le]

/-- A step on a text finds the end, where it stays, or consumes one character. -/
theorem next_char (h : start.source = .text chars) :
    (start.next = .ok (.null, start) ∧ chars.size ≤ start.index) ∨
      ∃ c rest, start.next = .ok (.char c, rest) ∧ rest.index = start.index + 1 ∧
        start.index < chars.size ∧ start.Consumed chars rest [c] := by
  simp only [next, current?, data, h, Source.data, Sequence.get?]
  rcases hcurrent : chars[start.index]? with _ | c
  · exact .inl ⟨rfl, Array.getElem?_eq_none_iff.mp hcurrent⟩
  · obtain ⟨hlt, -⟩ := Array.getElem?_eq_some_iff.mp hcurrent
    refine .inr ⟨c, _, rfl, rfl, hlt, rfl, Nat.le_succ _, ?_⟩
    simp [List.extract_eq_take_drop, List.take_one, hcurrent]

/-- A number of steps on a text goes that far, or to the end. -/
theorem index_of_advance (count : Nat) :
    ∀ {start : Stream}, start.source = .text chars → start.advance count = .ok rest →
      rest.source = .text chars ∧
        rest.index = min (start.index + count) (max start.index chars.size) := by
  induction count with
  | zero =>
    intro start h hrest
    obtain rfl := Except.ok.inj hrest
    exact ⟨h, by omega⟩
  | succ count ih =>
    intro start h hrest
    rw [advance] at hrest
    rcases next_char h with ⟨hnext, hend⟩ | ⟨c, middle, hnext, hindex, hlt, hmiddle⟩
    · rw [hnext] at hrest
      obtain ⟨hsource, hrest⟩ := ih h hrest
      exact ⟨hsource, by omega⟩
    · rw [hnext] at hrest
      obtain ⟨hsource, hrest⟩ := ih hmiddle.source hrest
      exact ⟨hsource, by omega⟩

/-- The steps behind a match consume what was matched, wherever the match is said to end. -/
theorem consumed_of_match (h : start.source = .text chars) {stop : Nat}
    (hrest : start.advance (stop - start.index) = .ok rest) :
    start.Consumed chars rest (chars.extract (min start.index chars.size) stop).toList := by
  obtain ⟨hsource, hindex⟩ := index_of_advance _ h hrest
  refine ⟨hsource, by omega, ?_⟩
  congr 1
  apply Array.ext_getElem?
  intro i
  rw [Array.getElem?_extract, Array.getElem?_extract]
  by_cases hend : chars.size ≤ start.index
  · rw [if_neg (by omega), if_neg (by omega)]
  · have hmin : min start.index chars.size = start.index := Nat.min_eq_left (by omega)
    rw [hmin, hindex]
    by_cases hi : i < min stop chars.size - start.index
    · rw [if_pos hi, if_pos (by omega)]
    · rw [if_neg hi, if_neg (by omega)]

end Stream

/-! ### Lossless parsers -/

/-- The reply is a failure, or a success whose value has all the characters up to the place that it
leaves. -/
def Reply.Lossless (chars : Array Char) (start : Stream) : Reply → Prop
  | .failure => True
  | .success (.stream _ rest) value =>
    ∃ read, value.flatten? = some read ∧ start.Consumed chars rest read
  | _ => False

namespace Parse

open Run

/-- The value of every success on the text has all the characters consumed. -/
def Lossless (chars : Array Char) (p : Parse) : Prop :=
  ∀ slot start journal, start.source = .text chars →
    (p (.stream slot start)).Ensures journal fun reply _ ↦ reply.Lossless chars start

variable {chars : Array Char} {p q : Parse} {start middle : Stream} {slot : Option Nat}

/-- What follows a lossless parser is run on a failure, or behind the characters of a value. -/
theorem Lossless.ensures_bind {α : Type} (hp : Lossless chars p) (h : start.source = .text chars)
    {next : Reply → Run α} {journal : Journal} {post : α → Journal → Prop}
    (hfailure : ∀ final, (next .failure).Ensures final post)
    (hsuccess : ∀ slot rest value read final, value.flatten? = some read →
      start.Consumed chars rest read →
        (next (.success (.stream slot rest) value)).Ensures final post) :
    (p (.stream slot start) >>= next).Ensures journal post := by
  rw [Run.ensures_bind]
  refine (hp slot start journal h).mono fun reply final hreply ↦ ?_
  rcases reply with _ | ⟨⟨slot, rest⟩ | v, value⟩ | v
  · exact hfailure final
  · obtain ⟨read, hvalue, hread⟩ := hreply
    exact hsuccess slot rest value read final hvalue hread
  · exact hreply.elim
  · exact hreply.elim

theorem ensures_lost (journal : Journal) :
    (pure .failure : Run Reply).Ensures journal fun reply _ ↦ reply.Lossless chars start :=
  (ensures_pure _ _ _).mpr trivial

theorem ensures_kept {rest : Stream} {value : Value} {read : List Char} (slot : Option Nat)
    (journal : Journal) (hvalue : value.flatten? = some read)
    (hread : start.Consumed chars rest read) :
    (pure (.success (.stream slot rest) value) : Run Reply).Ensures journal fun reply _ ↦
      reply.Lossless chars start :=
  (ensures_pure _ _ _).mpr ⟨read, hvalue, hread⟩

theorem ensures_givenUp (place : Place) (text : String) (journal : Journal) :
    (giveUp place text).Ensures journal fun reply _ ↦ reply.Lossless chars start := by
  simp [giveUp, Reply.Lossless]

/-! ### Elements -/

theorem lossless_eof : Lossless chars eof := by
  intro slot start journal h
  simp only [eof, Place.stream?, Run.ensures_bind, ensures_ofExcept]
  rintro _ ⟨⟩
  by_cases hempty : start.isEmpty = true
  · rw [if_pos hempty]
    exact ensures_kept slot journal rfl (Stream.consumed_refl h)
  · rw [if_neg hempty]
    exact ensures_givenUp _ _ _

theorem lossless_element (test : Value → Except Fault Bool)
    (describe : Value → Except Fault String) : Lossless chars (element test describe) := by
  intro slot start journal h
  simp only [element, Place.stream?, Run.ensures_bind, ensures_ofExcept]
  rintro _ ⟨⟩ step hnext
  rcases Stream.next_char h with ⟨hend, -⟩ | ⟨c, rest, hfound, -, -, hrest⟩
  · obtain rfl := Except.ok.inj (hnext.symm.trans hend)
    exact ensures_givenUp _ _ _
  · obtain rfl := Except.ok.inj (hnext.symm.trans hfound)
    simp only [Value.char, Run.ensures_bind, ensures_ofExcept]
    intro passed _
    by_cases hpassed : passed = true
    · rw [if_pos hpassed]
      exact ensures_kept none journal (Value.flatten?_char c) hrest
    · rw [if_neg hpassed]
      simp only [Run.ensures_bind, ensures_ofExcept]
      exact fun text _ ↦ ensures_givenUp _ text _

/-- The characters of a literal are consumed one by one. -/
theorem consumed_of_expectAll (expected : List Char) :
    ∀ {start rest : Stream}, start.source = .text chars →
      expectAll (expected.map .char) start = .ok (some rest) →
        start.Consumed chars rest expected := by
  induction expected with
  | nil =>
    intro start rest h hrest
    obtain rfl := Option.some.inj (Except.ok.inj hrest)
    exact Stream.consumed_refl h
  | cons c expected ih =>
    intro start rest h hrest
    rw [List.map_cons, expectAll] at hrest
    rcases Stream.next_char h with ⟨hnext, -⟩ | ⟨d, middle, hnext, -, -, hmiddle⟩
    · simp [hnext, Value.char, Value.same, Bind.bind, Except.bind, pure, Except.pure] at hrest
    · simp only [hnext, Value.same_char, Bind.bind, Except.bind] at hrest
      by_cases hsame : d = c
      · rw [if_pos (beq_iff_eq.mpr hsame)] at hrest
        subst hsame
        exact hmiddle.trans (ih hmiddle.source hrest)
      · rw [if_neg (by rwa [beq_iff_eq])] at hrest
        cases Except.ok.inj hrest

theorem lossless_literal (s : String) : Lossless chars (literal (.text s)) := by
  intro slot start journal h
  simp only [literal, Value.elements, Value.elements?, ofExcept_ok_bind, Run.ensures_bind,
    ensures_ofExcept]
  intro found hfound
  rcases found with _ | rest
  · exact ensures_givenUp _ _ _
  · exact ensures_kept none journal rfl (consumed_of_expectAll s.toList h hfound)

/-- A match in a text has the part of the text as value that it covers. -/
theorem value_of_find {pattern : Pattern} {index : Nat} {found : Pattern.Match}
    (h : pattern.find (.text chars) index = .ok (some found)) :
    found.value =
      .text (String.ofList (chars.extract (min index chars.size) found.stop).toList) := by
  unfold Pattern.find at h
  rcases hbytes : pattern.overBytes
  · rw [hbytes] at h
    obtain ⟨stop, -, rfl⟩ := Option.map_eq_some_iff.mp (Except.ok.inj h)
    rfl
  · rw [hbytes] at h
    exact nomatch h

theorem lossless_regex (pattern : Pattern) : Lossless chars (regex pattern) := by
  intro slot start journal h
  simp only [regex, Place.stream?, Stream.buffer, Stream.data, h, Source.data, ofExcept_ok_bind,
    Run.ensures_bind, ensures_ofExcept]
  intro found hfound
  rcases found with _ | found
  · exact ensures_givenUp _ _ _
  · simp only [Run.ensures_bind, ensures_ofExcept]
    intro rest hrest
    refine ensures_kept none journal ?_ (Stream.consumed_of_match h hrest)
    rw [value_of_find hfound, Value.flatten?, String.toList_ofList]

/-! ### One parser after another -/

theorem lossless_both (hp : Lossless chars p) (hq : Lossless chars q) :
    Lossless chars (both p q) := by
  intro slot start journal h
  refine hp.ensures_bind h ensures_lost fun slot middle v read final hv hmiddle ↦ ?_
  refine hq.ensures_bind hmiddle.source ensures_lost fun slot rest w more final hw hrest ↦ ?_
  exact ensures_kept slot final (Value.flatten?_pair hv hw) (hmiddle.trans hrest)

theorem lossless_either (hp : Lossless chars p) (hq : Lossless chars q) :
    Lossless chars (either p q) := by
  intro slot start journal h
  rw [either, ensures_mark_bind]
  refine hp.ensures_bind h (fun final ↦ ?_) fun slot rest value read final hvalue hrest ↦ ?_
  · simp only [Run.ensures_bind, ensures_rollback]
    exact hq slot start _ h
  · exact ensures_kept slot final hvalue hrest

theorem lossless_optional (hp : Lossless chars p) : Lossless chars (optional p) := by
  intro slot start journal h
  rw [optional, ensures_mark_bind]
  refine hp.ensures_bind h (fun final ↦ ?_) fun slot rest value read final hvalue hrest ↦ ?_
  · simp only [Run.ensures_bind, ensures_rollback]
    exact ensures_kept slot _ rfl (Stream.consumed_refl h)
  · exact ensures_kept slot final hvalue hrest

/-- The values gathered make up what lies between the start and the present place, and so do the
values of the whole repetition: an attempt that fails adds none and moves nothing. -/
theorem ensures_repeatFrom (hp : Lossless chars p) (bound : Nat) :
    ∀ slot middle values read journal, Value.flattenAll? values.reverse = some read →
      start.Consumed chars middle read →
        (repeatFrom p bound (.stream slot middle) values).Ensures journal fun reply _ ↦
          reply.Lossless chars start := by
  induction bound with
  | zero => exact fun _ _ _ _ journal _ _ ↦ ensures_unfinished journal _
  | succ bound ih =>
    intro slot middle values read journal hvalues hmiddle
    rw [repeatFrom, ensures_mark_bind]
    refine hp.ensures_bind hmiddle.source (fun final ↦ ?_)
      fun slot rest value more final hvalue hrest ↦ ?_
    · simp only [Run.ensures_bind, ensures_rollback]
      exact ensures_kept slot _ hvalues hmiddle
    · refine ih slot rest (value :: values) (read ++ more) final ?_ (hmiddle.trans hrest)
      rw [List.reverse_cons]
      exact Value.flattenAll?_concat hvalue values.reverse hvalues

theorem lossless_many (bound : Nat) (hp : Lossless chars p) : Lossless chars (many bound p) :=
  fun slot start journal h ↦
    ensures_repeatFrom hp bound slot start [] [] journal rfl (Stream.consumed_refl h)

theorem lossless_oneOrMore (bound : Nat) (hp : Lossless chars p) :
    Lossless chars (oneOrMore bound p) := by
  intro slot start journal h
  refine hp.ensures_bind h ensures_lost fun slot rest value read final hvalue hrest ↦ ?_
  have hfirst : Value.flattenAll? [value] = some read := Value.flattenAll?_singleton hvalue
  exact ensures_repeatFrom hp bound slot rest [value] read final hfirst hrest

theorem ensures_countFrom (hp : Lossless chars p) (n : Nat) :
    ∀ slot middle values read journal, Value.flattenAll? values.reverse = some read →
      start.Consumed chars middle read →
        (countFrom p n (.stream slot middle) values).Ensures journal fun reply _ ↦
          reply.Lossless chars start := by
  induction n with
  | zero =>
    exact fun slot middle values read journal hvalues hmiddle ↦
      ensures_kept slot journal hvalues hmiddle
  | succ n ih =>
    intro slot middle values read journal hvalues hmiddle
    refine hp.ensures_bind hmiddle.source ensures_lost
      fun slot rest value more final hvalue hrest ↦ ?_
    refine ih slot rest (value :: values) (read ++ more) final ?_ (hmiddle.trans hrest)
    rw [List.reverse_cons]
    exact Value.flattenAll?_concat hvalue values.reverse hvalues

theorem lossless_count (n : Nat) (hp : Lossless chars p) : Lossless chars (count n p) :=
  fun slot start journal h ↦
    ensures_countFrom hp n slot start [] [] journal rfl (Stream.consumed_refl h)

/-! ### Diagnostics -/

theorem lossless_annotate (severity : Severity) (text : String) (hp : Lossless chars p) :
    Lossless chars (annotate severity p text) := by
  intro slot start journal h
  simp only [annotate, Run.ensures_bind, ensures_ofExcept, ensures_complain]
  exact fun position _ ↦ hp slot start _ h

theorem lossless_label (name : String) (hp : Lossless chars p) :
    Lossless chars (label p name) := by
  intro slot start journal h
  refine hp.ensures_bind h (fun final ↦ ensures_givenUp _ _ final)
    fun slot rest value read final hvalue hrest ↦ ?_
  exact ensures_kept slot final hvalue hrest

theorem lossless_inspect (observe : Place → Reply → Call Unit) (hp : Lossless chars p) :
    Lossless chars (inspect p observe) := by
  intro slot start journal h
  refine hp.ensures_bind h (fun final ↦ ?_) fun slot rest value read final hvalue hrest ↦ ?_
  · simp only [Run.ensures_bind, ensures_ofCall]
    exact fun _ _ ↦ ensures_lost _
  · simp only [Run.ensures_bind, ensures_ofCall]
    exact fun _ _ ↦ ensures_kept slot _ hvalue hrest

theorem lossless_trace (name : String) (hp : Lossless chars p) :
    Lossless chars (trace name p) := by
  intro slot start journal h
  simp only [trace, Run.ensures_bind, ensures_ofExcept, ensures_note]
  intro position _ preview _
  rw [← Run.ensures_bind]
  refine hp.ensures_bind h (fun final ↦ ?_) fun slot rest value read final hvalue hrest ↦ ?_
  · simp only [Run.ensures_bind, ensures_note]
    exact ensures_lost _
  · simp only [Reply.second, Reply.first, ofExcept_ok_bind, Run.ensures_bind, ensures_ofExcept,
      ensures_note]
    exact fun finish _ ↦ ensures_kept slot _ hvalue hrest

end Parse

/-! ### Grammars -/

namespace Grammar

/-- The grammar itself neither computes with values nor drops what it has consumed. -/
def KeepsInput : Grammar → Prop
  | .literal v => ∃ s, v = .text s
  | .succeed _ | .token _ _ | .reply _ | .map _ _ | .mapOption _ _ | .mapResult _ _
  | .compose _ _ | .bind _ _ _ | .left _ _ | .right _ _ | .mid _ _ _ | .chainLeft _ _
  | .chainRight _ _ | .lookAhead _ | .notFollowedBy _ | .recover _ _ => False
  | _ => True

/-- The ordinary constructors that keep their input are lossless on every text. -/
theorem lossless_preserved (chars : Array Char) :
    Preserved KeepsInput fun p _ ↦ Parse.Lossless chars p where
  succeed := fun _ hallowed ↦ hallowed.elim
  empty := fun _ _ _ journal _ ↦ Parse.ensures_lost journal
  eof := fun _ ↦ Parse.lossless_eof
  element := fun test describe _ ↦ Parse.lossless_element test describe
  token := fun _ _ hallowed ↦ hallowed.elim
  literal := by
    rintro _ ⟨s, rfl⟩
    exact Parse.lossless_literal s
  regex := fun pattern _ ↦ Parse.lossless_regex pattern
  raise := fun fault _ _ journal _ ↦ Run.ensures_fault fault journal _
  reply := fun _ hallowed ↦ hallowed.elim
  map := fun _ _ hallowed ↦ hallowed.elim
  mapOption := fun _ _ hallowed ↦ hallowed.elim
  mapResult := fun _ _ hallowed ↦ hallowed.elim
  compose := fun _ _ hallowed ↦ hallowed.elim
  chooseNext := fun _ _ _ hallowed ↦ hallowed.elim
  both := fun _ _ _ ↦ Parse.lossless_both
  left := fun _ _ hallowed ↦ hallowed.elim
  right := fun _ _ hallowed ↦ hallowed.elim
  mid := fun _ _ _ hallowed ↦ hallowed.elim
  either := fun _ _ _ ↦ Parse.lossless_either
  optional := fun _ _ ↦ Parse.lossless_optional
  optionalEmpty := fun _ ↦
    Parse.lossless_optional fun _ _ journal _ ↦ Parse.ensures_lost journal
  count := fun n _ _ ↦ Parse.lossless_count n
  lookAhead := fun _ hallowed ↦ hallowed.elim
  notFollowedBy := fun _ hallowed ↦ hallowed.elim

theorem lossless_preserve (chars : Array Char) (bound : Nat) :
    Operations.Preserve KeepsInput (fun p _ ↦ Parse.Lossless chars p) (.standard (.within bound))
      (.standard (.within bound)) where
  many := fun _ _ ↦ Parse.lossless_many bound
  oneOrMore := fun _ _ ↦ Parse.lossless_oneOrMore bound
  chainLeft := fun _ _ hallowed ↦ hallowed.elim
  chainRight := fun _ _ hallowed ↦ hallowed.elim
  annotate := fun severity _ text _ ↦ Parse.lossless_annotate severity text
  label := fun _ name _ ↦ Parse.lossless_label name
  inspect := fun _ observe _ ↦ Parse.lossless_inspect observe
  recover := fun _ _ hallowed ↦ hallowed.elim
  trace := fun name _ _ ↦ Parse.lossless_trace name

/-- What a grammar that keeps its input means is lossless on every text. -/
theorem lossless_hereditary (chars : Array Char) :
    Hereditary KeepsInput fun p _ ↦ Parse.Lossless chars p where
  unfinished := fun _ _ journal _ ↦ Run.ensures_unfinished journal _
  preserved := lossless_preserved chars
  preserve := lossless_preserve chars

/-- A choice among parsers that keep their input keeps it. -/
theorem keepsInput_choice {parsers : List Grammar}
    (hparsers : ∀ p ∈ parsers, p.Everywhere KeepsInput) :
    (choice parsers).Everywhere KeepsInput := by
  rcases parsers with _ | ⟨p, rest⟩
  · trivial
  · exact everywhere_choice_cons (fun _ _ ↦ trivial) hparsers

/-- The value of a success, flattened, is the text that was consumed, and what is left of the text
follows it. Assumes: a grammar and definitions that keep their input. -/
theorem flatten_consumed {definitions : Definitions} {p : Grammar} (hp : p.Everywhere KeepsInput)
    (hdefinitions : definitions.Everywhere KeepsInput) {chars : Array Char} {index bound : Nat}
    {position : Position} {slot : Option Nat} {journal final : Journal} {place : Place}
    {value : Value}
    (hrun : p.eval definitions bound .top (.stream slot ⟨.text chars, index, position⟩) journal =
      .done (.success place value) final) :
    ∃ slot rest read remaining, place = .stream slot rest ∧ rest.source = .text chars ∧
      index ≤ rest.index ∧ value.flatten? = some read ∧
      read = (chars.extract index rest.index).toList ∧ rest.rest = .text remaining ∧
      read ++ remaining.toList = (chars.extract index chars.size).toList := by
  have hlossless := (lossless_hereditary chars).eval hdefinitions bound .top p trivial hp
  have hreply := hlossless slot ⟨.text chars, index, position⟩ journal rfl _ final hrun
  rcases place with ⟨slot, rest⟩ | v
  · obtain ⟨read, hvalue, hread⟩ := hreply
    have hremaining : rest.rest = .text (chars.extract rest.index chars.size) := by
      rw [Stream.rest, Stream.data, hread.source]
      rfl
    refine ⟨slot, rest, read, _, rfl, hread.source, hread.index_le, hvalue, hread.between.symm,
      hremaining, ?_⟩
    rw [← hread.between, ← Array.toList_append, Array.extract_append_extract,
      Nat.min_eq_left hread.index_le]
    by_cases hend : rest.index ≤ chars.size
    · rw [Nat.max_eq_right hend]
    · rw [Nat.max_eq_left (by omega), Array.extract_of_size_lt (by omega)]
  · exact hreply.elim

/-- One letter or more out of the last three of the alphabet. -/
def word : Grammar :=
  regex ⟨.text "[x-z]+", false,
    .repetition 1 none true (.set false [.range 120 122] .exact), 1⟩

/-- Any number of items, and then two stops that may be missing. An item is a word with an
exclamation mark behind it, or the letter a twice. -/
def markedItems : Grammar :=
  both
    (many (choice [both (label word "word") (char (.char '!')), count 2 (char (.char 'a'))]))
    (optional (literal (.text "..")))

theorem keepsInput_markedItems : markedItems.Everywhere KeepsInput := by
  have hitem : (choice [both (label word "word") (char (.char '!')),
      count 2 (char (.char 'a'))]).Everywhere KeepsInput := by
    refine keepsInput_choice ?_
    simp [word, char, Everywhere, KeepsInput]
  exact ⟨trivial, ⟨trivial, hitem⟩, trivial, .inr ⟨"..", rfl⟩⟩

/-- Two items and half a third one behind the first character of a text. The attempt at the third
item and the one at the stops have been given up, and their characters are left. -/
theorem flatten_consumed_markedItems :
    ∃ final : Journal,
      markedItems.eval .none 5 .top
        (.stream none ⟨.text #['-', 'x', '!', 'a', 'a', 'a', '.'], 1, ⟨0, 1⟩⟩) .empty =
          .done (.success (.fresh ⟨.text #['-', 'x', '!', 'a', 'a', 'a', '.'], 5, ⟨0, 5⟩⟩)
            (.tuple [.list [.tuple [.text "x", .char '!'], .list [.char 'a', .char 'a']],
              .null])) final ∧
      ∃ slot rest read remaining,
        Place.fresh ⟨.text #['-', 'x', '!', 'a', 'a', 'a', '.'], 5, ⟨0, 5⟩⟩ =
          .stream slot rest ∧
        rest.source = .text #['-', 'x', '!', 'a', 'a', 'a', '.'] ∧ 1 ≤ rest.index ∧
        (Value.tuple [.list [.tuple [.text "x", .char '!'], .list [.char 'a', .char 'a']],
          .null]).flatten? = some read ∧
        read = (#['-', 'x', '!', 'a', 'a', 'a', '.'].extract 1 rest.index).toList ∧
        rest.rest = .text remaining ∧
        read ++ remaining.toList = (#['-', 'x', '!', 'a', 'a', 'a', '.'].extract 1 7).toList := by
  have hrun : ∃ final, markedItems.eval .none 5 .top
      (.stream none ⟨.text #['-', 'x', '!', 'a', 'a', 'a', '.'], 1, ⟨0, 1⟩⟩) .empty =
        .done (.success (.fresh ⟨.text #['-', 'x', '!', 'a', 'a', 'a', '.'], 5, ⟨0, 5⟩⟩)
          (.tuple [.list [.tuple [.text "x", .char '!'], .list [.char 'a', .char 'a']],
            .null])) final := ⟨_, rfl⟩
  obtain ⟨final, hrun⟩ := hrun
  exact ⟨final, hrun, flatten_consumed keepsInput_markedItems (Definitions.everywhere_none _) hrun⟩

end Grammar

end DiagnosticParsing
