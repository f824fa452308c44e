import DiagnosticParsing.Proofs.Correspondence
import DiagnosticParsing.Proofs.Encoding
import DiagnosticParsing.Proofs.Soundness

/-!
# The encoding of a text does not matter

A template filled in two encodings does the same on the two encodings of a text. The runs are cut
short together, fail together, or succeed together at the same index and position, and the messages
that they log agree one by one in severity and position (`Template.eval_encodings`). Values and
wordings do differ, for they hold the letters.

Two parsers are `Parse.Alike` when their runs on the two encodings of a text go together, and there
is one law for each way of building a template. The values are related only as far as a function is
applied to them, which is the case in lists with separators alone. That no run raises a fault is
known from the typing of grammars, for the encoding as characters (`Template.sound_fill`), and the
runs in the other encodings go together with these.
-/

set_option autoImplicit false

namespace DiagnosticParsing

/-- What a message is about: its severity and its position. -/
def Message.heading (message : Message) : Severity × Position :=
  (message.severity, message.position)

/-- Runs that log messages with the same headings. -/
def Correspondence.sameHeadings : Correspondence where
  streams := Eq
  messages added added' := added.map Message.heading = added'.map Message.heading
  pardons _ := False
  endless := True
  isEmpty_eq := @Stream.isEmpty_eq_of_eq
  next := @Stream.next_of_eq
  silence := rfl
  append := by
    intro added added' more more' hadded hmore
    rw [List.map_append, List.map_append, hadded, hmore]
  message := by
    rintro s _ rfl severity text
    rfl

/-- Replies over a text in two encodings. Both are failures, or both are successes that leave the
same place of the text with values that are related. -/
inductive Reply.Alike (e e' : Encoding) (text : List Ascii) (values : Value → Value → Prop) :
    Reply → Reply → Prop
  | failure : Alike e e' text values .failure .failure
  | success (slot : Option Nat) (index : Nat) (position : Position) {v v' : Value}
    (hvalues : values v v') :
    Alike e e' text values (.success (.stream slot (e.stream text index position)) v)
      (.success (.stream slot (e'.stream text index position)) v')

theorem Reply.Alike.mono {e e' : Encoding} {text : List Ascii}
    {values weaker : Value → Value → Prop} {reply reply' : Reply}
    (h : reply.Alike e e' text values reply')
    (hweaker : ∀ v v', values v v' → weaker v v') : reply.Alike e e' text weaker reply' := by
  cases h with
  | failure => exact .failure
  | success slot index position hvalues => exact .success slot index position (hweaker _ _ hvalues)

namespace Parse

open Correspondence Run

variable {e e' : Encoding} {text : List Ascii} {values others : Value → Value → Prop}
  {p p' q q' r r' : Parse} {α β : Type}

/-- On the same place of a text in two encodings the parsers do the same, and their values are
related. -/
def Alike (e e' : Encoding) (text : List Ascii) (values : Value → Value → Prop) (p p' : Parse) :
    Prop :=
  ∀ slot index position, sameHeadings.Runs (p (.stream slot (e.stream text index position)))
    (p' (.stream slot (e'.stream text index position))) (Reply.Alike e e' text values)

/-- Any two values. -/
def AnyValues (_ _ : Value) : Prop :=
  True

/-- Two lists. -/
def TwoLists (v v' : Value) : Prop :=
  ∃ items items', v = .list items ∧ v' = .list items'

/-- Two pairs whose second values are related. -/
def TwoPairs (values : Value → Value → Prop) (v v' : Value) : Prop :=
  ∃ first first' second second', v = .tuple [first, second] ∧ v' = .tuple [first', second'] ∧
    values second second'

theorem Alike.mono (hp : Alike e e' text values p p')
    (hweaker : ∀ v v', values v v' → others v v') : Alike e e' text others p p' :=
  fun slot index position ↦
    (hp slot index position).mono fun _ _ hreply ↦ hreply.mono hweaker

theorem Alike.any (hp : Alike e e' text values p p') : Alike e e' text AnyValues p p' :=
  hp.mono fun _ _ _ ↦ trivial

/-! ### What follows two parsers -/

theorem runs_lost : sameHeadings.Runs (pure .failure) (pure .failure)
    (Reply.Alike e e' text values) :=
  runs_pure .failure

theorem runs_found (slot : Option Nat) (index : Nat) (position : Position) {v v' : Value}
    (hvalues : values v v') :
    sameHeadings.Runs (pure (.success (.stream slot (e.stream text index position)) v))
      (pure (.success (.stream slot (e'.stream text index position)) v'))
      (Reply.Alike e e' text values) :=
  runs_pure (.success slot index position hvalues)

/-- Both sides give up at the same position, whatever their words. -/
theorem runs_givenUp (slot : Option Nat) (index : Nat) (position : Position)
    (wording wording' : String) :
    sameHeadings.Runs (giveUp (.stream slot (e.stream text index position)) wording)
      (giveUp (.stream slot (e'.stream text index position)) wording')
      (Reply.Alike e e' text values) :=
  (runs_complain rfl).bind fun _ _ _ ↦ runs_lost

/-- What follows two parsers is run on two failures, or on two successes at one place. -/
theorem Alike.bind (hp : Alike e e' text values p p') {next : Reply → Run α}
    {next' : Reply → Run β} {accept : α → β → Prop} {slot : Option Nat} {index : Nat}
    {position : Position} (hfailure : sameHeadings.Runs (next .failure) (next' .failure) accept)
    (hsuccess : ∀ slot index position v v', values v v' →
      sameHeadings.Runs (next (.success (.stream slot (e.stream text index position)) v))
        (next' (.success (.stream slot (e'.stream text index position)) v')) accept) :
    sameHeadings.Runs (p (.stream slot (e.stream text index position)) >>= next)
      (p' (.stream slot (e'.stream text index position)) >>= next') accept := by
  refine (hp slot index position).bind fun reply reply' hreply ↦ ?_
  cases hreply with
  | failure => exact hfailure
  | success slot index position hvalues => exact hsuccess slot index position _ _ hvalues

/-- The same behind a mark that both sides have taken. -/
theorem Alike.bindFrom (hp : Alike e e' text values p p') {next : Nat → Reply → Run α}
    {next' : Nat → Reply → Run β} {accept : α → β → Prop} {slot : Option Nat} {index : Nat}
    {position : Position}
    (hfailure : sameHeadings.RunsFrom (fun mark ↦ next mark .failure)
      (fun mark ↦ next' mark .failure) accept)
    (hsuccess : ∀ slot index position v v', values v v' →
      sameHeadings.RunsFrom
        (fun mark ↦ next mark (.success (.stream slot (e.stream text index position)) v))
        (fun mark ↦ next' mark (.success (.stream slot (e'.stream text index position)) v'))
        accept) :
    sameHeadings.RunsFrom
      (fun mark ↦ p (.stream slot (e.stream text index position)) >>= next mark)
      (fun mark ↦ p' (.stream slot (e'.stream text index position)) >>= next' mark) accept := by
  refine (hp slot index position).fromMark.bind fun reply reply' hreply ↦ ?_
  cases hreply with
  | failure => exact hfailure
  | success slot index position hvalues => exact hsuccess slot index position _ _ hvalues

/-! ### Parsers without parts -/

theorem alike_succeed {v v' : Value} (hvalues : values v v') :
    Alike e e' text values (succeed v) (succeed v') :=
  fun slot index position ↦ runs_found slot index position hvalues

theorem alike_empty : Alike e e' text values empty empty :=
  fun _ _ _ ↦ runs_lost

theorem alike_unfinished :
    Alike e e' text values (fun _ ↦ Run.unfinished) fun _ ↦ Run.unfinished :=
  fun _ _ _ ↦ runs_unfinished trivial

theorem alike_eof : Alike e e' text AnyValues eof eof := by
  intro slot index position
  simp only [eof, Place.stream?, ofExcept_ok_bind, e.isEmpty_stream, e'.isEmpty_stream]
  by_cases hempty : ((text.length : Int) - index == 0) = true
  · rw [if_pos hempty, if_pos hempty]
    exact runs_found slot index position trivial
  · rw [if_neg hempty, if_neg hempty]
    exact runs_givenUp slot index position _ _

/-- What becomes of an element that is found. -/
theorem element_of_next {test : Value → Bool} {describe : Value → String} {slot : Option Nat}
    {s rest : Stream} {found : Value} (hnext : s.next = .ok (found, rest))
    (hfound : found ≠ .null) :
    element (fun x ↦ .ok (test x)) (fun x ↦ .ok (describe x)) (.stream slot s) =
      if test found = true then pure (.success (.fresh rest) found)
      else giveUp (.stream slot s) (describe found) := by
  simp only [element, Place.stream?, ofExcept_ok_bind, hnext]

/-- What is said at the end of the input. -/
theorem element_of_end {test : Value → Bool} {describe : Value → String} {slot : Option Nat}
    {s rest : Stream} (hnext : s.next = .ok (.null, rest)) :
    element (fun x ↦ .ok (test x)) (fun x ↦ .ok (describe x)) (.stream slot s) =
      giveUp (.stream slot s) endOfInput := by
  simp only [element, Place.stream?, ofExcept_ok_bind, hnext]

/-- Two tests of an element that agree on the letters of each character. -/
theorem alike_element {test test' : Value → Bool} (describe describe' : Value → String)
    (htest : ∀ c, test (e.letter c) = test' (e'.letter c)) :
    Alike e e' text AnyValues
      (element (fun x ↦ .ok (test x)) fun x ↦ .ok (describe x))
      (element (fun x ↦ .ok (test' x)) fun x ↦ .ok (describe' x)) := by
  intro slot index position
  have hnext := e.next_stream text index position
  have hnext' := e'.next_stream text index position
  rcases hcurrent : text[index]? with _ | c
  · rw [hcurrent] at hnext hnext'
    rw [element_of_end hnext, element_of_end hnext']
    exact runs_givenUp slot index position _ _
  · rw [hcurrent] at hnext hnext'
    rw [element_of_next hnext (e.letter_ne_null c), element_of_next hnext' (e'.letter_ne_null c),
      htest c]
    by_cases hpassed : test' (e'.letter c) = true
    · rw [if_pos hpassed, if_pos hpassed]
      exact runs_found none (index + 1) (position.behind c) trivial
    · rw [if_neg hpassed, if_neg hpassed]
      exact runs_givenUp slot index position _ _

/-- The characters of a literal are found in one encoding just when they are in the other, and up to
the same place. -/
theorem expectAll_encodings (expected : List Ascii) :
    ∀ index position,
      (expectAll (expected.map e.letter) (e.stream text index position) = .ok none ∧
        expectAll (expected.map e'.letter) (e'.stream text index position) = .ok none) ∨
      ∃ stop finish,
        expectAll (expected.map e.letter) (e.stream text index position) =
          .ok (some (e.stream text stop finish)) ∧
        expectAll (expected.map e'.letter) (e'.stream text index position) =
          .ok (some (e'.stream text stop finish)) := by
  induction expected with
  | nil => exact fun index position ↦ .inr ⟨index, position, rfl, rfl⟩
  | cons c expected ih =>
    intro index position
    simp only [List.map_cons, expectAll, e.next_stream, e'.next_stream]
    rcases text[index]? with _ | d
    · left
      simp only [Bind.bind, Except.bind]
      rw [if_neg (by rw [Value.same_null (e.letter_ne_null c)]; exact Bool.false_ne_true),
        if_neg (by rw [Value.same_null (e'.letter_ne_null c)]; exact Bool.false_ne_true)]
      exact ⟨rfl, rfl⟩
    · simp only [Bind.bind, Except.bind, e.same_letter, e'.same_letter]
      by_cases hsame : (d.char == c.char) = true
      · rw [if_pos hsame, if_pos hsame]
        exact ih (index + 1) (position.behind d)
      · rw [if_neg hsame, if_neg hsame]
        exact .inl ⟨rfl, rfl⟩

theorem alike_literal (expected : List Ascii) :
    Alike e e' text AnyValues (literal (e.word expected)) (literal (e'.word expected)) := by
  intro slot index position
  simp only [literal, e.elements_word, e'.elements_word, ofExcept_ok_bind]
  rcases expectAll_encodings expected index position with ⟨hnone, hnone'⟩ |
    ⟨stop, finish, hsome, hsome'⟩
  · rw [hnone, hnone']
    exact runs_givenUp slot index position _ _
  · rw [hsome, hsome']
    exact runs_found none stop finish trivial

/-! ### One parser after another -/

theorem alike_both (hp : Alike e e' text values p p') (hq : Alike e e' text others q q') :
    Alike e e' text (TwoPairs others) (both p q) (both p' q') := by
  intro slot index position
  refine hp.bind runs_lost fun slot index position first first' _ ↦ ?_
  refine hq.bind runs_lost fun slot index position second second' hsecond ↦ ?_
  exact runs_found slot index position ⟨first, first', second, second', rfl, rfl, hsecond⟩

theorem alike_left (hp : Alike e e' text values p p') (hq : Alike e e' text others q q') :
    Alike e e' text values (left p q) (left p' q') := by
  intro slot index position
  refine hp.bind runs_lost fun slot index position first first' hfirst ↦ ?_
  refine hq.bind runs_lost fun slot index position second second' _ ↦ ?_
  exact runs_found slot index position hfirst

theorem alike_right (hp : Alike e e' text values p p') (hq : Alike e e' text others q q') :
    Alike e e' text others (right p q) (right p' q') := by
  intro slot index position
  refine hp.bind runs_lost fun slot index position _ _ _ ↦ ?_
  exact hq slot index position

theorem alike_mid {last : Value → Value → Prop} (hp : Alike e e' text values p p')
    (hq : Alike e e' text others q q') (hr : Alike e e' text last r r') :
    Alike e e' text others (mid p q r) (mid p' q' r') := by
  intro slot index position
  refine hp.bind runs_lost fun slot index position _ _ _ ↦ ?_
  refine hq.bind runs_lost fun slot index position second second' hsecond ↦ ?_
  refine hr.bind runs_lost fun slot index position _ _ _ ↦ ?_
  exact runs_found slot index position hsecond

/-! ### Alternatives and repetition -/

theorem alike_either (hp : Alike e e' text values p p') (hq : Alike e e' text values q q') :
    Alike e e' text values (either p q) (either p' q') := by
  intro slot index position
  refine runs_mark_bind (hp.bindFrom ?_ fun slot index position v v' hvalues ↦ ?_)
  · exact runsFrom_rollback.bind fun _ _ _ ↦ (hq slot index position).fromMark
  · exact (runs_found slot index position hvalues).fromMark

theorem alike_optional (hp : Alike e e' text values p p') :
    Alike e e' text AnyValues (optional p) (optional p') := by
  intro slot index position
  refine runs_mark_bind (hp.bindFrom ?_ fun slot index position v v' _ ↦ ?_)
  · exact runsFrom_rollback.bind fun _ _ _ ↦ (runs_found slot index position trivial).fromMark
  · exact (runs_found slot index position trivial).fromMark

/-- Both sides go round equally often. -/
theorem runs_repeatFrom (hp : Alike e e' text values p p') (bound : Nat) :
    ∀ slot index position (items items' : List Value),
      sameHeadings.Runs (repeatFrom p bound (.stream slot (e.stream text index position)) items)
        (repeatFrom p' bound (.stream slot (e'.stream text index position)) items')
        (Reply.Alike e e' text TwoLists) := by
  induction bound with
  | zero => exact fun _ _ _ _ _ ↦ runs_unfinished trivial
  | succ bound ih =>
    intro slot index position items items'
    refine runs_mark_bind (hp.bindFrom ?_ fun slot index position v v' _ ↦ ?_)
    · refine runsFrom_rollback.bind fun _ _ _ ↦ ?_
      exact (runs_found slot index position ⟨_, _, rfl, rfl⟩).fromMark
    · exact (ih slot index position (v :: items) (v' :: items')).fromMark

theorem alike_many (bound : Nat) (hp : Alike e e' text values p p') :
    Alike e e' text TwoLists (many bound p) (many bound p') :=
  fun slot index position ↦ runs_repeatFrom hp bound slot index position [] []

theorem alike_oneOrMore (bound : Nat) (hp : Alike e e' text values p p') :
    Alike e e' text TwoLists (oneOrMore bound p) (oneOrMore bound p') := by
  intro slot index position
  refine hp.bind runs_lost fun slot index position v v' _ ↦ ?_
  exact runs_repeatFrom hp bound slot index position [v] [v']

theorem runs_countFrom (hp : Alike e e' text values p p') (n : Nat) :
    ∀ slot index position (items items' : List Value),
      sameHeadings.Runs (countFrom p n (.stream slot (e.stream text index position)) items)
        (countFrom p' n (.stream slot (e'.stream text index position)) items')
        (Reply.Alike e e' text TwoLists) := by
  induction n with
  | zero =>
    exact fun slot index position _ _ ↦ runs_found slot index position ⟨_, _, rfl, rfl⟩
  | succ n ih =>
    intro slot index position items items'
    refine hp.bind runs_lost fun slot index position v v' _ ↦ ?_
    exact ih slot index position (v :: items) (v' :: items')

theorem alike_count (n : Nat) (hp : Alike e e' text values p p') :
    Alike e e' text TwoLists (count n p) (count n p') :=
  fun slot index position ↦ runs_countFrom hp n slot index position [] []

/-- The first of several items is put in front of the others. -/
theorem alike_map_cons (hp : Alike e e' text (TwoPairs TwoLists) p p') :
    Alike e e' text TwoLists (map p Function.cons.call) (map p' Function.cons.call) := by
  intro slot index position
  refine hp.bind runs_lost fun slot index position v v' hvalues ↦ ?_
  obtain ⟨first, first', _, _, rfl, rfl, items, items', rfl, rfl⟩ := hvalues
  have hcalls : sameHeadings.Runs
      (ofCall (Function.cons.call (.tuple [first, .list items])))
      (ofCall (Function.cons.call (.tuple [first', .list items']))) TwoLists :=
    runs_ofCall_of_ok rfl rfl ⟨first :: items, first' :: items', rfl, rfl⟩
  exact hcalls.bind fun _ _ hlists ↦ runs_found slot index position hlists

/-- One item or more, with separators between them. -/
theorem alike_items (bound : Nat) (hp : Alike e e' text values p p')
    (hq : Alike e e' text others q q') :
    Alike e e' text TwoLists (map (both p (many bound (right q p))) Function.cons.call)
      (map (both p' (many bound (right q' p'))) Function.cons.call) :=
  alike_map_cons (alike_both hp (alike_many bound (alike_right hq hp)))

/-! ### Looking without consuming, and diagnostics -/

theorem alike_lookAhead (hp : Alike e e' text values p p') :
    Alike e e' text values (lookAhead p) (lookAhead p') := by
  intro slot index position
  refine hp.bind runs_lost fun _ _ _ v v' hvalues ↦ ?_
  exact runs_found slot index position hvalues

theorem alike_notFollowedBy (hp : Alike e e' text values p p') :
    Alike e e' text AnyValues (notFollowedBy p) (notFollowedBy p') := by
  intro slot index position
  refine runs_mark_bind (hp.bindFrom ?_ fun _ _ _ v v' _ ↦ ?_)
  · exact runsFrom_rollback.bind fun _ _ _ ↦ (runs_found slot index position trivial).fromMark
  · exact runsFrom_rollback.bind fun _ _ _ ↦ (runs_givenUp slot index position _ _).fromMark

theorem alike_label (name : String) (hp : Alike e e' text values p p') :
    Alike e e' text values (label p name) (label p' name) := by
  intro slot index position
  refine hp.bind (runs_givenUp slot index position _ _) fun slot index position v v' hvalues ↦ ?_
  exact runs_found slot index position hvalues

theorem alike_annotate (severity : Severity) (wording : String)
    (hp : Alike e e' text values p p') :
    Alike e e' text values (annotate severity p wording) (annotate severity p' wording) := by
  intro slot index position
  exact (runs_complain rfl).bind fun _ _ _ ↦ hp slot index position

end Parse

/-! ### Filled templates -/

namespace Template

open Parse Correspondence

/-- What a template does when it is filled in an encoding. -/
def parse (e : Encoding) (p : Template) (bound : Nat) : Parse :=
  (p.fill e).eval .none bound .top

variable (e e' : Encoding) (text : List Ascii)

/-- The meanings of a template in two encodings are alike. -/
theorem alike_meaning {definitions : Definitions} {enter enter' : Scope → Grammar → Parse}
    {bound : Nat} {scope : Scope} (p : Template) :
    Alike e e' text AnyValues ((p.fill e).meaning definitions enter bound scope)
      ((p.fill e').meaning definitions enter' bound scope) := by
  induction p with
  | char c =>
    exact alike_element _ _ fun d ↦ (e.same_letter d c).trans (e'.same_letter d c).symm
  | literal expected => exact alike_literal expected
  | anyElement => exact alike_element _ _ fun _ ↦ rfl
  | eof => exact alike_eof
  | succeed v => exact alike_succeed trivial
  | empty => exact alike_empty
  | both p q ihp ihq => exact (alike_both ihp ihq).any
  | left p q ihp ihq => exact alike_left ihp ihq
  | right p q ihp ihq => exact alike_right ihp ihq
  | mid p q r ihp ihq ihr => exact alike_mid ihp ihq ihr
  | either p q ihp ihq => exact alike_either ihp ihq
  | many p ih => exact (alike_many bound ih).any
  | oneOrMore p ih => exact (alike_oneOrMore bound ih).any
  | optional p ih => exact alike_optional ih
  | count n p ih => exact (alike_count n ih).any
  | sepBy1 p separator ihp ihseparator => exact (alike_items bound ihp ihseparator).any
  | sepBy p separator ihp ihseparator =>
    exact alike_either (alike_items bound ihp ihseparator).any (alike_succeed trivial)
  | endBy p separator ihp ihseparator =>
    exact (alike_many bound (alike_left ihp ihseparator)).any
  | lookAhead p ih => exact alike_lookAhead ih
  | notFollowedBy p ih => exact alike_notFollowedBy ih
  | label p name ih => exact alike_label name ih
  | annotate severity p wording ih => exact alike_annotate severity wording ih

/-- What a template does is alike in two encodings. -/
theorem alike_parse (p : Template) (bound : Nat) :
    Alike e e' text AnyValues (p.parse e bound) (p.parse e' bound) := by
  rcases bound with _ | bound
  · exact alike_unfinished
  · exact p.alike_meaning e e' text

/-- A template filled with characters is a sound grammar. -/
theorem sound_fill {definitions : Definitions} {known : String → Prop} (p : Template) :
    (p.fill .characters).Sound definitions known fun _ ↦ True := by
  induction p with
  | char c => exact (Grammar.sound_char _).weaken fun _ _ ↦ trivial
  | literal expected =>
    exact (Grammar.Sound.literal known (Encoding.characters.elements_word expected)).weaken
      fun _ _ ↦ trivial
  | anyElement => exact Grammar.sound_anyElement.weaken fun _ _ ↦ trivial
  | eof => exact (Grammar.Sound.eof known).weaken fun _ _ ↦ trivial
  | succeed v => exact (Grammar.Sound.succeed known v).weaken fun _ _ ↦ trivial
  | empty => exact (Grammar.Sound.empty known).weaken fun _ _ ↦ trivial
  | both p q ihp ihq => exact (Grammar.Sound.both ihp ihq).weaken fun _ _ ↦ trivial
  | left p q ihp ihq => exact .left ihp ihq
  | right p q ihp ihq => exact .right ihp ihq
  | mid p q r ihp ihq ihr => exact .mid ihp ihq ihr
  | either p q ihp ihq => exact .either ihp ihq
  | many p ih => exact (Grammar.Sound.many ih).weaken fun _ _ ↦ trivial
  | oneOrMore p ih => exact (Grammar.Sound.oneOrMore ih).weaken fun _ _ ↦ trivial
  | optional p ih => exact (Grammar.Sound.optional ih).weaken fun _ _ ↦ trivial
  | count n p ih => exact (Grammar.Sound.count n ih).weaken fun _ _ ↦ trivial
  | sepBy1 p separator ihp ihseparator =>
    exact (Grammar.sound_sepBy1 ihp ihseparator).weaken fun _ _ ↦ trivial
  | sepBy p separator ihp ihseparator =>
    exact (Grammar.sound_sepBy ihp ihseparator).weaken fun _ _ ↦ trivial
  | endBy p separator ihp ihseparator =>
    exact (Grammar.sound_endBy ihp ihseparator).weaken fun _ _ ↦ trivial
  | lookAhead p ih => exact .lookAhead ih
  | notFollowedBy p ih => exact (Grammar.Sound.notFollowedBy ih).weaken fun _ _ ↦ trivial
  | label p name ih => exact .label name ih
  | annotate severity p wording ih => exact .annotate severity wording ih

variable (bound : Nat) (slot : Option Nat) (index : Nat) (position : Position)

/-- Templates raise no fault. Over characters this is the soundness of grammars, and over any other
encoding the runs end as they do over characters. -/
theorem parse_ne_faulted (p : Template) (journal final : Journal) (fault : Fault) :
    p.parse e bound (.stream slot (e.stream text index position)) journal ≠
      .faulted fault final := by
  intro hfaulted
  have hdefinitions : Definitions.none.Sound := fun _ _ hget ↦ nomatch hget
  have hsafe : (p.parse .characters bound
      (.stream slot (Encoding.characters.stream text index position))).Safe
        (fun _ ↦ True) (Reply.OnText _ fun _ ↦ True) :=
    (sound_fill p).safe_eval hdefinitions bound (.blind .top) _ rfl
  have hanswer := hsafe journal trivial
  have hends := p.alike_parse .characters e text bound slot index position journal journal
  rw [hfaulted] at hends
  revert hanswer hends
  generalize p.parse .characters bound
    (.stream slot (Encoding.characters.stream text index position)) journal = outcome
  intro hanswer hends
  cases hends with
  | faulted _ _ _ => exact hanswer
  | pardoned hpardons => exact hpardons

/-- The runs of a template on a text in two encodings agree. Either both are cut short, or both come
to a reply: both fail, or both succeed and leave the same index and the same position. The messages
that they add to the log agree one by one in severity and position. -/
theorem eval_encodings (p : Template) (journal journal' : Journal) :
    (p.parse e bound (.stream slot (e.stream text index position)) journal = .unfinished ∧
        p.parse e' bound (.stream slot (e'.stream text index position)) journal' = .unfinished) ∨
      ∃ reply reply' final final' added added',
        p.parse e bound (.stream slot (e.stream text index position)) journal =
          .done reply final ∧
        p.parse e' bound (.stream slot (e'.stream text index position)) journal' =
          .done reply' final' ∧
        reply.Alike e e' text AnyValues reply' ∧
        final.log.toList = journal.log.toList ++ added ∧
        final'.log.toList = journal'.log.toList ++ added' ∧
        added.map Message.heading = added'.map Message.heading := by
  have hends := p.alike_parse e e' text bound slot index position journal journal'
  have hfaultless := p.parse_ne_faulted e text bound slot index position journal
  revert hends hfaultless
  generalize p.parse e bound (.stream slot (e.stream text index position)) journal = outcome
  generalize p.parse e' bound (.stream slot (e'.stream text index position)) journal' = outcome'
  intro hends hfaultless
  cases hends with
  | done haccept hmessages hlog hlog' =>
    exact .inr ⟨_, _, _, _, _, _, rfl, rfl, haccept, hlog, hlog', hmessages⟩
  | faulted _ _ _ => exact absurd rfl (hfaultless _ _)
  | pardoned hpardons => exact hpardons.elim
  | endless _ => exact .inl ⟨rfl, rfl⟩

/-- Over bytes, byte ten starts a new row as the line feed does over characters. -/
example :
    let text : List Ascii := [⟨'a', by decide⟩, ⟨'\n', by decide⟩, ⟨'b', by decide⟩]
    ((many anyElement).parse .characters 5 (.fresh (Encoding.characters.stream text 0 .origin))
        .empty).result? = some (.ok (.success
          (.fresh (Encoding.characters.stream text 3 ⟨1, 1⟩))
          (.list [.text "a", .text "\n", .text "b"]))) ∧
      ((many anyElement).parse .bytes 5 (.fresh (Encoding.bytes.stream text 0 .origin))
        .empty).result? = some (.ok (.success (.fresh (Encoding.bytes.stream text 3 ⟨1, 1⟩))
          (.list [.int 97, .int 10, .int 98]))) :=
  ⟨rfl, rfl⟩

end Template

end DiagnosticParsing
