import DiagnosticParsing.Proofs.Elements
import DiagnosticParsing.Proofs.Expression.Reading
import DiagnosticParsing.Proofs.Sequencing.Laws

/-!
# White space around a parser

Skipping white space is a function of streams, `Stream.skipBlanks`: step over the white space
characters at the front of what is left, and look at the element behind them. A repetition of
`space` does just this and leaves no message (`Parse.many_blank`, `Grammar.endsWith_many_space`).
Where white space has been skipped there is none left to skip (`Place.skipBlanks_of_skipBlanks`), so
that to skip it twice is to skip it once, on either side of a parser (`Parse.right_right_blank`,
`Parse.left_left_blank`).

Skipping can only raise where the rule for positions does. If it raises at the front, then this is
how the trimmed parser ends, whatever the log. Otherwise the trimmed parser comes to the same ends
as the parser with white space behind it does where the white space at the front has been skipped;
and without a fault it comes to these only: it fails as the parser fails there, or the parser
succeeds there and its value is given where the white space behind it has been skipped, so that
`space` fails. The main result is `Grammar.trim_skips`. It holds of any grammar, whatever its parts
reply, since a reply that leaves no stream makes the white space behind it raise.
-/

set_option autoImplicit false

namespace DiagnosticParsing

/-- The element is one of the white space characters. -/
def Value.isBlank (x : Value) : Bool :=
  Grammar.whiteSpace.any (x.same ·)

/-! ### Skipping -/

namespace Stream

/-- The white space characters at the front of what is left. -/
def blanks (stream : Stream) : List Value :=
  stream.rest.toList.takeWhile Value.isBlank

/-- The stream behind the white space characters at the front. The element behind them is looked at,
which raises where the rule for positions does. -/
def skipBlanks (stream : Stream) : Except Fault Stream := do
  let start ← stream.advance stream.blanks.length
  let _ ← start.next
  return start

variable {stream rest start : Stream} {element : Value} {more : List Value} {fault : Fault}

theorem blanks_of_end (hrest : stream.rest.toList = []) : stream.blanks = [] := by
  rw [blanks, hrest, List.takeWhile_nil]

theorem blanks_of_not_blank (hrest : stream.rest.toList = element :: more)
    (hblank : element.isBlank = false) : stream.blanks = [] := by
  rw [blanks, hrest, List.takeWhile_cons_of_neg (by rw [hblank]; exact Bool.false_ne_true)]

theorem blanks_of_blank (hrest : stream.rest.toList = element :: rest.rest.toList)
    (hblank : element.isBlank = true) : stream.blanks = element :: rest.blanks := by
  rw [blanks, hrest, List.takeWhile_cons_of_pos hblank, blanks]

/-- Without white space at the front, skipping stays where it is. -/
theorem skipBlanks_of_blanks_eq_nil (hblanks : stream.blanks = []) :
    stream.skipBlanks = stream.next.map fun _ ↦ stream := by
  rw [skipBlanks, hblanks]
  change (stream.next >>= fun _ ↦ pure stream) = _
  cases stream.next <;> rfl

theorem skipBlanks_of_blank (hrest : stream.rest.toList = element :: rest.rest.toList)
    (hnext : stream.next = .ok (element, rest)) (hblank : element.isBlank = true) :
    stream.skipBlanks = rest.skipBlanks := by
  rw [skipBlanks, blanks_of_blank hrest hblank, List.length_cons, advance_succ, hnext]
  rfl

theorem skipBlanks_of_raised (hrest : stream.rest.toList = element :: more)
    (hnext : stream.next = .error fault) : stream.skipBlanks = .error fault := by
  cases hblank : element.isBlank with
  | true =>
    rw [skipBlanks, blanks, hrest, List.takeWhile_cons_of_pos hblank, List.length_cons,
      advance_succ, hnext]
    rfl
  | false =>
    rw [skipBlanks_of_blanks_eq_nil (blanks_of_not_blank hrest hblank), hnext]
    rfl

/-- What holds of the stream behind the white space at the front of another one. -/
structure SkipsTo (stream start : Stream) : Prop where
  /-- It runs over the same source. -/
  source : start.source = stream.source
  /-- The white space characters have been consumed. -/
  index : start.index = stream.index + stream.blanks.length
  /-- What is left begins with the first element that is no white space. -/
  rest : start.rest.toList = stream.rest.toList.dropWhile Value.isBlank
  /-- There is no white space left to skip. -/
  blanks : start.blanks = []
  /-- The element in front can be looked at. -/
  again : start.skipBlanks = .ok start

theorem skipsTo_of_blanks_eq_nil (hblanks : stream.blanks = [])
    (hskip : stream.skipBlanks = .ok stream) : stream.SkipsTo stream where
  source := rfl
  index := by rw [hblanks, List.length_nil, Nat.add_zero]
  rest := by
    have hsplit := List.takeWhile_append_dropWhile (p := Value.isBlank) (l := stream.rest.toList)
    rw [← Stream.blanks, hblanks, List.nil_append] at hsplit
    exact hsplit.symm
  blanks := hblanks
  again := hskip

theorem skipsTo_of_skipBlanks (h : stream.skipBlanks = .ok start) : stream.SkipsTo start := by
  induction hblanks : stream.blanks generalizing stream with
  | nil =>
    have hskip := h
    rw [skipBlanks_of_blanks_eq_nil hblanks] at hskip
    cases hnext : stream.next with
    | error fault =>
      rw [hnext] at hskip
      exact nomatch hskip
    | ok step =>
      rw [hnext] at hskip
      obtain rfl : stream = start := Except.ok.inj hskip
      exact skipsTo_of_blanks_eq_nil hblanks h
  | cons blank blanks ih =>
    cases stream.step with
    | ended hrest hnext => exact nomatch (blanks_of_end hrest).symm.trans hblanks
    | raised element more fault hrest hnext =>
      rw [skipBlanks_of_raised hrest hnext] at h
      exact nomatch h
    | taken element rest hrest hnext hsource hindex =>
      cases hblank : element.isBlank with
      | false => exact nomatch (blanks_of_not_blank hrest hblank).symm.trans hblanks
      | true =>
        rw [skipBlanks_of_blank hrest hnext hblank] at h
        have hfront := blanks_of_blank hrest hblank
        have hbehind := ih h (List.cons.inj (hfront.symm.trans hblanks)).2
        refine ⟨hbehind.source.trans hsource, ?_, ?_, hbehind.blanks, hbehind.again⟩
        · rw [hbehind.index, hindex, hfront, List.length_cons]
          omega
        · rw [hbehind.rest, hrest, List.dropWhile_cons_of_pos hblank]

/-- Under a rule for positions that never raises, white space can be skipped. -/
theorem exists_skipBlanks (htotal : stream.source.Total) :
    ∃ start, stream.skipBlanks = .ok start := by
  induction hblanks : stream.blanks generalizing stream with
  | nil =>
    obtain ⟨step, hnext⟩ := exists_next htotal
    rw [skipBlanks_of_blanks_eq_nil hblanks, hnext]
    exact ⟨stream, rfl⟩
  | cons blank blanks ih =>
    cases hrest : stream.rest.toList with
    | nil => exact nomatch (blanks_of_end hrest).symm.trans hblanks
    | cons element more =>
      obtain ⟨behind, hnext, rfl, hsource, -⟩ := exists_taken htotal hrest
      cases hblank : element.isBlank with
      | false => exact nomatch (blanks_of_not_blank hrest hblank).symm.trans hblanks
      | true =>
        rw [skipBlanks_of_blank hrest hnext hblank]
        rw [blanks_of_blank hrest hblank] at hblanks
        exact ih (hsource ▸ htotal) (List.cons.inj hblanks).2

end Stream

namespace Place

/-- The white space characters at the front of what is left at a place. -/
def blanks : Place → List Value
  | .stream _ s => s.blanks
  | .stray _ => []

/-- The place behind the white space characters. It is the same place if there are none. -/
def skipBlanks : Place → Except Fault Place
  | .stream slot s =>
    s.skipBlanks.map fun start ↦ .stream (if s.blanks = [] then slot else none) start
  | .stray v => .error (lacking v "copy")

variable {place start : Place}

/-- Where white space has been skipped there is none left to skip. -/
theorem skipBlanks_of_skipBlanks (h : place.skipBlanks = .ok start) :
    start.blanks = [] ∧ start.skipBlanks = .ok start := by
  cases place with
  | stray v => exact nomatch h
  | stream slot s =>
    rw [skipBlanks] at h
    cases hskip : s.skipBlanks with
    | error fault =>
      rw [hskip] at h
      exact nomatch h
    | ok behind =>
      rw [hskip] at h
      have hbehind := Stream.skipsTo_of_skipBlanks hskip
      rw [← Except.ok.inj h]
      refine ⟨hbehind.blanks, ?_⟩
      rw [skipBlanks, hbehind.again, if_pos hbehind.blanks]
      rfl

end Place

/-! ### The repetition -/

namespace Parse

open Run (ofExcept)

/-- One white space character. -/
def blank : Parse :=
  element (fun x ↦ .ok x.isBlank) fun x ↦
    .ok ("expecting white space, but got '" ++ x.display ++ "'.")

/-- Null is no white space. -/
theorem ne_null_of_isBlank {x : Value} (h : x.isBlank = true) : x ≠ .null := by
  rintro rfl
  exact absurd h Bool.false_ne_true

/-- An element that is no white space, be it null, makes the matcher give up. -/
theorem blank_of_not_blank (slot : Option Nat) {stream rest : Stream} {found : Value}
    (hnext : stream.next = .ok (found, rest)) (hblank : found.isBlank = false) :
    ∃ text, blank (.stream slot stream) = giveUp (.stream slot stream) text := by
  by_cases hfound : found = .null
  · rw [hfound] at hnext
    exact ⟨_, element_of_null hnext⟩
  · exact ⟨_, element_of_rejected hnext hfound (congrArg Except.ok hblank) rfl⟩

variable {p q : Parse}

/-- A repetition whose parser gives up takes back what that one logged. -/
theorem repeatFrom_of_giveUp {slot : Option Nat} {stream : Stream} {text : String}
    (h : p (.stream slot stream) = giveUp (.stream slot stream) text) (bound : Nat)
    (values : List Value) :
    repeatFrom p (bound + 1) (.stream slot stream) values =
      pure (.success (.stream slot stream) (.list values.reverse)) := by
  ext journal
  have hrollback := journal.rollback_complain ⟨.error, stream.position, text⟩
  have hrun : p (.stream slot stream) journal =
      .done .failure (journal.complain ⟨.error, stream.position, text⟩) := by
    rw [h]
    rfl
  simp only [repeatFrom, Run.bind_apply, Run.mark, hrun, Run.rollback, hrollback]

/-- A repetition of white space skips it, unless its bound is too small. -/
theorem repeatFrom_blank (bound : Nat) : ∀ (slot : Option Nat) (stream : Stream)
    (values : List Value),
    (repeatFrom blank bound (.stream slot stream) values = Run.unfinished ∧
        bound ≤ stream.blanks.length) ∨
      repeatFrom blank bound (.stream slot stream) values =
        ofExcept ((Place.stream slot stream).skipBlanks.map fun start ↦
          Reply.success start (.list (values.reverse ++ stream.blanks))) := by
  induction bound with
  | zero => exact fun _ _ _ ↦ .inl ⟨rfl, Nat.zero_le _⟩
  | succ bound ih =>
    intro slot stream values
    cases stream.step with
    | ended hrest hnext =>
      have hblanks := Stream.blanks_of_end hrest
      refine .inr ((repeatFrom_of_giveUp (element_of_null hnext) bound values).trans ?_)
      rw [Place.skipBlanks, Stream.skipBlanks_of_blanks_eq_nil hblanks, hnext, if_pos hblanks,
        hblanks, List.append_nil]
      rfl
    | raised element more fault hrest hnext =>
      refine .inr ?_
      rw [Place.skipBlanks, Stream.skipBlanks_of_raised hrest hnext, repeatFrom, blank,
        element_of_raised hnext]
      rfl
    | taken element rest hrest hnext _ _ =>
      cases hblank : element.isBlank with
      | true =>
        have hround : repeatFrom blank (bound + 1) (.stream slot stream) values =
            repeatFrom blank bound (.fresh rest) (element :: values) := by
          rw [repeatFrom, blank, element_of_accepted hnext (ne_null_of_isBlank hblank)
            (congrArg Except.ok hblank)]
          rfl
        have hblanks := Stream.blanks_of_blank hrest hblank
        have hskip : (Place.stream slot stream).skipBlanks = (Place.fresh rest).skipBlanks := by
          rw [Place.skipBlanks, Place.skipBlanks, Stream.skipBlanks_of_blank hrest hnext hblank,
            hblanks, ite_self, if_neg (List.cons_ne_nil _ _)]
        rw [hround, hblanks, hskip, List.length_cons]
        rcases ih none rest (element :: values) with ⟨hunfinished, hle⟩ | hdone
        · exact .inl ⟨hunfinished, Nat.succ_le_succ hle⟩
        · refine .inr ?_
          rw [hdone, List.reverse_cons, List.append_assoc, List.singleton_append]
      | false =>
        have hblanks := Stream.blanks_of_not_blank hrest hblank
        obtain ⟨text, hgiveUp⟩ := blank_of_not_blank slot hnext hblank
        refine .inr ((repeatFrom_of_giveUp hgiveUp bound values).trans ?_)
        rw [Place.skipBlanks, Stream.skipBlanks_of_blanks_eq_nil hblanks, hnext, if_pos hblanks,
          hblanks, List.append_nil]
        rfl

theorem many_blank (bound : Nat) (place : Place) :
    (many bound blank place = Run.unfinished ∧ bound ≤ place.blanks.length) ∨
      many bound blank place =
        ofExcept (place.skipBlanks.map fun start ↦ Reply.success start (.list place.blanks)) := by
  cases place with
  | stream slot stream => exact repeatFrom_blank bound slot stream []
  | stray v =>
    cases bound with
    | zero => exact .inl ⟨rfl, Nat.zero_le _⟩
    | succ bound => exact .inr rfl

/-- Once the white space has been skipped, the repetition stays where it is. -/
theorem many_blank_of_skipBlanks {place start : Place} (bound : Nat)
    (hskip : place.skipBlanks = .ok start) :
    many (bound + 1) blank start = pure (.success start (.list [])) := by
  obtain ⟨hblanks, hagain⟩ := Place.skipBlanks_of_skipBlanks hskip
  rcases many_blank (bound + 1) start with ⟨-, hle⟩ | hdone
  · rw [hblanks] at hle
    exact absurd hle (Nat.not_succ_le_zero bound)
  · rw [hdone, hagain, hblanks]
    rfl

/-! ### Skipping twice -/

theorem right_of_success {place rest : Place} {value : Value}
    (h : p place = pure (.success rest value)) (q : Parse) : right p q place = q rest := by
  rw [right, h]
  rfl

/-- White space that has been skipped in front of a parser need not be skipped again. -/
theorem right_right_blank (bound : Nat) (q : Parse) :
    right (many bound blank) (right (many bound blank) q) = right (many bound blank) q := by
  cases bound with
  | zero => rfl
  | succ bound =>
    funext place
    rcases many_blank (bound + 1) place with ⟨hunfinished, -⟩ | hdone
    · rw [right, right, hunfinished]
      rfl
    · cases hskip : place.skipBlanks with
      | error fault =>
        rw [hskip] at hdone
        rw [right, right, hdone]
        rfl
      | ok start =>
        rw [hskip] at hdone
        rw [right_of_success hdone, right_of_success hdone,
          right_of_success (many_blank_of_skipBlanks bound hskip)]

/-- White space is skipped behind a reply, which keeps its value. -/
def skipBehind (bound : Nat) (first : Reply) : Run Reply :=
  whenSuccess first fun first ↦ do
    whenSuccess (← many bound blank (← ofExcept first.first)) fun second ↦
      return .success (← ofExcept second.first) (← ofExcept first.second)

theorem left_many_blank (bound : Nat) (q : Parse) (place : Place) :
    left q (many bound blank) place = q place >>= skipBehind bound :=
  rfl

/-- Behind a success, skipping moves the place on. -/
theorem skipBehind_success (bound : Nat) (rest : Place) (value : Value) :
    (skipBehind bound (.success rest value) = Run.unfinished ∧ bound ≤ rest.blanks.length) ∨
      skipBehind bound (.success rest value) =
        ofExcept (rest.skipBlanks.map (Reply.success · value)) := by
  have hskip : skipBehind bound (.success rest value) =
      many bound blank rest >>= fun second ↦ whenSuccess second fun second ↦ do
        return .success (← ofExcept second.first) value :=
    rfl
  rcases many_blank bound rest with ⟨hunfinished, hle⟩ | hdone
  · refine .inl ⟨?_, hle⟩
    rw [hskip, hunfinished]
    rfl
  · refine .inr ?_
    rw [hskip, hdone]
    cases rest.skipBlanks <;> rfl

/-- An answer that is no reply leaves no stream on which white space could be skipped. -/
theorem skipBehind_malformed (bound : Nat) (v : Value) :
    ∃ fault, skipBehind (bound + 1) (.malformed v) = Run.fault fault := by
  have hskip : skipBehind (bound + 1) (.malformed v) =
      ofExcept ((v.at? 0).map Place.stray) >>= fun rest ↦
        many (bound + 1) blank rest >>= fun second ↦ whenSuccess second fun second ↦ do
          return .success (← ofExcept second.first) (← ofExcept (Reply.malformed v).second) :=
    rfl
  rw [hskip]
  cases v.at? 0 with
  | error fault => exact ⟨fault, rfl⟩
  | ok w => exact ⟨Place.lacking w "copy", rfl⟩

theorem skipBehind_bind_skipBehind (bound : Nat) (first : Reply) :
    skipBehind (bound + 1) first >>= skipBehind (bound + 1) = skipBehind (bound + 1) first := by
  cases first with
  | failure => rfl
  | malformed v =>
    obtain ⟨fault, hfault⟩ := skipBehind_malformed bound v
    rw [hfault]
    rfl
  | success rest value =>
    rcases skipBehind_success (bound + 1) rest value with ⟨hunfinished, -⟩ | hdone
    · rw [hunfinished]
      rfl
    · cases hskip : rest.skipBlanks with
      | error fault =>
        rw [hdone, hskip]
        rfl
      | ok last =>
        obtain ⟨hblanks, hagain⟩ := Place.skipBlanks_of_skipBlanks hskip
        have hlast : skipBehind (bound + 1) (.success last value) = pure (.success last value) := by
          rcases skipBehind_success (bound + 1) last value with ⟨-, hle⟩ | hlast
          · rw [hblanks] at hle
            exact absurd hle (Nat.not_succ_le_zero bound)
          · rw [hlast, hagain]
            rfl
        rw [hdone, hskip]
        exact hlast

/-- White space that has been skipped behind a parser need not be skipped again. -/
theorem left_left_blank (bound : Nat) (q : Parse) :
    left (left q (many (bound + 1) blank)) (many (bound + 1) blank) =
      left q (many (bound + 1) blank) := by
  funext place
  rw [left_many_blank, left_many_blank, bind_assoc]
  exact bind_congr (skipBehind_bind_skipBehind bound)

/-- To skip white space around a parser twice is to skip it once. -/
theorem mid_mid_blank (bound : Nat) (p : Parse) :
    mid (many bound blank) (mid (many bound blank) p (many bound blank)) (many bound blank) =
      mid (many bound blank) p (many bound blank) := by
  cases bound with
  | zero => rfl
  | succ bound =>
    rw [mid_eq_right _ (mid _ p _), mid_eq_left _ p, left_left_blank, ← mid_eq_left, mid_eq_right,
      right_right_blank]

/-! ### Values that are dropped -/

/-- A parser whose value is dropped can change it. -/
theorem right_map {f : Value → Call Value} {g : Value → Value} (hp : Proper p)
    (hf : ∀ v, f v = .pure (g v)) (q : Parse) : right (map p f) q = right p q := by
  rw [right_eq (proper_map p f), right_eq hp, map, andThen_andThen]
  simp [hf]

theorem left_map {f : Value → Call Value} {g : Value → Value} (hp : Proper p)
    (hf : ∀ v, f v = .pure (g v)) (q : Parse) : left q (map p f) = left q p := by
  have hmap (middle : Place) (next : Reply → Run Reply)
      (hnext : ∀ rest value value', next (.success rest value) = next (.success rest value')) :
      map p f middle >>= next = p middle >>= next := by
    rw [map, andThen_apply, bind_assoc]
    refine (hp middle).bind_congr fun reply hreply ↦ ?_
    cases reply with
    | failure => rfl
    | malformed v => exact hreply.elim
    | success rest value =>
      rw [follow_success, hf]
      exact hnext rest (g value) value
  funext place
  refine bind_congr fun first ↦ ?_
  cases first with
  | failure => rfl
  | success rest value => exact hmap rest _ fun _ _ _ ↦ rfl
  | malformed v => exact bind_congr fun rest ↦ hmap rest _ fun _ _ _ ↦ rfl

end Parse

/-! ### How a trimmed parser ends -/

/-- A run that is a computation without a journal, once its bound is large enough. -/
theorem Run.endsWith_of_eq_ofExcept {α : Type} {run : Nat → Run α} (hrun : Growing run)
    {bound : Nat} {outcome : Except Fault α} (h : run bound = ofExcept outcome) {log : Log}
    {ending : Except Fault α × Log} : EndsWith run log ending ↔ ending = (outcome, log) := by
  have hrunEnds : (run bound ⟨log, #[], ∅⟩).ending? = some (outcome, log) := by
    rw [h]
    cases outcome <;> rfl
  exact (hrun.endsWith hrunEnds : EndsWith run log (outcome, log)).iff_eq hrun

namespace Grammar

open Run (ofExcept)

variable {definitions : Definitions} {scope : Scope} {p q : Grammar} {place start : Place}
  {log log' : Log} {reply : Reply} {ending : Except Fault Reply × Log}

theorem growing_many_blank (place : Place) :
    Run.Growing fun bound ↦ Parse.many bound Parse.blank place := by
  have hblank : Parse.blank.Approximates Parse.blank :=
    Run.approximates_congruence.element _ _
  exact fun _ _ hle ↦ Run.approximates_congruence.many (Run.withinBounds_of_le hle) hblank place

/-- A repetition of white space skips it and leaves the log alone. -/
theorem endsWith_many_space :
    (many space).EndsWith definitions scope place log ending ↔
      ending =
        (place.skipBlanks.map fun start ↦ Reply.success start (.list place.blanks), log) := by
  rw [endsWith_eval_succ]
  rcases Parse.many_blank (place.blanks.length + 1) place with ⟨-, hle⟩ | hdone
  · exact absurd hle (Nat.not_succ_le_self _)
  · exact (Run.endsWith_succ (growing_many_blank place)).trans
      (Run.endsWith_of_eq_ofExcept (growing_many_blank place) hdone)

/-- White space in front is skipped, and then the grammar is run. -/
theorem endsWith_right_space :
    (right (many space) q).EndsWith definitions scope place log ending ↔
      match place.skipBlanks with
      | .error fault => ending = (.error fault, log)
      | .ok start => q.EndsWith definitions scope start log ending := by
  have hnext (reply : Reply) : Run.Growing (fun bound ↦ Parse.whenSuccess reply fun first ↦ do
      q.eval definitions (bound + 1) scope (← ofExcept first.first)) := by
    cases reply with
    | failure => exact growing_pure _
    | _ =>
      exact (Run.growing_const (Run.approximates_ofExcept _)).bind fun middle ↦
        (growing_eval definitions scope q middle).succ
  have hsuccess (start : Place) (value : Value) (bound : Nat) :
      (Parse.whenSuccess (.success start value) fun first ↦ do
        q.eval definitions (bound + 1) scope (← ofExcept first.first)) =
          q.eval definitions (bound + 1) scope start :=
    rfl
  refine endsWith_eval_succ.trans ((Run.endsWith_bind
    (growing_eval definitions scope (many space) place).succ hnext).trans ?_)
  simp only [← endsWith_eval_succ, endsWith_many_space]
  cases place.skipBlanks <;> simp [Except.map, and_assoc, hsuccess, ← endsWith_eval_succ]

theorem growing_skipBehind (reply : Reply) :
    Run.Growing fun bound ↦ Parse.skipBehind bound reply := by
  have hlast (value second : Reply) : Run.Growing (fun _ ↦
      Parse.whenSuccess second fun second ↦ do
        return .success (← ofExcept second.first) (← ofExcept value.second)) := by
    cases second with
    | failure => exact growing_pure _
    | _ =>
      exact Run.growing_const ((Run.approximates_ofExcept _).bind fun _ ↦
        (Run.approximates_ofExcept _).bind fun _ ↦ Run.approximates_pure _)
  cases reply with
  | failure => exact growing_pure _
  | _ =>
    exact (Run.growing_const (Run.approximates_ofExcept _)).bind fun middle ↦
      (growing_many_blank middle).bind (hlast _)

/-- Without a fault, a grammar with white space behind it fails as it does by itself, or succeeds
with its value where white space has been skipped. -/
theorem endsWith_left_space :
    (left p (many space)).EndsWith definitions scope place log (.ok reply, log') ↔
      (reply = .failure ∧ p.Fails definitions scope place log log') ∨
        ∃ value rest last,
          p.EndsWith definitions scope place log (.ok (.success rest value), log') ∧
            rest.skipBlanks = .ok last ∧ reply = .success last value := by
  have hsuccess (rest : Place) (value : Value) {log : Log} {ending : Except Fault Reply × Log} :
      Run.EndsWith (fun bound ↦ Parse.skipBehind bound (.success rest value)) log ending ↔
        ending = (rest.skipBlanks.map (Reply.success · value), log) := by
    rcases Parse.skipBehind_success (rest.blanks.length + 1) rest value with ⟨-, hle⟩ | hdone
    · exact absurd hle (Nat.not_succ_le_self _)
    · exact Run.endsWith_of_eq_ofExcept (growing_skipBehind _) hdone
  have hmalformed (v : Value) {log : Log} :
      ¬Run.EndsWith (fun bound ↦ Parse.skipBehind bound (.malformed v)) log (.ok reply, log') := by
    obtain ⟨fault, hfault⟩ := Parse.skipBehind_malformed 0 v
    have hraised : Parse.skipBehind 1 (.malformed v) = ofExcept (.error fault) := hfault
    rw [Run.endsWith_of_eq_ofExcept (growing_skipBehind _) hraised]
    exact nofun
  have hbehind (reply : Reply) {log : Log} {ending : Except Fault Reply × Log} :
      Run.EndsWith (fun bound ↦ Parse.skipBehind (bound + 1) reply) log ending ↔
        Run.EndsWith (fun bound ↦ Parse.skipBehind bound reply) log ending :=
    Run.endsWith_succ (growing_skipBehind reply)
  refine endsWith_eval_succ.trans ((Run.endsWith_bind (growing_eval definitions scope p place).succ
    fun reply ↦ (growing_skipBehind reply).succ).trans ?_)
  simp only [← endsWith_eval_succ, hbehind]
  constructor
  · rintro (⟨fault, middle, -, heq⟩ | ⟨first, middle, hends, hlast⟩)
    · exact nomatch heq
    · cases first with
      | malformed v => exact (hmalformed v hlast).elim
      | failure =>
        obtain ⟨hreply, rfl⟩ := Prod.mk.inj ((Run.endsWith_pure Reply.failure).mp hlast)
        exact .inl ⟨Except.ok.inj hreply, hends⟩
      | success rest value =>
        obtain ⟨hreply, rfl⟩ := Prod.mk.inj ((hsuccess rest value).mp hlast)
        cases hskip : rest.skipBlanks with
        | error fault =>
          rw [hskip] at hreply
          exact nomatch hreply
        | ok last =>
          rw [hskip] at hreply
          exact .inr ⟨value, rest, last, hends, hskip, Except.ok.inj hreply⟩
  · rintro (⟨rfl, hfails⟩ | ⟨value, rest, last, hends, hskip, rfl⟩)
    · exact .inr ⟨.failure, log', hfails, (Run.endsWith_pure Reply.failure).mpr rfl⟩
    · refine .inr ⟨.success rest value, log', hends, (hsuccess rest value).mpr ?_⟩
      rw [hskip]
      rfl

/-- Where white space has been skipped there is no white space character, and a matcher of one
fails. -/
theorem fails_space_of_skipBlanks (hskip : place.skipBlanks = .ok start) :
    ∃ log', space.Fails definitions scope start log log' := by
  obtain ⟨hblanks, hagain⟩ := Place.skipBlanks_of_skipBlanks hskip
  cases start with
  | stray v => exact nomatch hagain
  | stream slot stream =>
    cases stream.step with
    | ended hrest hnext => exact ⟨_, fails_element_of_null hnext⟩
    | raised element more fault hrest hnext =>
      rw [Place.skipBlanks, Stream.skipBlanks_of_raised hrest hnext] at hagain
      exact nomatch hagain
    | taken element rest hrest hnext _ _ =>
      cases hblank : element.isBlank with
      | true =>
        have hfront : stream.blanks = element :: rest.blanks :=
          Stream.blanks_of_blank hrest hblank
        exact nomatch hfront.symm.trans hblanks
      | false =>
        obtain ⟨text, hgiveUp⟩ := Parse.blank_of_not_blank slot hnext hblank
        exact ⟨_, fails_of_giveUp fun _ ↦ hgiveUp⟩

theorem eval_trim (definitions : Definitions) (bound : Nat) (scope : Scope) (p : Grammar) :
    (trim p).eval definitions (bound + 1) scope =
      Parse.mid (Parse.many (bound + 1) Parse.blank) (p.eval definitions (bound + 1) scope)
        (Parse.many (bound + 1) Parse.blank) :=
  rfl

theorem sameEnds_trim_trim (definitions : Definitions) (scope : Scope) (p : Grammar) :
    SameEnds definitions scope (trim (trim p)) definitions scope (trim p) := by
  refine .of_eval_eq fun bound ↦ ?_
  cases bound with
  | zero => rfl
  | succ bound =>
    rw [eval_trim, eval_trim]
    exact Parse.mid_mid_blank (bound + 1) _

/-- Trimming is white space in front of the parser with white space behind it. -/
theorem sameEnds_trim_right (definitions : Definitions) (scope : Scope) (p : Grammar) :
    SameEnds definitions scope (trim p) definitions scope
      (right (many space) (left p (many space))) := by
  refine .of_eval_eq fun bound ↦ ?_
  cases bound with
  | zero => rfl
  | succ bound => exact Parse.mid_eq_right _ _ _

/-- The value of the white space in front makes no difference. -/
theorem sameEnds_right_spaces (definitions : Definitions) (scope : Scope) (q : Grammar) :
    SameEnds definitions scope (right spaces q) definitions scope (right (many space) q) := by
  refine .of_eval_eq fun bound ↦ ?_
  cases bound with
  | zero => rfl
  | succ bound => exact Parse.right_map (Parse.proper_many _ _) (g := fun _ ↦ .null) (fun _ ↦ rfl) _

theorem sameEnds_left_spaces (definitions : Definitions) (scope : Scope) (p : Grammar) :
    SameEnds definitions scope (left p spaces) definitions scope (left p (many space)) := by
  refine .of_eval_eq fun bound ↦ ?_
  cases bound with
  | zero => rfl
  | succ bound => exact Parse.left_map (Parse.proper_many _ _) (g := fun _ ↦ .null) (fun _ ↦ rfl) _

theorem sameEnds_trim_spaces (definitions : Definitions) (scope : Scope) (p : Grammar) :
    SameEnds definitions scope (trim p) definitions scope (right spaces (left p spaces)) := by
  intro place log ending
  rw [sameEnds_trim_right definitions scope p, sameEnds_right_spaces definitions scope,
    endsWith_right_space, endsWith_right_space]
  cases place.skipBlanks with
  | error fault => rfl
  | ok start => exact (sameEnds_left_spaces definitions scope p start log ending).symm

/-- Trimming is idempotent and exact. A trimmed parser that is trimmed comes to the same ends as the
trimmed one, and that one to the same ends as the parser with `spaces` in front and behind. Skipping
white space ends at the first element that is no white space, or at the end. The trimmed parser does
what the parser does where this has been done at the front, and ends where it has been done behind.
This is so for any grammar in any scope. -/
theorem trim_skips (definitions : Definitions) (scope : Scope) (p : Grammar) :
    SameEnds definitions scope (trim (trim p)) definitions scope (trim p) ∧
      SameEnds definitions scope (trim p) definitions scope (right spaces (left p spaces)) ∧
      (∀ stream : Stream, (stream.source.Total → ∃ start, stream.skipBlanks = .ok start) ∧
        ∀ start, stream.skipBlanks = .ok start → start.source = stream.source ∧
          start.index = stream.index + stream.blanks.length ∧
            start.rest.toList = stream.rest.toList.dropWhile Value.isBlank) ∧
      (∀ place log fault, place.skipBlanks = .error fault →
        ∀ ending, (trim p).EndsWith definitions scope place log ending ↔
          ending = (.error fault, log)) ∧
      ∀ place log start, place.skipBlanks = .ok start →
        (∀ ending, (trim p).EndsWith definitions scope place log ending ↔
          (left p spaces).EndsWith definitions scope start log ending) ∧
        ∀ reply log', (trim p).EndsWith definitions scope place log (.ok reply, log') ↔
          (reply = .failure ∧ p.Fails definitions scope start log log') ∨
            ∃ value rest last,
              p.EndsWith definitions scope start log (.ok (.success rest value), log') ∧
                rest.skipBlanks = .ok last ∧ reply = .success last value ∧
                  ∃ log'', space.Fails definitions scope last log' log'' := by
  have hleft := sameEnds_left_spaces definitions scope p
  have hright := sameEnds_trim_right definitions scope p
  refine ⟨sameEnds_trim_trim definitions scope p, sameEnds_trim_spaces definitions scope p,
    fun stream ↦ ⟨Stream.exists_skipBlanks, fun start hskip ↦ ?_⟩,
    fun place log fault hskip ending ↦ ?_, fun place log start hskip ↦ ⟨fun ending ↦ ?_,
      fun reply log' ↦ ?_⟩⟩
  · have hbehind := Stream.skipsTo_of_skipBlanks hskip
    exact ⟨hbehind.source, hbehind.index, hbehind.rest⟩
  · rw [hright, endsWith_right_space, hskip]
  · rw [hright, endsWith_right_space, hskip, hleft]
  · rw [hright, endsWith_right_space, hskip]
    refine endsWith_left_space.trans (or_congr_right ?_)
    constructor
    · rintro ⟨value, rest, last, hends, hlast, rfl⟩
      exact ⟨value, rest, last, hends, hlast, rfl, fails_space_of_skipBlanks hlast⟩
    · rintro ⟨value, rest, last, hends, hlast, rfl, -⟩
      exact ⟨value, rest, last, hends, hlast, rfl⟩

/-- A word between white space of all kinds, in front of another word. -/
theorem trim_skips_word :
    let source : Source := .text " \n\tab\r c".toList.toArray
    let start : Place := .fresh ⟨source, 3, ⟨1, 1⟩⟩
    let last : Place := .fresh ⟨source, 7, ⟨1, 5⟩⟩
    (Place.fresh (.start source)).skipBlanks = .ok start ∧
      (trim (trim (literal (.text "ab")))).EndsWith .none .top (.fresh (.start source)) .empty
        (.ok (.success last (.text "ab")), .empty) ∧
      ∃ log, space.Fails .none .top last .empty log := by
  intro source start last
  obtain ⟨htwice, -, -, -, hskips⟩ := trim_skips .none .top (literal (.text "ab"))
  have hskip : (Place.fresh (.start source)).skipBlanks = .ok start := rfl
  obtain ⟨-, hends⟩ := hskips _ .empty start hskip
  have hword : (literal (.text "ab")).EndsWith .none .top start .empty
      (.ok (.success (.fresh ⟨source, 5, ⟨1, 3⟩⟩) (.text "ab")), .empty) :=
    endsWith_of_eval 1 .empty rfl
  have hfails : ∃ log, space.Fails .none .top last .empty log :=
    ⟨_, endsWith_of_eval 1 .empty rfl⟩
  refine ⟨hskip, (htwice _ _ _).mpr ((hends _ _).mpr (.inr ?_)), hfails⟩
  exact ⟨_, _, last, hword, rfl, rfl, hfails⟩

end Grammar

end DiagnosticParsing
