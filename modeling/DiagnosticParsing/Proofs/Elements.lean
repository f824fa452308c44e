import DiagnosticParsing.Proofs.Endings.Parsers
import DiagnosticParsing.Proofs.MessagePositions
import DiagnosticParsing.Proofs.RemainingInput

/-!
# Matchers of one element

A step of a stream finds nothing left, or takes the first element of what is left, or raises because
the rule for positions does (`Stream.Step`). What a matcher of one element does is decided by this
step. If the rule for positions raises, so does the matcher. If the step finds null, which also
stands for the end of the input, or an element that does not pass the test, the matcher gives up and
logs one error at the place where it started. Otherwise it succeeds with the element.

The cases are stated once for the runs themselves, as equations between parse functions at a place
(`Parse.element_of_accepted` and its neighbours), and once as what a grammar gives or how it fails
(`Grammar.gives_element`, `Grammar.fails_element`).
-/

set_option autoImplicit false

namespace DiagnosticParsing

/-! ### Steps by what is left -/

namespace Stream

/-- What the next step of a stream comes to, by the elements that are left. -/
inductive Step (stream : Stream) : Prop where
  /-- Nothing is left, and the step finds null. -/
  | ended (hrest : stream.rest.toList = []) (hnext : stream.next = .ok (.null, stream))
  /-- The rule for positions raises at the first element left. -/
  | raised (element : Value) (more : List Value) (fault : Fault)
      (hrest : stream.rest.toList = element :: more) (hnext : stream.next = .error fault)
  /-- The first element left is taken. -/
  | taken (element : Value) (behind : Stream)
      (hrest : stream.rest.toList = element :: behind.rest.toList)
      (hnext : stream.next = .ok (element, behind)) (hsource : behind.source = stream.source)
      (hindex : behind.index = stream.index + 1)

theorem step (stream : Stream) : stream.Step := by
  cases hcurrent : stream.current? with
  | none =>
    refine .ended ?_ (by rw [next, hcurrent])
    rw [rest, Sequence.toList_drop]
    refine List.drop_eq_nil_of_le ?_
    rw [Sequence.length_toList]
    exact current?_eq_none_iff.mp hcurrent
  | some element =>
    have hrest : stream.rest.toList = element :: stream.data.toList.drop (stream.index + 1) := by
      rw [current?, ← Sequence.getElem?_toList] at hcurrent
      obtain ⟨hlt, helement⟩ := List.getElem?_eq_some_iff.mp hcurrent
      rw [rest, Sequence.toList_drop, List.drop_eq_getElem_cons hlt, helement]
    cases hadvance : stream.source.advance stream.position element with
    | error fault =>
      refine .raised element _ fault hrest ?_
      simp only [next, hcurrent, hadvance, Except.map]
    | ok position =>
      refine .taken element ⟨stream.source, stream.index + 1, position⟩ ?_ ?_ rfl rfl
      · rw [hrest, rest, Sequence.toList_drop]
        rfl
      · simp only [next, hcurrent, hadvance, Except.map]

/-- Under a rule for positions that never raises, every step can be taken. -/
theorem exists_next {stream : Stream} (htotal : stream.source.Total) :
    ∃ step, stream.next = .ok step := by
  cases hcurrent : stream.current? with
  | none => exact ⟨_, by rw [next, hcurrent]⟩
  | some element =>
    obtain ⟨position, hposition⟩ := htotal stream.position element
    refine ⟨(element, ⟨stream.source, stream.index + 1, position⟩), ?_⟩
    simp only [next, hcurrent, hposition, Except.map]

/-- Under such a rule, the first element left is taken. -/
theorem exists_taken {stream : Stream} {element : Value} {more : List Value}
    (htotal : stream.source.Total) (hrest : stream.rest.toList = element :: more) :
    ∃ behind, stream.next = .ok (element, behind) ∧ behind.rest.toList = more ∧
      behind.source = stream.source ∧ behind.index = stream.index + 1 := by
  cases stream.step with
  | ended hend _ => exact nomatch hend.symm.trans hrest
  | raised _ _ fault _ hnext =>
    obtain ⟨step, hstep⟩ := exists_next htotal
    exact nomatch hstep.symm.trans hnext
  | taken found behind htaken hnext hsource hindex =>
    obtain ⟨rfl, hbehind⟩ := List.cons.inj (htaken.symm.trans hrest)
    exact ⟨behind, hnext, hbehind, hsource, hindex⟩

theorem next_of_end {stream : Stream} (hrest : stream.rest.toList = []) :
    stream.next = .ok (.null, stream) := by
  cases stream.step with
  | ended _ hnext => exact hnext
  | raised _ _ _ htaken _ => exact nomatch hrest.symm.trans htaken
  | taken _ _ htaken _ _ _ => exact nomatch hrest.symm.trans htaken

end Stream

/-! ### Matchers -/

namespace Parse

variable {test : Value → Except Fault Bool} {describe : Value → Except Fault String}
  {slot : Option Nat} {stream rest : Stream} {found : Value} {text : String}

theorem element_of_raised {fault : Fault} (hnext : stream.next = .error fault) :
    element test describe (.stream slot stream) = Run.fault fault := by
  ext journal
  simp only [element, Place.stream?, Run.ofExcept_ok_bind, hnext]
  rfl

theorem element_of_null (hnext : stream.next = .ok (.null, rest)) :
    element test describe (.stream slot stream) = giveUp (.stream slot stream) endOfInput := by
  simp only [element, Place.stream?, Run.ofExcept_ok_bind, hnext]

theorem element_of_accepted (hnext : stream.next = .ok (found, rest)) (hfound : found ≠ .null)
    (htest : test found = .ok true) :
    element test describe (.stream slot stream) = pure (.success (.fresh rest) found) := by
  simp only [element, Place.stream?, Run.ofExcept_ok_bind, hnext, htest, if_true]

theorem element_of_rejected (hnext : stream.next = .ok (found, rest)) (hfound : found ≠ .null)
    (htest : test found = .ok false) (htext : describe found = .ok text) :
    element test describe (.stream slot stream) = giveUp (.stream slot stream) text := by
  simp only [element, Place.stream?, Run.ofExcept_ok_bind, hnext, htest, htext,
    Bool.false_eq_true, if_false]

end Parse

namespace Grammar

variable {definitions : Definitions} {scope : Scope} {p : Grammar}
  {test : Value → Except Fault Bool} {describe : Value → Except Fault String}
  {slot : Option Nat} {stream rest : Stream} {found : Value} {text : String} {log : Log}

/-- A grammar that gives up with every bound fails, and has logged one error. -/
theorem fails_of_giveUp
    (h : ∀ bound, p.eval definitions (bound + 1) scope (.stream slot stream) =
      Parse.giveUp (.stream slot stream) text) :
    p.Fails definitions scope (.stream slot stream) log
      (log.add ⟨.error, stream.position, text⟩) := by
  refine endsWith_of_eval 1 ⟨log, #[], ∅⟩ ?_
  rw [h]
  rfl

theorem gives_element (hnext : stream.next = .ok (found, rest)) (hfound : found ≠ .null)
    (htest : test found = .ok true) :
    (element test describe).Gives definitions scope (.stream slot stream) log found (.fresh rest)
      log := by
  refine ⟨.success (.fresh rest) found, endsWith_of_eval 1 ⟨log, #[], ∅⟩ ?_, rfl⟩
  have heval : (element test describe).eval definitions 1 scope (.stream slot stream) =
      pure (.success (.fresh rest) found) :=
    Parse.element_of_accepted hnext hfound htest
  rw [heval]
  rfl

theorem fails_element_of_null (hnext : stream.next = .ok (.null, rest)) :
    (element test describe).Fails definitions scope (.stream slot stream) log
      (log.add ⟨.error, stream.position, Parse.endOfInput⟩) :=
  fails_of_giveUp fun _ ↦ Parse.element_of_null hnext

theorem fails_element (hnext : stream.next = .ok (found, rest)) (hfound : found ≠ .null)
    (htest : test found = .ok false) (htext : describe found = .ok text) :
    (element test describe).Fails definitions scope (.stream slot stream) log
      (log.add ⟨.error, stream.position, text⟩) :=
  fails_of_giveUp fun _ ↦ Parse.element_of_rejected hnext hfound htest htext

end Grammar

end DiagnosticParsing
