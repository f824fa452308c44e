import DiagnosticParsing.Grammar.Characters
import DiagnosticParsing.Proofs.Erasure

/-!
# Only what is left of the input counts

A parser that starts in the middle of a sequence does what it does at the start of the part that is
left: it ends in the same way, and says the same. What has been consumed before shows in the
indices, which differ by its length, and in the positions, if the two parsers start with different
ones (`Stream.Shifted`).

Two constructors are left out (`Grammar.ReadsRest`): a pattern sees the text before the place where
it is tried, and a parse function written by hand may do anything. An observer is shown the stream
and has to come to the same whatever has been consumed, as one that raises nothing does
(`Grammar.OnlyWatches.overlooksConsumed`). Every other way of building a parser keeps the
correspondence `Correspondence.shift`, by the laws of
`DiagnosticParsing.Proofs.Correspondence.Parsers`, and the conclusion `Grammar.eval_rest` follows by
`Correspondence.hereditary`.
-/

set_option autoImplicit false

namespace DiagnosticParsing

/-! ### Parts of sequences and sources -/

namespace Sequence

theorem size_drop (sequence : Sequence) (count : Nat) :
    (sequence.drop count).size = sequence.size - count := by
  rw [← length_toList, toList_drop, List.length_drop, length_toList]

theorem get?_drop (sequence : Sequence) (count index : Nat) :
    (sequence.drop count).get? index = sequence.get? (count + index) := by
  rw [← getElem?_toList, toList_drop, List.getElem?_drop, getElem?_toList]

end Sequence

namespace Source

/-- The source without its first elements. -/
def drop (source : Source) (count : Nat) : Source :=
  match source with
  | .text chars => .text (chars.extract count chars.size)
  | .tokens data advance => .tokens (data.drop count) advance
  | .minimal chars => .minimal (chars.extract count chars.size)

@[simp]
theorem data_drop (source : Source) (count : Nat) :
    (source.drop count).data = source.data.drop count := by
  cases source <;> rfl

@[simp]
theorem advance_drop (source : Source) (count : Nat) :
    (source.drop count).advance = source.advance := by
  cases source <;> rfl

/-- The rule for positions never raises. -/
def Total (source : Source) : Prop :=
  ∀ position element, ∃ next, source.advance position element = .ok next

end Source

/-! ### Streams with the same rest -/

/-- A stream over a source, and one over the source without its first elements that has the same
elements left. The positions are the same too if the streams are aligned. -/
structure Stream.Shifted (source : Source) (count : Nat) (aligned : Prop) (s s' : Stream) :
    Prop where
  source_eq : s.source = source
  source_eq' : s'.source = source.drop count
  index_eq : s.index = s'.index + count
  position_eq : aligned → s.position = s'.position

namespace Stream.Shifted

variable {source : Source} {count : Nat} {aligned : Prop} {s s' : Stream}

theorem isEmpty_eq (hcount : count ≤ source.data.size) (h : Shifted source count aligned s s') :
    s.isEmpty = s'.isEmpty := by
  have hremaining : s.remaining = s'.remaining := by
    rw [remaining, remaining, data, data, h.source_eq, h.source_eq', h.index_eq, Source.data_drop,
      Sequence.size_drop]
    omega
  rw [isEmpty, isEmpty, hremaining]

theorem current?_eq (h : Shifted source count aligned s s') : s.current? = s'.current? := by
  rw [current?, current?, data, data, h.source_eq, h.source_eq', h.index_eq, Source.data_drop,
    Sequence.get?_drop, Nat.add_comm]

/-- Streams with the same rest have the same rest behind the next element. -/
theorem next (htotal : source.Total) (h : Shifted source count aligned s s') :
    ∃ element rest rest', s.next = .ok (element, rest) ∧ s'.next = .ok (element, rest') ∧
      Shifted source count aligned rest rest' := by
  simp only [Stream.next, h.current?_eq]
  cases s'.current? with
  | none => exact ⟨.null, s, s', rfl, rfl, h⟩
  | some element =>
    obtain ⟨position, hposition⟩ := htotal s.position element
    obtain ⟨position', hposition'⟩ := htotal s'.position element
    refine ⟨element, ⟨source, s.index + 1, position⟩, ⟨source.drop count, s'.index + 1, position'⟩,
      ?_, ?_, rfl, rfl, ?_, fun haligned ↦ ?_⟩
    · simp only [h.source_eq, hposition, Except.map]
    · simp only [h.source_eq', Source.advance_drop, hposition', Except.map]
    · have hindex := h.index_eq
      change s.index + 1 = s'.index + 1 + count
      omega
    · rw [h.position_eq haligned, hposition'] at hposition
      exact (Except.ok.inj hposition).symm

end Stream.Shifted

/-- What a message says, whatever place it is about. -/
def Message.wording (message : Message) : Severity × String :=
  (message.severity, message.text)

namespace Correspondence

/-- Streams go together when they have the same rest, and messages when they say the same, about the
same positions if the streams are aligned. -/
def shift {source : Source} {count : Nat} (aligned : Prop) (hcount : count ≤ source.data.size)
    (htotal : source.Total) : Correspondence where
  streams := Stream.Shifted source count aligned
  messages added added' :=
    added.map Message.wording = added'.map Message.wording ∧ (aligned → added = added')
  pardons _ := False
  endless := True
  isEmpty_eq := fun h ↦ h.isEmpty_eq hcount
  next := fun h ↦ .inr (h.next htotal)
  silence := ⟨rfl, fun _ ↦ rfl⟩
  append := by
    intro added added' more more' hadded hmore
    refine ⟨?_, fun haligned ↦ ?_⟩
    · rw [List.map_append, List.map_append, hadded.1, hmore.1]
    · rw [hadded.2 haligned, hmore.2 haligned]
  message := fun h severity text ↦ ⟨rfl, fun haligned ↦ by rw [h.position_eq haligned]⟩

end Correspondence

/-! ### Grammars -/

namespace Grammar

/-- An observer that comes to the same whatever has been consumed. -/
def OverlooksConsumed (observe : Place → Reply → Call Unit) : Prop :=
  ∀ source count aligned place place' reply reply',
    place.Related (Stream.Shifted source count aligned) place' →
      reply.Related (Stream.Shifted source count aligned) reply' →
        (observe place reply).outcome = (observe place' reply').outcome

theorem OnlyWatches.overlooksConsumed {observe : Place → Reply → Call Unit}
    (h : OnlyWatches observe) : OverlooksConsumed observe := by
  intro source count aligned place place' reply reply' hplace hreply
  obtain ⟨hfirst, hsecond⟩ := h.outcome_eq hplace hreply
  rw [hfirst, hsecond]

/-- The grammar itself sees nothing of what has been consumed. -/
def ReadsRest : Grammar → Prop
  | .regex _ => False
  | .reply _ => False
  | .inspect _ observe => OverlooksConsumed observe
  | _ => True

open Correspondence

variable {source : Source} {count : Nat} {aligned : Prop}

/-- Every parser that sees nothing of what has been consumed does the same on streams with the same
rest. -/
theorem shift_hereditary (hcount : count ≤ source.data.size) (htotal : source.Total) :
    Hereditary ReadsRest (shift aligned hcount htotal).Related :=
  hereditary trivial (fun _ h ↦ h.elim) (fun _ h ↦ h.elim) fun _ _ h ↦
    h source count aligned _ _ _ _

/-- A parse depends only on what is left of the input. Started behind some elements of a sequence or
at the start of the rest of it, a grammar ends in the same way, with indices apart by the number of
those elements, and says the same in the same order, about the same positions if it starts with the
same one. Assumes: a grammar and definitions that see nothing of what has been consumed, and a rule
for positions that never raises. -/
theorem eval_rest {definitions : Definitions} {p : Grammar} (hp : p.Everywhere ReadsRest)
    (hdefinitions : definitions.Everywhere ReadsRest) (htotal : source.Total)
    (hcount : count ≤ source.data.size) (bound : Nat) (slot : Option Nat)
    (position position' : Position) (log : Log) (notes notes' : Array Note)
    (memory memory' : Memory) :
    let whole := p.eval definitions bound .top (.stream slot ⟨source, count, position⟩)
      ⟨log, notes, memory⟩
    let cut := p.eval definitions bound .top (.stream slot ⟨source.drop count, 0, position'⟩)
      ⟨log, notes', memory'⟩
    ((whole.result? = none ∧ cut.result? = none) ∨
      (∃ fault, whole.result? = some (.error fault) ∧ cut.result? = some (.error fault)) ∨
      (whole.result? = some (.ok .failure) ∧ cut.result? = some (.ok .failure)) ∨
      ∃ slot rest rest' value, whole.result? = some (.ok (.success (.stream slot rest) value)) ∧
        cut.result? = some (.ok (.success (.stream slot rest') value)) ∧
        rest.Shifted source count (position = position') rest') ∧
      whole.messages.map Message.wording = cut.messages.map Message.wording ∧
      (position = position' → whole.messages = cut.messages) := by
  intro whole cut
  have hstart : Stream.Shifted source count (position = position') ⟨source, count, position⟩
      ⟨source.drop count, 0, position'⟩ :=
    ⟨rfl, rfl, (Nat.zero_add count).symm, id⟩
  have hends : (shift (position = position') hcount htotal).Ends log.toList log.toList
      (Reply.Related (Stream.Shifted source count (position = position'))) whole cut :=
    (shift_hereditary hcount htotal).eval hdefinitions bound .top p trivial hp
      (.stream slot hstart) ⟨log, notes, memory⟩ ⟨log, notes', memory'⟩
  refine ⟨?_, ?_⟩
  · rcases hends.result?_related fun _ _ _ ↦ id with hnone | hfault | ⟨reply, reply', h, h', hreply⟩
    · exact .inl hnone
    · exact .inr (.inl hfault)
    · cases hreply with
      | failure => exact .inr (.inr (.inl ⟨h, h'⟩))
      | success value hrest =>
        cases hrest with
        | stream slot hstreams => exact .inr (.inr (.inr ⟨slot, _, _, value, h, h', hstreams⟩))
  · rcases hends.messages_related fun _ _ _ ↦ id with ⟨hwhole, hcut⟩ |
      ⟨added, added', hmessages, hwhole, hcut⟩
    · rw [hwhole, hcut]
      exact ⟨rfl, fun _ ↦ rfl⟩
    · rw [hwhole, hcut, List.map_append, List.map_append, hmessages.1]
      exact ⟨rfl, fun haligned ↦ by rw [hmessages.2 haligned]⟩

/-- The rest of the input, read as a sum of ones between zeros, with a remark, and watched. -/
def sumToEnd : Grammar :=
  annotate .info (inspect (left (chainLeft (char (.int 1))
    (map (char (.int 0)) (Function.const (.operation .add)).call)) eof) recordDebug) "sum"

/-- Behind a five, or without it: the same sum, with indices one apart, and the same remark, about
positions that are far apart. -/
theorem eval_rest_sumToEnd :
    let whole := sumToEnd.eval .none 3 .top
      (.stream none ⟨.tokens (.list #[.int 5, .int 1, .int 0, .int 1]) .row, 1, ⟨0, 0⟩⟩) .empty
    let cut := sumToEnd.eval .none 3 .top
      (.stream none ⟨.tokens (.list #[.int 1, .int 0, .int 1]) .row, 0, ⟨7, 3⟩⟩) .empty
    whole.result? = some (.ok (.success
        (.fresh ⟨.tokens (.list #[.int 5, .int 1, .int 0, .int 1]) .row, 4, ⟨3, 0⟩⟩) (.int 2))) ∧
      cut.result? = some (.ok (.success
        (.fresh ⟨.tokens (.list #[.int 1, .int 0, .int 1]) .row, 3, ⟨10, 0⟩⟩) (.int 2))) ∧
      whole.messages.map Message.wording = cut.messages.map Message.wording := by
  have hp : sumToEnd.Everywhere ReadsRest := by
    simp [sumToEnd, char, Everywhere, ReadsRest, onlyWatches_recordDebug.overlooksConsumed]
  have hdefinitions : Definitions.none.Everywhere ReadsRest :=
    Definitions.everywhere_none _
  have htotal : (Source.tokens (.list #[.int 5, .int 1, .int 0, .int 1]) .row).Total :=
    fun position _ ↦ ⟨position.nextRow, rfl⟩
  have hcount : 1 ≤ (Source.tokens (.list #[.int 5, .int 1, .int 0, .int 1]) .row).data.size := by
    decide
  obtain ⟨-, hwording, -⟩ := eval_rest hp hdefinitions htotal hcount 3 none ⟨0, 0⟩ ⟨7, 3⟩ .empty
    #[] #[] ∅ ∅
  exact ⟨rfl, rfl, hwording⟩

end Grammar

end DiagnosticParsing
