import DiagnosticParsing.Proofs.EndOfInput
import DiagnosticParsing.Session

/-!
# Copies of streams

The streams of a session stand in slots and are moved there by the steps that consume from them. A
copy of a stream is put into a slot of its own. So as long as a session only consumes from streams
and copies them, each name refers to another slot than every other name, and a step under one name
moves no stream but that one (`Session.Follows`).

A stream under a name has then been moved by the elements asked for under this name, and before by
those asked for of the stream that it was copied from, up to the moment of the copy
(`Step.requests`). Either a stream is moved in its slot (`Session.Follows.moved`) or put into a new
one (`Session.Follows.hold`), which accounts for the steps of both kinds (`Session.Follows.next`,
`Session.Follows.copy`) and so for any number of them (`Session.Follows.after`). Assumes: a rule for
positions that never raises.
-/

set_option autoImplicit false

namespace DiagnosticParsing

namespace Step

/-- The step consumes from a stream or copies one. -/
def Moves : Step → Prop
  | .next _ _ | .copy _ _ => True
  | _ => False

/-- How many elements have been asked for of the stream under each name once a step has been carried
out. A copy begins with the number of the stream it is made from. A name without a stream has no
number, and nothing can be copied from it. -/
def requests (counts : String → Option Nat) : Step → String → Option Nat
  | .next name times, other =>
    if other = name then (counts other).map (· + times) else counts other
  | .copy name new, other => if other = new then (counts name).or (counts other) else counts other
  | _, other => counts other

/-- How many elements steps have asked for of the stream under each name, where one stream is there
to begin with. -/
def requested (name : String) (steps : List Step) : String → Option Nat :=
  steps.foldl requests fun other ↦ if other = name then some 0 else none

variable {counts : String → Option Nat} {name : String}

theorem requests_next_of_none (h : counts name = none) (times : Nat) :
    requests counts (.next name times) = counts := by
  funext other
  rw [requests]
  split_ifs with hother
  · rw [hother, h, Option.map_none]
  · rfl

theorem requests_next_of_some {before : Nat} (h : counts name = some before) (times : Nat) :
    requests counts (.next name times) = Function.update counts name (some (before + times)) := by
  funext other
  rw [requests, Function.update_apply]
  split_ifs with hother
  · rw [hother, h, Option.map_some]
  · rfl

theorem requests_copy_of_none (h : counts name = none) (copy : String) :
    requests counts (.copy name copy) = counts := by
  funext other
  rw [requests, h, Option.none_or, ite_self]

theorem requests_copy_of_some {before : Nat} (h : counts name = some before) (copy : String) :
    requests counts (.copy name copy) = Function.update counts copy (some before) := by
  funext other
  rw [requests, Function.update_apply, h, Option.some_or]

end Step

namespace Session

/-- The session once steps have been carried out one after the other. -/
def after (session : Session) (steps : List Step) : Session :=
  steps.foldl (fun session step ↦ (session.step step).2) session

/-! ### Names and slots -/

theorem lookup_put {α : Type} (name other : String) (a : α) (entries : List (String × α)) :
    (put name a entries).lookup other = if other = name then some a else entries.lookup other := by
  by_cases hname : other = name
  · rw [put, List.lookup_cons, hname, beq_self_eq_true, if_pos rfl]
  · rw [put, List.lookup_cons, beq_false_of_ne hname, if_neg hname]
    -- The entries filtered out are none of the other name.
    induction entries with
    | nil => rfl
    | cons entry entries ih =>
      obtain ⟨own, b⟩ := entry
      by_cases hown : own = name
      · rw [List.filter_cons_of_neg (by simp [hown]), ih, List.lookup_cons, hown,
          beq_false_of_ne hname]
      · rw [List.filter_cons_of_pos (by simp [hown]), List.lookup_cons, List.lookup_cons]
        cases other == own with
        | true => rfl
        | false => exact ih

variable {session : Session} {start s last : Stream} {name : String} {slot : Nat}

/-- The name refers to a slot, and the stream stands in it. -/
def Holds (session : Session) (name : String) (slot : Nat) (s : Stream) : Prop :=
  session.streams.lookup name = some (.slot slot) ∧ session.slots[slot]? = some s

theorem Holds.place (h : session.Holds name slot s) :
    session.place name = .ok (.stream (some slot) s) := by
  simp only [Session.place, find, h.1, h.2, bind, Except.bind, pure, Except.pure]

theorem Holds.stream (h : session.Holds name slot s) (member : String) :
    session.stream name member = .ok (slot, s) := by
  simp only [Session.stream, h.place]
  rfl

/-- A name that refers to nothing has no stream. -/
theorem stream_of_lookup (h : session.streams.lookup name = none) (member : String) :
    session.stream name member = .error (.missingKey (.text name)) := by
  simp only [Session.stream, Session.place, find, h]
  rfl

/-- Elements are consumed by as many steps of the stream. -/
theorem exists_consume (times : Nat) : ∀ (s : Stream) (taken : List Value),
    s.advance times = .ok last → ∃ elements, consume times taken s = (.ok elements, last) := by
  induction times with
  | zero =>
    intro s taken hlast
    rw [← Except.ok.inj hlast]
    exact ⟨taken.reverse, rfl⟩
  | succ times ih =>
    intro s taken hlast
    rw [Stream.advance_succ] at hlast
    cases hnext : s.next with
    | error fault =>
      rw [hnext] at hlast
      exact nomatch hlast
    | ok step =>
      rw [hnext] at hlast
      rw [consume, hnext]
      exact ih step.2 (step.1 :: taken) hlast

/-- To consume is to move the stream in its slot. -/
theorem Holds.step_next (h : session.Holds name slot s) {times : Nat}
    (hlast : s.advance times = .ok last) :
    (session.step (.next name times)).2 =
      { session with slots := session.slots.setIfInBounds slot last } := by
  obtain ⟨elements, hconsume⟩ := exists_consume times s [] hlast
  simp only [step, tryStep, next, h.stream, bind, Except.bind, hconsume]
  rfl

/-- To copy is to put the stream into a slot of its own as well. -/
theorem Holds.step_copy (h : session.Holds name slot s) (copy : String) :
    session.step (.copy name copy) = (.state s.state, session.hold copy s) := by
  simp only [step, tryStep, h.stream]
  rfl

/-- Without a stream under the name, the session stays as it was. -/
theorem step_of_lookup (h : session.streams.lookup name = none) :
    (∀ times, (session.step (.next name times)).2 = session) ∧
      ∀ copy, (session.step (.copy name copy)).2 = session := by
  refine ⟨fun times ↦ ?_, fun copy ↦ ?_⟩
  · simp only [step, tryStep, next, stream_of_lookup h]
    rfl
  · simp only [step, tryStep, stream_of_lookup h]
    rfl

/-! ### Streams that are moved one by one -/

/-- Each name with a number holds the stream to which so many steps lead from the start, in a slot
that no other name refers to. A name without a number refers to nothing. -/
structure Follows (start : Stream) (counts : String → Option Nat) (session : Session) : Prop where
  held : ∀ name count, counts name = some count →
    ∃ slot s, session.Holds name slot s ∧ start.advance count = .ok s
  unknown : ∀ name, counts name = none → session.streams.lookup name = none
  apart : ∀ name other slot, session.streams.lookup name = some (.slot slot) →
    session.streams.lookup other = some (.slot slot) → name = other

namespace Follows

variable {counts : String → Option Nat} {count : Nat}

/-- A session without streams. -/
theorem empty (start : Stream) (definitions : Definitions) (parsers : List (String × Operand)) :
    (Session.start definitions parsers).Follows start fun _ ↦ none where
  held _ _ hcount := nomatch hcount
  unknown _ _ := rfl
  apart _ _ _ hlookup _ := nomatch hlookup

/-- Names refer to slots that there are. -/
theorem lt_size (h : session.Follows start counts)
    (hlookup : session.streams.lookup name = some (.slot slot)) : slot < session.slots.size := by
  cases hname : counts name with
  | none => exact nomatch (h.unknown name hname).symm.trans hlookup
  | some count =>
    obtain ⟨slot', s', hholds, -⟩ := h.held name count hname
    obtain rfl : slot' = slot := by simpa using hholds.1.symm.trans hlookup
    exact (Array.getElem?_eq_some_iff.mp hholds.2).1

/-- A stream that steps lead to is put into a new slot, which no other name refers to. -/
theorem hold (h : session.Follows start counts) (hs : start.advance count = .ok s)
    (name : String) :
    (session.hold name s).Follows start (Function.update counts name (some count)) := by
  have hlookup (other : String) : (session.hold name s).streams.lookup other =
      if other = name then some (.slot session.slots.size) else session.streams.lookup other :=
    lookup_put _ _ _ _
  have hslots {slot : Nat} {s' : Stream} (hslot : session.slots[slot]? = some s') :
      (session.hold name s).slots[slot]? = some s' := by
    obtain ⟨hlt, hget⟩ := Array.getElem?_eq_some_iff.mp hslot
    rw [← hget]
    exact Array.getElem?_push_lt hlt
  have hnew {other : String}
      (hother : session.streams.lookup other = some (.slot session.slots.size)) : False :=
    Nat.lt_irrefl _ (h.lt_size hother)
  refine ⟨fun other asked hasked ↦ ?_, fun other hasked ↦ ?_, fun first second slot ↦ ?_⟩
  · rw [Function.update_apply] at hasked
    split_ifs at hasked with hother
    · obtain rfl := Option.some.inj hasked
      refine ⟨session.slots.size, s, ⟨?_, Array.getElem?_push_size⟩, hs⟩
      rw [hlookup, if_pos hother]
    · obtain ⟨slot, s', hholds, hs'⟩ := h.held other asked hasked
      refine ⟨slot, s', ⟨?_, hslots hholds.2⟩, hs'⟩
      rw [hlookup, if_neg hother]
      exact hholds.1
  · rw [Function.update_apply] at hasked
    split_ifs at hasked with hother
    rw [hlookup, if_neg hother]
    exact h.unknown other hasked
  · rw [hlookup, hlookup]
    split_ifs with hfirst hsecond hsecond
    · exact fun _ _ ↦ hfirst.trans hsecond.symm
    · rintro ⟨⟩ hearlier
      exact (hnew hearlier).elim
    · rintro hearlier ⟨⟩
      exact (hnew hearlier).elim
    · exact h.apart first second slot

/-- The stream under one name is moved, and no other name refers to its slot. -/
theorem moved (h : session.Follows start counts) (hholds : session.Holds name slot s)
    (hlast : start.advance count = .ok last) :
    Follows start (Function.update counts name (some count))
      { session with slots := session.slots.setIfInBounds slot last } := by
  refine ⟨fun other asked hasked ↦ ?_, fun other hasked ↦ ?_, h.apart⟩
  · rw [Function.update_apply] at hasked
    split_ifs at hasked with hother
    · obtain rfl := Option.some.inj hasked
      obtain rfl := hother
      refine ⟨slot, last, ⟨hholds.1, ?_⟩, hlast⟩
      exact Array.getElem?_setIfInBounds_self_of_lt (Array.getElem?_eq_some_iff.mp hholds.2).1
    · obtain ⟨slot', s', hholds', hs'⟩ := h.held other asked hasked
      have hslot : slot ≠ slot' := by
        rintro rfl
        exact hother (h.apart other name slot hholds'.1 hholds.1)
      refine ⟨slot', s', ⟨hholds'.1, ?_⟩, hs'⟩
      exact (Array.getElem?_setIfInBounds_ne hslot).trans hholds'.2
  · rw [Function.update_apply] at hasked
    split_ifs at hasked with hother
    exact h.unknown other hasked

/-- Consuming under one name moves the stream of that name and no other. -/
theorem next (htotal : start.source.Total) (h : session.Follows start counts) (name : String)
    (times : Nat) :
    (session.step (.next name times)).2.Follows start
      (Step.requests counts (.next name times)) := by
  cases hname : counts name with
  | none =>
    rw [(step_of_lookup (h.unknown name hname)).1, Step.requests_next_of_none hname]
    exact h
  | some before =>
    obtain ⟨slot, s, hholds, hs⟩ := h.held name before hname
    have hsource := (Stream.onward_of_advance hs).source
    obtain ⟨last, hlast, -, -⟩ := Stream.exists_advance (hsource ▸ htotal) times
    rw [hholds.step_next hlast, Step.requests_next_of_some hname]
    refine h.moved hholds ?_
    rw [Stream.advance_add, hs]
    exact hlast

/-- A copy stands where the stream stands that it is made from, in a new slot. -/
theorem copy (h : session.Follows start counts) (name copy : String) :
    (session.step (.copy name copy)).2.Follows start
      (Step.requests counts (.copy name copy)) := by
  cases hname : counts name with
  | none =>
    rw [(step_of_lookup (h.unknown name hname)).2, Step.requests_copy_of_none hname]
    exact h
  | some before =>
    obtain ⟨slot, s, hholds, hs⟩ := h.held name before hname
    rw [hholds.step_copy copy, Step.requests_copy_of_some hname]
    exact h.hold hs copy

/-- What single steps keep is kept by any number of them. -/
theorem after (htotal : start.source.Total) (h : session.Follows start counts)
    (steps : List Step) (hsteps : ∀ step ∈ steps, step.Moves) :
    (session.after steps).Follows start (steps.foldl Step.requests counts) := by
  induction steps generalizing session counts with
  | nil => exact h
  | cons step steps ih =>
    obtain ⟨hstep, hmore⟩ := List.forall_mem_cons.mp hsteps
    refine ih ?_ hmore
    cases step with
    | next name times => exact h.next htotal name times
    | copy name copy => exact h.copy name copy
    | _ => exact hstep.elim

end Follows

/-- Where one stream is there to begin with, and is moved and copied only, each name that refers to
anything has the stream to which as many steps lead as elements have been asked for of it. -/
theorem exists_place (htotal : start.source.Total) (definitions : Definitions)
    (parsers : List (String × Operand)) (name : String) {steps : List Step}
    (hsteps : ∀ step ∈ steps, step.Moves) {other : String} {count : Nat}
    (hcount : Step.requested name steps other = some count) :
    ∃ slot s, (((Session.start definitions parsers).hold name start).after steps).place other =
      .ok (.stream (some slot) s) ∧ start.advance count = .ok s := by
  have hstart : Function.update (fun _ ↦ none) name (some 0) =
      fun other ↦ if other = name then some 0 else none :=
    funext fun other ↦ Function.update_apply _ _ _ _
  have hheld := (Follows.empty start definitions parsers).hold (Stream.advance_zero start) name
  have hfollows := (hstart ▸ hheld).after htotal steps hsteps
  obtain ⟨slot, s, hholds, hs⟩ := hfollows.held other count hcount
  exact ⟨slot, s, hholds.place, hs⟩

end Session

end DiagnosticParsing
