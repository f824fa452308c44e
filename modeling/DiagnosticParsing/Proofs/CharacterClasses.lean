import DiagnosticParsing.Proofs.Elements
import DiagnosticParsing.Proofs.OrderedChoice
import Mathlib.Logic.Basic

/-!
# Classes of characters

A class of characters can be matched in one step, by a test of the element found, or by a choice
among matchers of one character each. The choice goes by equality: it accepts an element that is
equal to one of the characters and fails on any other one (`Grammar.endsWith_choice_char`,
`Grammar.exists_fails_choice_char`). A matcher with a test has the same reply just if the test comes
to the same without raising, and if the error about an element that is refused can be worded
(`Grammar.sameReply_element_iff`).

White space is tested by equality, and its matcher agrees with the choice wherever the next element
can be read at all. A digit is a text between zero and nine in the order of texts, and texts of more
than one character that begin with a digit below nine lie there too
(`Grammar.isDigitText_eq_any_iff`). What is in a container depends on its kind. A text contains its
parts, and only texts can be looked for in it. A run of bytes contains its parts too. And the error
of a container names its members one after the other, which have to be texts for that
(`Value.SuitsClass`, `Value.judgedAlike_iff`). An element that does not suit a container is no
member of it, and the matcher accepts the element all the same or raises. The main result is
`Grammar.classes_against_choices`.
-/

set_option autoImplicit false

namespace DiagnosticParsing

/-! ### Containers -/

namespace Value

/-- A list occurs in another one just if it is an infix of it. -/
theorem occursIn_iff {α : Type} [BEq α] [LawfulBEq α] (part items : List α) :
    occursIn part items = true ↔ part <:+: items := by
  induction items with
  | nil => rw [occursIn, List.isEmpty_iff, List.infix_nil]
  | cons x items ih =>
    rw [occursIn, Bool.or_eq_true, List.isPrefixOf_iff_prefix, ih, List.infix_cons_iff]

/-- The members of a sequence can be joined just if all of them are texts. -/
theorem exists_joinedFrom_iff (items : List Value) (index : Nat) :
    (∃ text, joinedFrom index items = .ok text) ↔ ∀ c ∈ items, ∃ s, c = .text s := by
  induction items generalizing index with
  | nil => exact iff_of_true ⟨"", rfl⟩ (List.forall_mem_nil _)
  | cons c items ih =>
    rw [List.forall_mem_cons, ← ih (index + 1)]
    constructor
    · rintro ⟨text, htext⟩
      cases c with
      | text s =>
        rw [joinedFrom] at htext
        cases hmore : joinedFrom (index + 1) items with
        | error fault => simp [hmore, Except.map] at htext
        | ok more => exact ⟨⟨s, rfl⟩, more, rfl⟩
      | _ => simp [joinedFrom] at htext
    · rintro ⟨⟨s, rfl⟩, more, hmore⟩
      exact ⟨s ++ more, by rw [joinedFrom, hmore]; rfl⟩

/-- To equal a text of one character is to be that text. -/
theorem same_text_char_iff (t : String) (c : Char) :
    (text t).same (char c) = true ↔ t.toList = [c] := by
  rw [char, same, beq_iff_eq, ← String.toList_inj, String.toList_singleton]

/-- To equal the number of a byte is to be that number. -/
theorem same_byte_iff (x : Value) (b : UInt8) :
    x.same (byte b) = true ↔ x.number? = some (b.toNat : Int) := by
  cases x <;> simp [same, byte, number?, bytes?]

/-- The container judges the element as a choice among its members does. A text does so with texts
of one character, and with longer texts and the empty one if they are no part of it. A list or a
tuple does so with an element that is a member, and with any other one if all members are texts. A
run of bytes does so with the number of a byte in it; an empty one also with the numbers of all
bytes, and with other runs of bytes. -/
def SuitsClass (found container : Value) : Prop :=
  match container with
  | .text s => ∃ t, found = .text t ∧ (t.length = 1 ∨ ¬t.toList <:+: s.toList)
  | .list items | .tuple items =>
    (∃ c ∈ items, found.same c = true) ∨ ∀ c ∈ items, ∃ s, c = .text s
  | .bytes items | .byteArray items =>
    (∃ b ∈ items, found.number? = some (b.toNat : Int)) ∨
      items = [] ∧ ((∃ n : Nat, found.number? = some (n : Int) ∧ n < 256) ∨
        ∃ part, found.bytes? = some part ∧ part ≠ [])
  | _ => False

/-- To ask whether the element is in the container comes to asking whether it equals a member, and
does not raise. If it equals none, the error about it can be worded. -/
def JudgedAlike (found container : Value) (items : List Value) : Prop :=
  found.isIn container = .ok (items.any (found.same ·)) ∧
    (items.any (found.same ·) = true ∨ ∃ text, container.joined = .ok text)

section Containers

variable {found container : Value} {items : List Value} {bytes part : List UInt8} {n : Int}
  {answer : Bool}

theorem not_judgedAlike_of_raises {fault : Fault} (hin : found.isIn container = .error fault) :
    ¬found.JudgedAlike container items := by
  rintro ⟨h, -⟩
  exact nomatch hin.symm.trans h

theorem judgedAlike_iff_of_isIn (hin : found.isIn container = .ok answer)
    (hitems : container.elements? = some items) :
    found.JudgedAlike container items ↔ (answer = true ↔ ∃ c ∈ items, found.same c = true) ∧
      ((∃ c ∈ items, found.same c = true) ∨ ∀ c ∈ items, ∃ s, c = .text s) := by
  rw [JudgedAlike, hin, Except.ok.injEq, Bool.eq_iff_iff, List.any_eq_true,
    ← exists_joinedFrom_iff items 0, joined, hitems]

theorem judgedAlike_text_iff (found : Value) (s : String) :
    found.JudgedAlike (.text s) (s.toList.map char) ↔ found.SuitsClass (.text s) := by
  cases found with
  | text t =>
    have hchars : ∀ c ∈ s.toList.map char, ∃ s, c = .text s :=
      List.forall_mem_map.mpr fun c _ ↦ ⟨_, rfl⟩
    have hmember : (∃ c ∈ s.toList.map char, (text t).same c = true) ↔
        ∃ c ∈ s.toList, t.toList = [c] := by
      simp only [List.mem_map, exists_exists_and_eq_and, same_text_char_iff]
    have hsuits : (text t).SuitsClass (.text s) ↔ t.length = 1 ∨ ¬t.toList <:+: s.toList := by
      simp [SuitsClass]
    rw [judgedAlike_iff_of_isIn rfl rfl, and_iff_left (.inr hchars), occursIn_iff, hmember, hsuits]
    by_cases hlength : t.length = 1
    · obtain ⟨c, hc⟩ := List.length_eq_one_iff.mp hlength
      have hpart : [c] <:+: s.toList ↔ c ∈ s.toList := by
        rw [← occursIn_iff, occursIn_singleton, decide_eq_true_iff]
      simp [hc, hlength, hpart]
    · have hnone : ¬∃ c ∈ s.toList, t.toList = [c] := by
        rintro ⟨c, -, hc⟩
        exact hlength (by rw [← String.length_toList, hc]; rfl)
      rw [iff_false_right hnone, or_iff_right hlength]
  | _ => exact iff_of_false (not_judgedAlike_of_raises rfl) (by simp [SuitsClass])

theorem judgedAlike_items_iff (hin : found.isIn container = .ok (items.any (found.same ·)))
    (hitems : container.elements? = some items) :
    found.JudgedAlike container items ↔
      (∃ c ∈ items, found.same c = true) ∨ ∀ c ∈ items, ∃ s, c = .text s := by
  rw [judgedAlike_iff_of_isIn hin hitems, and_iff_right List.any_eq_true]

/-! A run of bytes judges numbers and runs of bytes, and nothing else. -/

theorem isIn_of_number (hbytes : container = .bytes bytes ∨ container = .byteArray bytes)
    (hnumber : found.number? = some n) :
    found.isIn container = if 0 ≤ n ∧ n < 256 then .ok (bytes.any fun b ↦ (b.toNat : Int) == n)
      else .error (.raised "ValueError" (some "byte must be in range(0, 256)")) := by
  rcases hbytes with rfl | rfl
  all_goals
    rw [isIn, hnumber]
    rfl

theorem isIn_of_part (hbytes : container = .bytes bytes ∨ container = .byteArray bytes)
    (hnumber : found.number? = none) (hpart : found.bytes? = some part) :
    found.isIn container = .ok (occursIn part bytes) := by
  rcases hbytes with rfl | rfl
  all_goals
    rw [isIn, hnumber, hpart]
    rfl

theorem exists_isIn_eq_error (hbytes : container = .bytes bytes ∨ container = .byteArray bytes)
    (hnumber : found.number? = none) (hpart : found.bytes? = none) :
    ∃ fault, found.isIn container = .error fault := by
  rcases hbytes with rfl | rfl
  all_goals
    rw [isIn, hnumber, hpart]
    exact ⟨_, rfl⟩

theorem judgedAlike_bytes_iff_of_isIn
    (hbytes : container = .bytes bytes ∨ container = .byteArray bytes)
    (hin : found.isIn container = .ok answer) :
    found.JudgedAlike container (bytes.map byte) ↔
      (answer = true ↔ ∃ b ∈ bytes, found.number? = some (b.toNat : Int)) ∧
        ((∃ b ∈ bytes, found.number? = some (b.toNat : Int)) ∨ bytes = []) := by
  have hitems : container.elements? = some (bytes.map byte) := by
    rcases hbytes with rfl | rfl <;> rfl
  have hmember : (∃ c ∈ bytes.map byte, found.same c = true) ↔
      ∃ b ∈ bytes, found.number? = some (b.toNat : Int) := by
    simp only [List.mem_map, exists_exists_and_eq_and, same_byte_iff]
  have htexts : (∀ c ∈ bytes.map byte, ∃ s, c = .text s) ↔ bytes = [] := by
    cases bytes <;> simp [byte]
  rw [judgedAlike_iff_of_isIn hin hitems, hmember, htexts]

theorem suitsClass_bytes_iff (hbytes : container = .bytes bytes ∨ container = .byteArray bytes) :
    found.SuitsClass container ↔ (∃ b ∈ bytes, found.number? = some (b.toNat : Int)) ∨
      bytes = [] ∧ ((∃ n : Nat, found.number? = some (n : Int) ∧ n < 256) ∨
        ∃ part, found.bytes? = some part ∧ part ≠ []) := by
  rcases hbytes with rfl | rfl <;> rfl

theorem bytes?_of_number (hnumber : found.number? = some n) : found.bytes? = none := by
  cases found <;> simp [number?, bytes?] at hnumber ⊢

theorem judgedAlike_bytes_iff_of_number
    (hbytes : container = .bytes bytes ∨ container = .byteArray bytes)
    (hnumber : found.number? = some n) :
    found.JudgedAlike container (bytes.map byte) ↔ found.SuitsClass container := by
  rw [suitsClass_bytes_iff hbytes, hnumber, bytes?_of_number hnumber]
  by_cases hrange : 0 ≤ n ∧ n < 256
  · have hin := (isIn_of_number hbytes hnumber).trans (if_pos hrange)
    have hany : (bytes.any fun b ↦ (b.toNat : Int) == n) = true ↔
        ∃ b ∈ bytes, some n = some (b.toNat : Int) := by
      simp only [List.any_eq_true, beq_iff_eq, Option.some.injEq, @eq_comm Int n]
    have hbyte : ∃ m : Nat, some n = some (m : Int) ∧ m < 256 :=
      ⟨n.toNat, by rw [Int.toNat_of_nonneg hrange.1], by omega⟩
    rw [judgedAlike_bytes_iff_of_isIn hbytes hin, hnumber, and_iff_right hany,
      and_iff_left (.inl hbyte)]
  · have hin := (isIn_of_number hbytes hnumber).trans (if_neg hrange)
    refine iff_of_false (not_judgedAlike_of_raises hin) ?_
    rintro (⟨b, -, hb⟩ | ⟨-, ⟨m, hm, hlt⟩ | ⟨_, h, -⟩⟩)
    · have hlt := b.toNat_lt
      have hn := Option.some.inj hb
      omega
    · have hn := Option.some.inj hm
      omega
    · exact nomatch h

theorem judgedAlike_bytes_iff_of_part
    (hbytes : container = .bytes bytes ∨ container = .byteArray bytes)
    (hnumber : found.number? = none) (hpart : found.bytes? = some part) :
    found.JudgedAlike container (bytes.map byte) ↔ found.SuitsClass container := by
  have hin := isIn_of_part hbytes hnumber hpart
  have hnone : ¬∃ b ∈ bytes, none = some (b.toNat : Int) := fun ⟨_, _, hb⟩ ↦ nomatch hb
  have hnumbers : ¬∃ m : Nat, none = some (m : Int) ∧ m < 256 := fun ⟨_, hm, _⟩ ↦ nomatch hm
  have hothers : (∃ other, some part = some other ∧ other ≠ []) ↔ part ≠ [] := by
    simp
  rw [judgedAlike_bytes_iff_of_isIn hbytes hin, suitsClass_bytes_iff hbytes, hnumber, hpart,
    or_iff_right hnone, or_iff_right hnone, or_iff_right hnumbers, hothers, iff_false_right hnone,
    and_comm]
  -- Nothing but the empty run of bytes is a part of the empty one.
  refine and_congr_right ?_
  rintro rfl
  exact not_congr List.isEmpty_iff

theorem judgedAlike_bytes_iff (found : Value)
    (hbytes : container = .bytes bytes ∨ container = .byteArray bytes) :
    found.JudgedAlike container (bytes.map byte) ↔ found.SuitsClass container := by
  cases hnumber : found.number? with
  | some n => exact judgedAlike_bytes_iff_of_number hbytes hnumber
  | none =>
    cases hpart : found.bytes? with
    | some part => exact judgedAlike_bytes_iff_of_part hbytes hnumber hpart
    | none =>
      obtain ⟨fault, hin⟩ := exists_isIn_eq_error hbytes hnumber hpart
      refine iff_of_false (not_judgedAlike_of_raises hin) ?_
      rw [suitsClass_bytes_iff hbytes, hnumber, hpart]
      simp

theorem judgedAlike_iff (found : Value) (hitems : container.elements? = some items) :
    found.JudgedAlike container items ↔ found.SuitsClass container := by
  cases container with
  | text s =>
    obtain rfl := Option.some.inj hitems
    exact judgedAlike_text_iff found s
  | list members | tuple members =>
    obtain rfl := Option.some.inj hitems
    exact judgedAlike_items_iff rfl rfl
  | bytes bytes =>
    obtain rfl := Option.some.inj hitems
    exact judgedAlike_bytes_iff found (.inl rfl)
  | byteArray bytes =>
    obtain rfl := Option.some.inj hitems
    exact judgedAlike_bytes_iff found (.inr rfl)
  | _ => simp [elements?] at hitems

/-- A member of a container suits it. -/
theorem suitsClass_of_member (hitems : container.elements? = some items)
    (hmember : items.any (found.same ·) = true) : found.SuitsClass container := by
  obtain ⟨c, hc, hsame⟩ := List.any_eq_true.mp hmember
  cases container with
  | text s =>
    obtain rfl := Option.some.inj hitems
    obtain ⟨letter, -, rfl⟩ := List.mem_map.mp hc
    cases found with
    | text t =>
      have hletter := (same_text_char_iff t letter).mp hsame
      exact ⟨t, rfl, .inl (by rw [← String.length_toList, hletter]; rfl)⟩
    | _ => simp [char, same, number?, bytes?] at hsame
  | list members | tuple members =>
    obtain rfl := Option.some.inj hitems
    exact .inl ⟨c, hc, hsame⟩
  | bytes bytes | byteArray bytes =>
    obtain rfl := Option.some.inj hitems
    obtain ⟨b, hb, rfl⟩ := List.mem_map.mp hc
    exact .inl ⟨b, hb, (same_byte_iff found b).mp hsame⟩
  | _ => simp [elements?] at hitems

end Containers

end Value

/-! ### Matchers that raise -/

namespace Parse

variable {test : Value → Except Fault Bool} {describe : Value → Except Fault String}
  {slot : Option Nat} {stream rest : Stream} {found : Value} {fault : Fault}

theorem element_of_test_raised (hnext : stream.next = .ok (found, rest)) (hfound : found ≠ .null)
    (htest : test found = .error fault) :
    element test describe (.stream slot stream) = Run.fault fault := by
  ext journal
  simp only [element, Place.stream?, Run.ofExcept_ok_bind, hnext, htest]
  rfl

theorem element_of_text_raised (hnext : stream.next = .ok (found, rest)) (hfound : found ≠ .null)
    (htest : test found = .ok false) (htext : describe found = .error fault) :
    element test describe (.stream slot stream) = Run.fault fault := by
  ext journal
  simp only [element, Place.stream?, Run.ofExcept_ok_bind, hnext, htest, htext,
    Bool.false_eq_true, if_false]
  rfl

end Parse

namespace Grammar

variable {definitions : Definitions} {scope : Scope} {p q : Grammar} {place : Place}
  {log log' log'' : Log} {reply reply' : Reply} {test : Value → Except Fault Bool}
  {describe : Value → Except Fault String} {slot : Option Nat} {stream rest : Stream}
  {found : Value} {fault : Fault} {items : List Value}

/-- A grammar that raises with every bound ends with the fault and has logged nothing. -/
theorem raises_of_fault
    (h : ∀ bound, p.eval definitions (bound + 1) scope place = Run.fault fault) :
    p.EndsWith definitions scope place log (.error fault, log) := by
  refine endsWith_of_eval 1 ⟨log, #[], ∅⟩ ?_
  rw [h]
  rfl

/-! ### The same reply -/

/-- Run at a place with this log, the two parsers come to the same reply, and neither of them
raises. What they log can be different. -/
def SameReply (definitions : Definitions) (scope : Scope) (p q : Grammar) (place : Place)
    (log : Log) : Prop :=
  ∃ reply, (∃ log', p.EndsWith definitions scope place log (.ok reply, log')) ∧
    ∃ log', q.EndsWith definitions scope place log (.ok reply, log')

theorem not_sameReply_of_raises
    (h : p.EndsWith definitions scope place log (.error fault, log')) :
    ¬SameReply definitions scope p q place log := by
  rintro ⟨reply, ⟨log'', hends⟩, -⟩
  exact nomatch (Prod.mk.inj (h.unique hends)).1

theorem sameReply_iff_eq (hp : p.EndsWith definitions scope place log (.ok reply, log'))
    (hq : q.EndsWith definitions scope place log (.ok reply', log'')) :
    SameReply definitions scope p q place log ↔ reply = reply' := by
  constructor
  · rintro ⟨common, ⟨_, hp'⟩, _, hq'⟩
    have hfirst := Except.ok.inj (Prod.mk.inj (hp.unique hp')).1
    have hsecond := Except.ok.inj (Prod.mk.inj (hq.unique hq')).1
    exact hfirst.trans hsecond.symm
  · rintro rfl
    exact ⟨reply, ⟨_, hp⟩, _, hq⟩

/-! ### Choices -/

/-- Parsers that fail are passed over in front of one that comes to another end. -/
theorem endsWith_choice_append {before after : List Grammar} {ending : Except Fault Reply × Log}
    (hbefore : ∀ other ∈ before, ∃ log', other.Fails definitions scope place log log')
    (hends : q.EndsWith definitions scope place log ending)
    (hlast : after = [] ∨ ∀ log', ending ≠ (.ok .failure, log')) :
    (choice (before ++ q :: after)).EndsWith definitions scope place log ending := by
  have hne : before ++ q :: after ≠ [] :=
    List.append_ne_nil_of_right_ne_nil before (List.cons_ne_nil q after)
  obtain ⟨p, rest, hlist⟩ := List.exists_cons_of_ne_nil hne
  rw [hlist, endsWith_choice]
  exact ⟨before, q, after, hlist.symm, hbefore, hends, hlast⟩

/-- A choice among parsers that fail does so too. -/
theorem exists_fails_choice {parsers : List Grammar}
    (h : ∀ p ∈ parsers, ∃ log', p.Fails definitions scope place log log') :
    ∃ log', (choice parsers).Fails definitions scope place log log' := by
  rcases List.eq_nil_or_concat parsers with rfl | ⟨before, last, rfl⟩
  · exact ⟨log, endsWith_empty.mpr rfl⟩
  · rw [List.concat_eq_append] at h ⊢
    obtain ⟨log', hfails⟩ := h last (List.mem_append_right before List.mem_cons_self)
    exact ⟨log', endsWith_choice_append (fun p hp ↦ h p (List.mem_append_left [last] hp)) hfails
      (.inl rfl)⟩

theorem endsWith_element_of_accepted (hnext : stream.next = .ok (found, rest))
    (hfound : found ≠ .null) (htest : test found = .ok true) :
    (element test describe).EndsWith definitions scope (.stream slot stream) log
      (.ok (.success (.fresh rest) found), log) := by
  have hproper : (element test describe).Proper definitions scope :=
    proper_of_succ fun _ ↦ Parse.proper_element test describe
  exact (endsWith_success hproper).mpr (gives_element hnext hfound htest)

/-- At the end of the input, and on an element that is not the one given, the matcher of one element
fails. -/
theorem exists_fails_char {c : Value} (hnext : stream.next = .ok (found, rest))
    (hother : found = .null ∨ found.same c = false) :
    ∃ log', (char c).Fails definitions scope (.stream slot stream) log log' := by
  by_cases hfound : found = .null
  · subst hfound
    exact ⟨_, fails_element_of_null hnext⟩
  · have hsame : found.same c = false := hother.resolve_left hfound
    exact ⟨_, fails_element hnext hfound (congrArg Except.ok hsame) rfl⟩

/-- A choice among characters accepts an element that is equal to one of them. -/
theorem endsWith_choice_char (hnext : stream.next = .ok (found, rest)) (hfound : found ≠ .null)
    (hmember : items.any (found.same ·) = true) :
    (choice (items.map char)).EndsWith definitions scope (.stream slot stream) log
      (.ok (.success (.fresh rest) found), log) := by
  cases hfind : items.find? (found.same ·) with
  | none =>
    obtain ⟨c, hc, hsame⟩ := List.any_eq_true.mp hmember
    exact absurd hsame (List.find?_eq_none.mp hfind c hc)
  | some c =>
    obtain ⟨hsame, before, after, rfl, hbefore⟩ := List.find?_eq_some_iff_append.mp hfind
    rw [List.map_append, List.map_cons]
    refine endsWith_choice_append (List.forall_mem_map.mpr fun other hother ↦ ?_)
      (endsWith_element_of_accepted hnext hfound (congrArg Except.ok hsame)) (.inr fun _ ↦ nofun)
    refine exists_fails_char hnext (.inr ?_)
    simpa using hbefore other hother

/-- A choice among characters fails at the end of the input, and on any other element. -/
theorem exists_fails_choice_char (hnext : stream.next = .ok (found, rest))
    (hother : found = .null ∨ items.any (found.same ·) = false) :
    ∃ log', (choice (items.map char)).Fails definitions scope (.stream slot stream) log log' := by
  refine exists_fails_choice (List.forall_mem_map.mpr fun c hc ↦ ?_)
  refine exists_fails_char hnext (hother.imp_right fun hany ↦ ?_)
  simpa using List.any_eq_false.mp hany c hc

/-- Away from the end of the input, a choice among characters accepts members and fails on other
elements. -/
theorem exists_endsWith_choice_char (hnext : stream.next = .ok (found, rest))
    (hfound : found ≠ .null) (items : List Value) :
    ∃ log', (choice (items.map char)).EndsWith definitions scope (.stream slot stream) log
      (.ok (if items.any (found.same ·) then .success (.fresh rest) found else .failure),
        log') := by
  by_cases hmember : items.any (found.same ·) = true
  · rw [if_pos hmember]
    exact ⟨log, endsWith_choice_char hnext hfound hmember⟩
  · rw [if_neg hmember]
    exact exists_fails_choice_char hnext (.inr (Bool.eq_false_iff.mpr hmember))

/-! ### Tests -/

/-- A matcher with a test has the reply of a choice among characters if the test comes to the same
as equality with one of them and, where it refuses the element, the error can be worded. -/
theorem sameReply_element_iff_of_next (hnext : stream.next = .ok (found, rest)) :
    SameReply definitions scope (element test describe) (choice (items.map char))
        (.stream slot stream) log ↔
      found = .null ∨ test found = .ok (items.any (found.same ·)) ∧
        (items.any (found.same ·) = true ∨ ∃ text, describe found = .ok text) := by
  by_cases hfound : found = .null
  · subst hfound
    have hfails : (element test describe).Fails definitions scope (.stream slot stream) log _ :=
      fails_element_of_null hnext
    obtain ⟨log', hchoice⟩ := exists_fails_choice_char hnext (.inl rfl)
    exact iff_of_true ((sameReply_iff_eq hfails hchoice).mpr rfl) (.inl rfl)
  rw [or_iff_right hfound]
  obtain ⟨log', hchoice⟩ := exists_endsWith_choice_char hnext hfound items
  cases htest : test found with
  | error fault =>
    have hraises : (element test describe).EndsWith definitions scope (.stream slot stream) log
        (.error fault, log) :=
      raises_of_fault fun _ ↦ Parse.element_of_test_raised hnext hfound htest
    exact iff_of_false (not_sameReply_of_raises hraises) fun h ↦ nomatch h.1
  | ok accepted =>
    cases accepted with
    | true =>
      rw [sameReply_iff_eq (endsWith_element_of_accepted hnext hfound htest) hchoice]
      cases items.any (found.same ·) <;> simp
    | false =>
      cases htext : describe found with
      | error fault =>
        have hraises : (element test describe).EndsWith definitions scope
            (.stream slot stream) log (.error fault, log) :=
          raises_of_fault fun _ ↦ Parse.element_of_text_raised hnext hfound htest htext
        refine iff_of_false (not_sameReply_of_raises hraises) ?_
        cases items.any (found.same ·) <;> simp
      | ok text =>
        have hfails : (element test describe).Fails definitions scope (.stream slot stream) log _ :=
          fails_element hnext hfound htest htext
        rw [sameReply_iff_eq hfails hchoice]
        cases items.any (found.same ·) <;> simp

/-- Where the rule for positions raises, so does a matcher with a test. -/
theorem sameReply_element_iff :
    SameReply definitions scope (element test describe) (choice (items.map char))
        (.stream slot stream) log ↔
      ∃ found rest, stream.next = .ok (found, rest) ∧ (found = .null ∨
        test found = .ok (items.any (found.same ·)) ∧
          (items.any (found.same ·) = true ∨ ∃ text, describe found = .ok text)) := by
  cases hnext : stream.next with
  | error fault =>
    have hraises : (element test describe).EndsWith definitions scope (.stream slot stream) log
        (.error fault, log) :=
      raises_of_fault fun _ ↦ Parse.element_of_raised hnext
    exact iff_of_false (not_sameReply_of_raises hraises) fun ⟨_, _, h, _⟩ ↦ nomatch h
  | ok step =>
    rw [sameReply_element_iff_of_next hnext]
    constructor
    · exact fun h ↦ ⟨step.1, step.2, rfl, h⟩
    · rintro ⟨found, rest, hstep, h⟩
      rwa [Except.ok.inj hstep]

/-! ### Digits -/

/-- The ten digits. -/
def digits : List Value :=
  ['0', '1', '2', '3', '4', '5', '6', '7', '8', '9'].map .char

theorem mem_digits_iff (c : Char) :
    c ∈ ['0', '1', '2', '3', '4', '5', '6', '7', '8', '9'] ↔ '0' ≤ c ∧ c ≤ '9' := by
  have hle (a b : Char) : a ≤ b ↔ a.toNat ≤ b.toNat := Iff.rfl
  simp only [List.mem_cons, List.not_mem_nil, or_false, ← Char.toNat_inj, hle]
  simp only [Char.reduceToNat]
  omega

theorem char_lt_iff (c d : Char) : c < d ↔ c ≤ d ∧ c ≠ d :=
  Nat.lt_iff_le_and_ne.trans (and_congr_right fun _ ↦ not_congr Char.toNat_inj)

/-- In the order of texts, those between zero and nine begin with a digit, and only nine itself
begins with nine. -/
theorem isDigitText_cons_iff (c : Char) (more : List Char) :
    isDigitText (.text (String.ofList (c :: more))) = true ↔
      '0' ≤ c ∧ c ≤ '9' ∧ ('9' = c → more = []) := by
  have hle (s t : String) : s ≤ t ↔ ¬List.Lex (· < ·) t.toList s.toList := Iff.rfl
  have hzero : "0".toList = ['0'] := rfl
  have hnine : "9".toList = ['9'] := rfl
  have hbelow : ¬List.Lex (· < ·) (c :: more) ['0'] ↔ '0' ≤ c := by
    rw [List.cons_lex_cons_iff, or_iff_left fun h ↦ List.not_lex_nil h.2, Char.not_lt]
  have habove : ¬List.Lex (· < ·) ['9'] (c :: more) ↔ c ≤ '9' ∧ ('9' = c → more = []) := by
    rw [List.cons_lex_cons_iff, not_or, Char.not_lt, not_and, List.not_nil_lex_iff]
  simp only [isDigitText, Bool.and_eq_true, decide_eq_true_iff, hle, hzero, hnine,
    String.toList_ofList, hbelow, habove]

/-- A text is equal to one of the digits just if it consists of one. -/
theorem any_digits_iff (text : List Char) :
    digits.any ((Value.text (String.ofList text)).same ·) = true ↔
      ∃ c, text = [c] ∧ '0' ≤ c ∧ c ≤ '9' := by
  simp only [digits, List.any_map, List.any_eq_true, Function.comp_apply,
    Value.same_text_char_iff, String.toList_ofList, mem_digits_iff]
  exact exists_congr fun c ↦ and_comm

/-- Lying between zero and nine is being one of the digits, except for longer texts that begin with
a digit below nine. -/
theorem isDigitText_eq_any_iff (x : Value) :
    isDigitText x = digits.any (x.same ·) ↔
      ¬∃ c d more, x = .text (String.ofList (c :: d :: more)) ∧ '0' ≤ c ∧ c < '9' := by
  cases x with
  | text s =>
    obtain ⟨text, rfl⟩ : ∃ text, s = String.ofList text := ⟨s.toList, String.ofList_toList.symm⟩
    have hinj (other : List Char) :
        Value.text (String.ofList text) = .text (String.ofList other) ↔ text = other := by
      rw [Value.text.injEq, String.ofList_inj]
    simp only [hinj]
    match text with
    | [] => exact iff_of_true rfl fun ⟨_, _, _, h, _⟩ ↦ nomatch h
    | [c] =>
      rw [Bool.eq_iff_iff, isDigitText_cons_iff, any_digits_iff]
      simp
    | c :: d :: more =>
      rw [Bool.eq_iff_iff, isDigitText_cons_iff, any_digits_iff]
      simp [char_lt_iff c, eq_comm (a := c)]
  | _ => exact iff_of_true rfl (by simp)

/-! ### The three classes -/

/-- White space is tested by equality, so that its matcher raises only where the rule for positions
does so. -/
theorem sameReply_space_iff :
    SameReply definitions scope space (choice (whiteSpace.map char)) (.stream slot stream) log ↔
      ∃ step, stream.next = .ok step := by
  rw [space, sameReply_element_iff]
  constructor
  · rintro ⟨found, rest, hnext, -⟩
    exact ⟨_, hnext⟩
  · rintro ⟨⟨found, rest⟩, hnext⟩
    exact ⟨found, rest, hnext, .inr ⟨rfl, .inr ⟨_, rfl⟩⟩⟩

theorem sameReply_digit_iff :
    SameReply definitions scope digit (choice (digits.map char)) (.stream slot stream) log ↔
      ∃ found rest, stream.next = .ok (found, rest) ∧
        ¬∃ c d more, found = .text (String.ofList (c :: d :: more)) ∧ '0' ≤ c ∧ c < '9' := by
  rw [digit, sameReply_element_iff]
  refine exists_congr fun found ↦ exists_congr fun rest ↦ and_congr_right fun _ ↦ ?_
  have hworded : digits.any (found.same ·) = true ∨
      ∃ text, Except.ok (ε := Fault) ("expecting digit, but got '" ++ found.display ++ "'.") =
        .ok text := .inr ⟨_, rfl⟩
  rw [and_iff_left hworded, Except.ok.injEq, isDigitText_eq_any_iff]
  refine or_iff_right_of_imp ?_
  rintro rfl ⟨_, _, _, h, _⟩
  exact nomatch h

theorem sameReply_oneOf_iff {container : Value} (hitems : container.elements? = some items) :
    SameReply definitions scope (oneOf container) (choice (items.map char)) (.stream slot stream)
        log ↔
      ∃ found rest, stream.next = .ok (found, rest) ∧
        (found = .null ∨ found.SuitsClass container) := by
  rw [oneOf, sameReply_element_iff]
  refine exists_congr fun found ↦ exists_congr fun rest ↦ and_congr_right fun _ ↦ or_congr_right ?_
  rw [← Value.judgedAlike_iff found hitems, Value.JudgedAlike]
  refine and_congr_right fun _ ↦ or_congr_right ?_
  cases container.joined with
  | error fault => exact iff_of_false (fun ⟨_, h⟩ ↦ nomatch h) fun ⟨_, h⟩ ↦ nomatch h
  | ok members => exact iff_of_true ⟨_, rfl⟩ ⟨_, rfl⟩

/-- A longer text that lies between zero and nine is taken for a digit. -/
theorem endsWith_digit_of_longer {c d : Char} {more : List Char}
    (hnext : stream.next = .ok (.text (String.ofList (c :: d :: more)), rest)) (hzero : '0' ≤ c)
    (hnine : c < '9') :
    digit.EndsWith definitions scope (.stream slot stream) log
      (.ok (.success (.fresh rest) (.text (String.ofList (c :: d :: more)))), log) := by
  obtain ⟨hle, hne⟩ := (char_lt_iff c '9').mp hnine
  have hdigit := (isDigitText_cons_iff c (d :: more)).mpr ⟨hzero, hle, fun h ↦ absurd h.symm hne⟩
  exact endsWith_element_of_accepted hnext nofun (congrArg Except.ok hdigit)

/-- What does not suit the container is no member of it, and is accepted all the same, or the
matcher raises. -/
theorem endsWith_oneOf_of_not_suitsClass {container : Value}
    (hitems : container.elements? = some items) (hnext : stream.next = .ok (found, rest))
    (hfound : found ≠ .null) (hsuits : ¬found.SuitsClass container) :
    items.any (found.same ·) = false ∧
      ((oneOf container).EndsWith definitions scope (.stream slot stream) log
          (.ok (.success (.fresh rest) found), log) ∨
        ∃ fault, (oneOf container).EndsWith definitions scope (.stream slot stream) log
          (.error fault, log)) := by
  have hother : items.any (found.same ·) = false :=
    Bool.eq_false_iff.mpr (mt (Value.suitsClass_of_member hitems) hsuits)
  refine ⟨hother, ?_⟩
  cases hin : found.isIn container with
  | error fault =>
    exact .inr ⟨fault, raises_of_fault fun _ ↦ Parse.element_of_test_raised hnext hfound hin⟩
  | ok answer =>
    cases answer with
    | true => exact .inl (endsWith_element_of_accepted hnext hfound hin)
    | false =>
      cases hjoined : container.joined with
      | ok members =>
        have hjudged : found.JudgedAlike container items :=
          ⟨hin.trans (congrArg Except.ok hother.symm), .inr ⟨members, hjoined⟩⟩
        exact absurd ((Value.judgedAlike_iff found hitems).mp hjudged) hsuits
      | error fault =>
        have htext : (do
            let members ← container.joined
            return "expecting one of " ++ members ++ ", but got '" ++ found.display ++ "'." :
              Except Fault String) = .error fault := by
          rw [hjoined]
          rfl
        exact .inr ⟨fault, raises_of_fault fun _ ↦
          Parse.element_of_text_raised hnext hfound hin htext⟩

/-- When the matchers of classes of characters agree with the choices among these characters, which
is to have the same reply and not to raise, on a stream over elements of any kind. White space
always agrees, digits unless the next element is a longer text that begins with a digit below nine,
and one element out of a container at the end of the input and on the elements that suit the
container. -/
theorem classes_against_choices (definitions : Definitions) (scope : Scope) (slot : Option Nat)
    (stream : Stream) (log : Log) :
    (∀ (items : List Value) (found : Value) (rest : Stream), stream.next = .ok (found, rest) →
      (found ≠ .null → items.any (found.same ·) = true →
        (choice (items.map char)).EndsWith definitions scope (.stream slot stream) log
          (.ok (.success (.fresh rest) found), log)) ∧
      (found = .null ∨ items.any (found.same ·) = false →
        ∃ log', (choice (items.map char)).Fails definitions scope (.stream slot stream) log
          log')) ∧
    (SameReply definitions scope space (choice (whiteSpace.map char)) (.stream slot stream) log ↔
      ∃ step, stream.next = .ok step) ∧
    (SameReply definitions scope digit (choice (digits.map char)) (.stream slot stream) log ↔
      ∃ found rest, stream.next = .ok (found, rest) ∧
        ¬∃ c d more, found = .text (String.ofList (c :: d :: more)) ∧ '0' ≤ c ∧ c < '9') ∧
    (∀ c d more rest, stream.next = .ok (.text (String.ofList (c :: d :: more)), rest) →
      '0' ≤ c → c < '9' → digit.EndsWith definitions scope (.stream slot stream) log
        (.ok (.success (.fresh rest) (.text (String.ofList (c :: d :: more)))), log)) ∧
    ∀ (container : Value) (items : List Value), container.elements? = some items →
      (SameReply definitions scope (oneOf container) (choice (items.map char))
          (.stream slot stream) log ↔
        ∃ found rest, stream.next = .ok (found, rest) ∧
          (found = .null ∨ found.SuitsClass container)) ∧
      ∀ found rest, stream.next = .ok (found, rest) → found ≠ .null →
        ¬found.SuitsClass container → items.any (found.same ·) = false ∧
          ((oneOf container).EndsWith definitions scope (.stream slot stream) log
              (.ok (.success (.fresh rest) found), log) ∨
            ∃ fault, (oneOf container).EndsWith definitions scope (.stream slot stream) log
              (.error fault, log)) :=
  ⟨fun _ _ _ hnext ↦ ⟨endsWith_choice_char hnext, exists_fails_choice_char hnext⟩,
    sameReply_space_iff, sameReply_digit_iff, fun _ _ _ _ ↦ endsWith_digit_of_longer,
    fun _ _ hitems ↦ ⟨sameReply_oneOf_iff hitems,
      fun _ _ ↦ endsWith_oneOf_of_not_suitsClass hitems⟩⟩

/-- A character of a text, which the class of the characters of the text and the choice among them
have the same reply to. -/
theorem classes_against_choices_letter :
    let start := Stream.ofText "b"
    SameReply .none .top (oneOf (.text "abc")) (choice ([.char 'a', .char 'b', .char 'c'].map char))
      (.fresh start) .empty := by
  intro start
  have hitems : (Value.text "abc").elements? = some [.char 'a', .char 'b', .char 'c'] := rfl
  have hnext : start.next = .ok (.char 'b', ⟨start.source, 1, ⟨0, 1⟩⟩) := rfl
  have hsuits : (Value.char 'b').SuitsClass (.text "abc") := ⟨"b", rfl, .inl rfl⟩
  obtain ⟨-, -, -, -, hcontainers⟩ := classes_against_choices .none .top none start .empty
  obtain ⟨hsame, -⟩ := hcontainers (.text "abc") _ hitems
  exact hsame.mpr ⟨_, _, hnext, .inr hsuits⟩

/-- A text of two characters is taken for a digit, and a part of a text for one of its characters.
The choices among the characters fail on both. A number raises. -/
theorem classes_against_choices_longerText :
    let start := Stream.ofTokens (.list #[.text "10", .text "bc", .int 3])
    let second : Stream := ⟨start.source, 1, ⟨0, 1⟩⟩
    let third : Stream := ⟨start.source, 2, ⟨0, 2⟩⟩
    let letters : List Value := [.char 'a', .char 'b', .char 'c']
    digit.EndsWith .none .top (.fresh start) .empty
        (.ok (.success (.fresh second) (.text "10")), .empty) ∧
      (∃ log', (choice (digits.map char)).Fails .none .top (.fresh start) .empty log') ∧
      (oneOf (.text "abc")).EndsWith .none .top (.fresh second) .empty
        (.ok (.success (.fresh third) (.text "bc")), .empty) ∧
      (∃ log', (choice (letters.map char)).Fails .none .top (.fresh second) .empty log') ∧
      ∃ fault, (oneOf (.text "abc")).EndsWith .none .top (.fresh third) .empty
        (.error fault, .empty) :=
  ⟨endsWith_of_eval 1 .empty rfl, ⟨_, endsWith_of_eval 4 .empty rfl⟩,
    endsWith_of_eval 1 .empty rfl, ⟨_, endsWith_of_eval 4 .empty rfl⟩,
    _, endsWith_of_eval 1 .empty rfl⟩

end Grammar

end DiagnosticParsing
