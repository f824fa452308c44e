import DiagnosticParsing.Proofs.Correspondence.Parsers

/-!
# Runs that raise nothing

A run is safe for a condition when it raises no fault, whatever the journal is, and its result
satisfies the condition if it comes to one (`Run.Safe`). What the cells hold can matter to a run. So
safety is relative to a condition on memories, which the run keeps. A parser is safe on a text for a
*shape*, a condition on values, when it is safe at every place in the text: it fails, or succeeds
with a value of the shape and leaves a place in the same text (`Parse.Safe`).

A step over a text never raises, not even behind its end (`Stream.next_text`). What can raise is a
function that is applied to a value it was not made for. Each way of building a parser has a law
that names the shape of the values of its parts and asks of the functions it applies that they
return on values of this shape.
-/

set_option autoImplicit false

namespace DiagnosticParsing

variable {α β : Type}

/-- The outcome is no fault, and a result satisfies a condition and leaves a good memory. -/
def Outcome.Safe (good : Memory → Prop) (post : α → Prop) : Outcome α → Prop
  | .done a final => post a ∧ good final.memory
  | .faulted _ _ => False
  | .unfinished => True

/-- The call returns, with a result that satisfies a condition. -/
def Call.Returns (call : Call α) (post : α → Prop) : Prop :=
  ∃ a, call.outcome = .ok a ∧ post a

theorem Call.Returns.bind {call : Call α} {next : α → Call β} {post : α → Prop}
    {target : β → Prop} (h : call.Returns post) (hnext : ∀ a, post a → (next a).Returns target) :
    (call >>= next).Returns target := by
  obtain ⟨a, houtcome, ha⟩ := h
  obtain ⟨b, hb, htarget⟩ := hnext a ha
  refine ⟨b, ?_, htarget⟩
  change (call.bind next).outcome = .ok b
  simp only [Call.bind, houtcome, hb]

namespace Run

/-- From every journal with a good memory the run raises no fault, and a result satisfies a
condition and leaves a good memory. -/
def Safe (good : Memory → Prop) (run : Run α) (post : α → Prop) : Prop :=
  ∀ journal, good journal.memory → (run journal).Safe good post

variable {good : Memory → Prop} {post : α → Prop} {target : β → Prop}

theorem Safe.mono {weaker : α → Prop} {run : Run α} (h : run.Safe good post)
    (hweaker : ∀ a, post a → weaker a) : run.Safe good weaker := by
  intro journal hgood
  have houtcome := h journal hgood
  cases hrun : run journal with
  | done a final =>
    rw [hrun] at houtcome
    exact ⟨hweaker a houtcome.1, houtcome.2⟩
  | faulted fault final =>
    rw [hrun] at houtcome
    exact houtcome
  | unfinished => trivial

theorem Safe.bind {run : Run α} {next : α → Run β} (h : run.Safe good post)
    (hnext : ∀ a, post a → (next a).Safe good target) : (run >>= next).Safe good target := by
  intro journal hgood
  have houtcome := h journal hgood
  rw [bind_apply]
  cases hrun : run journal with
  | done a final =>
    rw [hrun] at houtcome
    exact hnext a houtcome.1 final houtcome.2
  | faulted fault final =>
    rw [hrun] at houtcome
    exact houtcome
  | unfinished => trivial

theorem safe_pure {a : α} (h : post a) : (pure a : Run α).Safe good post :=
  fun _ hgood ↦ ⟨h, hgood⟩

theorem safe_unfinished : (unfinished : Run α).Safe good post :=
  fun _ _ ↦ trivial

theorem safe_ofExcept {outcome : Except Fault α} (h : ∃ a, outcome = .ok a ∧ post a) :
    (ofExcept outcome).Safe good post := by
  obtain ⟨a, rfl, ha⟩ := h
  exact fun _ hgood ↦ ⟨ha, hgood⟩

theorem safe_ofCall {call : Call α} (h : call.Returns post) : (ofCall call).Safe good post := by
  obtain ⟨a, houtcome, ha⟩ := h
  intro journal hgood
  simp only [ofCall, houtcome]
  exact ⟨ha, hgood⟩

/-- A fault that is an answer is no fault of the run. -/
theorem safe_attempt (call : Call α) :
    (attempt call).Safe good fun outcome ↦ outcome = call.outcome :=
  fun _ hgood ↦ ⟨rfl, hgood⟩

theorem safe_mark : mark.Safe good fun _ ↦ True :=
  fun _ hgood ↦ ⟨trivial, hgood⟩

theorem safe_rollback (mark : Nat) : (rollback mark).Safe good fun _ ↦ True :=
  fun _ hgood ↦ ⟨trivial, hgood⟩

theorem safe_complain (message : Message) : (complain message).Safe good fun _ ↦ True :=
  fun _ hgood ↦ ⟨trivial, hgood⟩

theorem safe_note (n : Note) : (note n).Safe good fun _ ↦ True :=
  fun _ hgood ↦ ⟨trivial, hgood⟩

theorem safe_foldlM {step : β → α → Run β} {items : List α}
    (hstep : ∀ b a, target b → a ∈ items → (step b a).Safe good target) :
    ∀ start, target start → (items.foldlM step start).Safe good target := by
  induction items with
  | nil => exact fun _ hstart ↦ safe_pure hstart
  | cons item rest ih =>
    intro start hstart
    rw [List.foldlM_cons]
    refine (hstep start item hstart (List.mem_cons_self ..)).bind fun b hb ↦ ?_
    exact ih (fun b a hb ha ↦ hstep b a hb (List.mem_cons_of_mem item ha)) b hb

end Run

/-! ### Streams over a text -/

namespace Stream

variable {chars : Array Char} {stream : Stream}

/-- A step over a text stays at the end of it, or takes a character. -/
theorem next_text (h : stream.source = .text chars) :
    stream.next = .ok (.null, stream) ∨
      ∃ c rest, stream.next = .ok (.char c, rest) ∧ rest.source = .text chars := by
  simp only [next, current?, data, h, Source.data, Sequence.get?]
  cases chars[stream.index]? with
  | none => exact .inl rfl
  | some c => exact .inr ⟨c, _, rfl, rfl⟩

theorem advance_text (h : stream.source = .text chars) (count : Nat) :
    ∃ rest, stream.advance count = .ok rest ∧ rest.source = .text chars := by
  induction count generalizing stream with
  | zero => exact ⟨stream, rfl, h⟩
  | succ count ih =>
    unfold advance
    rcases next_text h with hnext | ⟨c, rest, hnext, hrest⟩
    · rw [hnext]
      exact ih h
    · rw [hnext]
      exact ih hrest

end Stream

/-- The place is in the text. -/
def Place.OnText (chars : Array Char) : Place → Prop
  | .stream _ s => s.source = .text chars
  | .stray _ => False

/-- The reply is a failure, or a success with a value of the shape that leaves a place in the
text. -/
def Reply.OnText (chars : Array Char) (shape : Value → Prop) : Reply → Prop
  | .failure => True
  | .success rest value => rest.OnText chars ∧ shape value
  | .malformed _ => False

namespace Parse

open Run

/-- At every place in the text and with every good memory, the parser raises nothing. It fails, or
succeeds with a value of the shape, and leaves a good memory. -/
def Safe (good : Memory → Prop) (chars : Array Char) (p : Parse) (shape : Value → Prop) : Prop :=
  ∀ place, place.OnText chars → (p place).Safe good (Reply.OnText chars shape)

variable {good : Memory → Prop} {chars : Array Char} {p q r op : Parse} {place : Place}
  {shape first second third given operator : Value → Prop}

/-- What follows a parser is run on a failure, or on a success with a value of the shape. -/
theorem Safe.bind {post : α → Prop} (hp : Safe good chars p given) (hplace : place.OnText chars)
    {next : Reply → Run α} (hfailure : (next .failure).Safe good post)
    (hsuccess : ∀ rest value, rest.OnText chars → given value →
      (next (.success rest value)).Safe good post) :
    (p place >>= next).Safe good post := by
  refine (hp place hplace).bind fun reply hreply ↦ ?_
  cases reply with
  | failure => exact hfailure
  | success rest value => exact hsuccess rest value hreply.1 hreply.2
  | malformed v => exact hreply.elim

theorem safe_failure : (pure .failure : Run Reply).Safe good (Reply.OnText chars shape) :=
  safe_pure trivial

theorem safe_success {v : Value} (hplace : place.OnText chars) (hv : shape v) :
    (pure (.success place v) : Run Reply).Safe good (Reply.OnText chars shape) :=
  safe_pure ⟨hplace, hv⟩

theorem safe_giveUp (hplace : place.OnText chars) (text : String) :
    (giveUp place text).Safe good (Reply.OnText chars shape) := by
  cases place with
  | stream slot s => exact (safe_complain ⟨.error, s.position, text⟩).bind fun _ _ ↦ safe_failure
  | stray v => exact hplace.elim

theorem safe_andThen {next : Place → Value → Run Reply} (hp : Safe good chars p given)
    (hnext : ∀ rest value, rest.OnText chars → given value →
      (next rest value).Safe good (Reply.OnText chars shape)) :
    Safe good chars (andThen p next) shape :=
  fun _ hplace ↦ hp.bind hplace safe_failure hnext

/-! ### Parsers without parts -/

theorem safe_succeed (v : Value) : Safe good chars (succeed v) (· = v) :=
  fun _ hplace ↦ safe_success hplace rfl

theorem safe_empty : Safe good chars empty shape :=
  fun _ _ ↦ safe_failure

theorem safe_eof : Safe good chars eof (· = .null) := by
  intro place hplace
  cases place with
  | stream slot stream =>
    simp only [eof, Place.stream?, ofExcept_ok_bind]
    by_cases hempty : stream.isEmpty = true
    · rw [if_pos hempty]
      exact safe_success hplace rfl
    · rw [if_neg hempty]
      exact safe_giveUp hplace _
  | stray v => exact hplace.elim

theorem safe_element {test : Value → Except Fault Bool} {describe : Value → Except Fault String}
    (htest : ∀ c, ∃ passed, test (.char c) = .ok passed)
    (hdescribe : ∀ c, ∃ text, describe (.char c) = .ok text) :
    Safe good chars (element test describe) fun v ↦ ∃ c, v = .char c ∧ test v = .ok true := by
  intro place hplace
  cases place with
  | stream slot s =>
    have hsource : s.source = .text chars := hplace
    simp only [element, Place.stream?, ofExcept_ok_bind]
    rcases Stream.next_text hsource with hnext | ⟨c, rest, hnext, hrest⟩
    · simp only [hnext, ofExcept_ok_bind]
      exact safe_giveUp hplace _
    · obtain ⟨passed, hpassed⟩ := htest c
      obtain ⟨text, htext⟩ := hdescribe c
      simp only [Value.char] at hpassed htext
      simp only [hnext, Value.char, hpassed, htext, ofExcept_ok_bind]
      cases passed with
      | true => exact safe_success hrest ⟨c, rfl, hpassed⟩
      | false => exact safe_giveUp hplace text
  | stray v => exact hplace.elim

theorem safe_token {test describe : Value → Call Value}
    (htest : ∀ c, (test (.char c)).Returns fun v ↦ v = .null ∨ shape v)
    (hdescribe : ∀ c, (describe (.char c)).Returns fun _ ↦ True) :
    Safe good chars (token test describe) shape := by
  intro place hplace
  cases place with
  | stream slot s =>
    have hsource : s.source = .text chars := hplace
    simp only [token, Place.stream?, ofExcept_ok_bind]
    rcases Stream.next_text hsource with hnext | ⟨c, rest, hnext, hrest⟩
    · simp only [hnext, ofExcept_ok_bind]
      exact safe_giveUp hplace _
    · simp only [hnext, Value.char, ofExcept_ok_bind]
      refine (safe_ofCall (htest c)).bind fun v hv ↦ ?_
      split
      · exact (safe_ofCall (hdescribe c)).bind fun _ _ ↦ safe_giveUp hplace _
      · rename_i hnull
        exact safe_success hrest (hv.resolve_left hnull)
  | stray v => exact hplace.elim

/-- Elements are expected one by one without a fault. -/
theorem expectAll_text (items : List Value) :
    ∀ {s : Stream}, s.source = .text chars → ∃ found, expectAll items s = .ok found ∧
      ∀ rest, found = some rest → rest.source = .text chars := by
  induction items with
  | nil => exact fun {s} hs ↦ ⟨some s, rfl, fun rest hrest ↦ Option.some.inj hrest ▸ hs⟩
  | cons expected more ih =>
    have hstep {found : Value} {s rest : Stream} (hnext : s.next = .ok (found, rest))
        (hrest : rest.source = .text chars) :
        ∃ result, expectAll (expected :: more) s = .ok result ∧
          ∀ rest, result = some rest → rest.source = .text chars := by
      simp only [expectAll, hnext]
      by_cases hsame : found.same expected = true
      · obtain ⟨result, hresult, hsource⟩ := ih hrest
        refine ⟨result, ?_, hsource⟩
        rw [← hresult]
        exact if_pos hsame
      · exact ⟨none, if_neg hsame, fun rest h ↦ absurd h.symm (Option.some_ne_none rest)⟩
    intro s hs
    rcases Stream.next_text hs with hnext | ⟨c, rest, hnext, hrest⟩
    · exact hstep hnext hs
    · exact hstep hnext hrest

theorem safe_literal {v : Value} {items : List Value} (hitems : v.elements = .ok items) :
    Safe good chars (literal v) (· = v) := by
  intro place hplace
  cases place with
  | stream slot s =>
    obtain ⟨found, hfound, hsource⟩ := expectAll_text items hplace
    simp only [literal, hitems, ofExcept_ok_bind, hfound]
    cases found with
    | none => exact safe_giveUp hplace _
    | some rest => exact safe_success (hsource rest rfl) rfl
  | stray w => exact hplace.elim

/-- A pattern read from a text can be tried on a text. -/
theorem safe_regex {pattern : Pattern} (htext : pattern.overBytes = false) :
    Safe good chars (regex pattern) fun v ↦ ∃ text, v = .text text := by
  intro place hplace
  cases place with
  | stream slot s =>
    have hsource : s.source = .text chars := hplace
    have hfind : ∃ found, pattern.find (.text chars) s.index = .ok found ∧
        ∀ part, found = some part → ∃ text, part.value = .text text := by
      simp only [Pattern.find, htext]
      refine ⟨_, rfl, fun part hpart ↦ ?_⟩
      obtain ⟨stop, -, rfl⟩ := Option.map_eq_some_iff.mp hpart
      exact ⟨_, rfl⟩
    obtain ⟨found, hfound, hvalue⟩ := hfind
    have hbuffer : s.buffer = (.text chars, s.index) := by
      simp only [Stream.buffer, Stream.data, hsource, Source.data]
    simp only [regex, Place.stream?, ofExcept_ok_bind, hbuffer, hfound]
    cases found with
    | none => exact safe_giveUp hplace _
    | some part =>
      obtain ⟨rest, hrest, hsource'⟩ := Stream.advance_text hsource (part.stop - s.index)
      simp only [hrest, ofExcept_ok_bind]
      exact safe_success hsource' (hvalue part rfl)
  | stray v => exact hplace.elim

/-! ### Values -/

theorem safe_map {f : Value → Call Value} (hp : Safe good chars p given)
    (hf : ∀ v, given v → (f v).Returns shape) : Safe good chars (map p f) shape :=
  safe_andThen hp fun _ _ hrest hv ↦
    (safe_ofCall (hf _ hv)).bind fun _ hmapped ↦ safe_success hrest hmapped

theorem safe_mapOption {f : Value → Call Value} (hp : Safe good chars p given)
    (hf : ∀ v, given v → (f v).Returns fun mapped ↦ mapped = .null ∨ shape mapped) :
    Safe good chars (mapOption p f) shape := by
  refine safe_andThen hp fun rest v hrest hv ↦ (safe_ofCall (hf v hv)).bind fun mapped hmapped ↦ ?_
  split
  · exact safe_failure
  · rename_i hnull
    exact safe_success hrest (hmapped.resolve_left hnull)

/-- The function may raise, which makes the parser fail. -/
theorem safe_mapResult {f : Value → Call Value} (hp : Safe good chars p given)
    (hf : ∀ v, given v → ∀ mapped, (f v).outcome = .ok mapped → shape mapped) :
    Safe good chars (mapResult p f) shape := by
  intro place hplace
  refine safe_andThen hp (fun rest v hrest hv ↦ ?_) place hplace
  refine (safe_attempt (f v)).bind fun outcome houtcome ↦ ?_
  cases outcome with
  | ok mapped => exact safe_success hrest (hf v hv mapped houtcome.symm)
  | error fault => exact safe_giveUp hplace _

theorem safe_compose (hp : Safe good chars p operator) (hq : Safe good chars q given)
    (happly : ∀ f v, operator f → given v → (f.apply v).Returns shape) :
    Safe good chars (compose p q) shape :=
  safe_andThen hp fun middle f hmiddle hf ↦ safe_andThen hq (fun _ v hrest hv ↦
    (safe_ofCall (happly f v hf hv)).bind fun _ hresult ↦ safe_success hrest hresult) middle hmiddle

theorem safe_chooseNext {choose : Value → Call Unit} {next : Value → Parse}
    (hp : Safe good chars p given) (hchoose : ∀ v, given v → (choose v).Returns fun _ ↦ True)
    (hnext : ∀ v, given v → Safe good chars (next v) shape) :
    Safe good chars (chooseNext p choose next) shape :=
  safe_andThen hp fun rest v hrest hv ↦
    (safe_ofCall (hchoose v hv)).bind fun _ _ ↦ hnext v hv rest hrest

/-! ### One parser after another -/

theorem safe_both (hp : Safe good chars p first) (hq : Safe good chars q second) :
    Safe good chars (both p q) fun v ↦ ∃ a b, v = .tuple [a, b] ∧ first a ∧ second b :=
  safe_andThen hp fun middle a hmiddle ha ↦ safe_andThen hq
    (fun _ b hrest hb ↦ safe_success hrest ⟨a, b, rfl, ha, hb⟩) middle hmiddle

theorem safe_left (hp : Safe good chars p first) (hq : Safe good chars q second) :
    Safe good chars (left p q) first :=
  fun _ hplace ↦ hp.bind hplace safe_failure fun _ _ hmiddle ha ↦
    hq.bind hmiddle safe_failure fun _ _ hrest _ ↦ safe_success hrest ha

theorem safe_right (hp : Safe good chars p first) (hq : Safe good chars q second) :
    Safe good chars (right p q) second :=
  fun _ hplace ↦ hp.bind hplace safe_failure fun middle _ hmiddle _ ↦ hq middle hmiddle

theorem safe_mid (hp : Safe good chars p first) (hq : Safe good chars q second)
    (hr : Safe good chars r third) :
    Safe good chars (mid p q r) second :=
  fun _ hplace ↦ hp.bind hplace safe_failure fun _ _ hmiddle _ ↦
    hq.bind hmiddle safe_failure fun _ _ hlast hb ↦
      hr.bind hlast safe_failure fun _ _ hrest _ ↦ safe_success hrest hb

/-- The value is a list, and its elements are of a shape. -/
def ListOf (given : Value → Prop) (v : Value) : Prop :=
  ∃ values, v = .list values ∧ ∀ w ∈ values, given w

theorem listOf_reverse {values : List Value} (h : ∀ w ∈ values, given w) :
    ListOf given (.list values.reverse) :=
  ⟨values.reverse, rfl, fun w hw ↦ h w (List.mem_reverse.mp hw)⟩

theorem safe_countFrom (hp : Safe good chars p given) (n : Nat) :
    ∀ values, (∀ w ∈ values, given w) →
      Safe good chars (countFrom p n · values) (ListOf given) := by
  induction n with
  | zero => exact fun _ hvalues _ hplace ↦ safe_success hplace (listOf_reverse hvalues)
  | succ n ih =>
    intro values hvalues
    exact safe_andThen hp fun rest value hrest hvalue ↦
      ih (value :: values) (List.forall_mem_cons.mpr ⟨hvalue, hvalues⟩) rest hrest

/-! ### Alternatives -/

theorem safe_either (hp : Safe good chars p shape) (hq : Safe good chars q shape) :
    Safe good chars (either p q) shape :=
  fun place hplace ↦ safe_mark.bind fun mark _ ↦ hp.bind hplace
    ((safe_rollback mark).bind fun _ _ ↦ hq place hplace) fun _ _ hrest hv ↦ safe_success hrest hv

theorem safe_optional (hp : Safe good chars p given) :
    Safe good chars (optional p) fun v ↦ v = .null ∨ given v :=
  fun _ hplace ↦ safe_mark.bind fun mark _ ↦ hp.bind hplace
    ((safe_rollback mark).bind fun _ _ ↦ safe_success hplace (.inl rfl))
    fun _ _ hrest hv ↦ safe_success hrest (.inr hv)

/-! ### Repetition and chains -/

section Repetition

variable {σ : Type} {inv : σ → Prop} {bound : Nat}

/-- A round gives up, or goes on in the text with what keeps an invariant. -/
def GoesOn (chars : Array Char) (inv : σ → Prop) (found : Option (Place × σ)) : Prop :=
  ∀ rest more, found = some (rest, more) → rest.OnText chars ∧ inv more

theorem goesOn_none : GoesOn chars inv none :=
  fun _ _ h ↦ absurd h.symm (Option.some_ne_none _)

theorem goesOn_some {rest : Place} {more : σ} (hrest : rest.OnText chars) (hmore : inv more) :
    GoesOn chars inv (some (rest, more)) := by
  rintro _ _ ⟨⟩
  exact ⟨hrest, hmore⟩

/-- What each round keeps, all rounds keep. -/
theorem safe_rounds {round : Round σ}
    (hround : ∀ place gathered, place.OnText chars → inv gathered →
      (round place gathered).Safe good (GoesOn chars inv)) :
    ∀ bound place gathered, place.OnText chars → inv gathered →
      (rounds bound round place gathered).Safe good fun result ↦
        result.1.OnText chars ∧ inv result.2 := by
  intro bound
  induction bound with
  | zero => exact fun _ _ _ _ ↦ safe_unfinished
  | succ bound ih =>
    intro place gathered hplace hgathered
    refine (hround place gathered hplace hgathered).bind fun found hfound ↦ ?_
    cases found with
    | none => exact safe_pure ⟨hplace, hgathered⟩
    | some found =>
      obtain ⟨hrest, hmore⟩ := hfound found.1 found.2 rfl
      exact ih found.1 found.2 hrest hmore

theorem safe_attempt_round (hp : Safe good chars p given) {values : List Value}
    (hplace : place.OnText chars) (hvalues : ∀ w ∈ values, given w) :
    (attempt p place values).Safe good (GoesOn chars fun values ↦ ∀ w ∈ values, given w) :=
  safe_mark.bind fun mark _ ↦ hp.bind hplace
    ((safe_rollback mark).bind fun _ _ ↦ safe_pure goesOn_none)
    fun _ _ hrest hvalue ↦ safe_pure
      (goesOn_some hrest (List.forall_mem_cons.mpr ⟨hvalue, hvalues⟩))

theorem safe_link (hp : Safe good chars p given) (hop : Safe good chars op operator)
    (hplace : place.OnText chars) :
    (link p op place).Safe good
      (GoesOn chars fun next ↦ operator next.operator ∧ given next.operand) :=
  safe_mark.bind fun mark _ ↦ hop.bind hplace
    ((safe_rollback mark).bind fun _ _ ↦ safe_pure goesOn_none) fun _ _ hmiddle hf ↦
      hp.bind hmiddle ((safe_rollback mark).bind fun _ _ ↦ safe_pure goesOn_none)
        fun _ _ hrest hv ↦ safe_pure (goesOn_some hrest ⟨hf, hv⟩)

theorem safe_collect (hp : Safe good chars p given) {values : List Value}
    (hplace : place.OnText chars) (hvalues : ∀ w ∈ values, given w) :
    (collect (rounds bound) p place values).Safe good (Reply.OnText chars (ListOf given)) := by
  refine (safe_rounds (fun _ _ ↦ safe_attempt_round hp) bound place values hplace hvalues).bind ?_
  exact fun result hresult ↦ safe_success hresult.1 (listOf_reverse hresult.2)

theorem safe_many (hp : Safe good chars p given) :
    Safe good chars (many bound p) (ListOf given) := by
  rw [many_eq]
  exact fun _ hplace ↦ safe_collect hp hplace fun _ h ↦ nomatch h

theorem safe_oneOrMore (hp : Safe good chars p given) :
    Safe good chars (oneOrMore bound p) (ListOf given) := by
  rw [oneOrMore_eq]
  refine safe_andThen hp fun rest first hrest hfirst ↦ safe_collect hp hrest fun w hw ↦ ?_
  rwa [List.mem_singleton.mp hw]

theorem safe_chainLeft (hp : Safe good chars p given) (hop : Safe good chars op operator)
    (hfirst : ∀ v, given v → shape v)
    (happly : ∀ f x y, operator f → shape x → given y → (f.apply₂ x y).Returns shape) :
    Safe good chars (chainLeft bound p op) shape := by
  have hround (place : Place) (combined : Value) (hplace : place.OnText chars)
      (hcombined : shape combined) :
      (combine p op place combined).Safe good (GoesOn chars shape) := by
    refine (safe_link hp hop hplace).bind fun found hfound ↦ ?_
    cases found with
    | none => exact safe_pure goesOn_none
    | some found =>
      obtain ⟨hrest, hf, hv⟩ := hfound found.1 found.2 rfl
      exact (safe_ofCall (happly _ _ _ hf hcombined hv)).bind fun _ hresult ↦
        safe_pure (goesOn_some hrest hresult)
  rw [chainLeft_eq]
  refine safe_andThen hp fun rest first hrest hvalue ↦ ?_
  refine (safe_rounds hround bound rest first hrest (hfirst first hvalue)).bind ?_
  exact fun result hresult ↦ safe_success hresult.1 hresult.2

theorem safe_chainRight (hp : Safe good chars p given) (hop : Safe good chars op operator)
    (hlast : ∀ v, given v → shape v)
    (happly : ∀ f x y, operator f → given x → shape y → (f.apply₂ x y).Returns shape) :
    Safe good chars (chainRight bound p op) shape := by
  -- The last operand, and the links before it with their operands on the left.
  let inv (gathered : Value × List Link) : Prop :=
    given gathered.1 ∧ ∀ pending ∈ gathered.2, operator pending.operator ∧ given pending.operand
  have hround (place : Place) (gathered : Value × List Link) (hplace : place.OnText chars)
      (hgathered : inv gathered) : (gather p op place gathered).Safe good (GoesOn chars inv) := by
    refine (safe_link hp hop hplace).bind fun found hfound ↦ ?_
    cases found with
    | none => exact safe_pure goesOn_none
    | some found =>
      obtain ⟨hrest, hf, hv⟩ := hfound found.1 found.2 rfl
      exact safe_pure (goesOn_some hrest
        ⟨hv, List.forall_mem_cons.mpr ⟨⟨hf, hgathered.1⟩, hgathered.2⟩⟩)
  rw [chainRight_eq]
  refine safe_andThen hp fun rest first hrest hvalue ↦ ?_
  have hstart : inv (first, []) := ⟨hvalue, fun _ h ↦ nomatch h⟩
  refine (safe_rounds hround bound rest (first, []) hrest hstart).bind fun result hresult ↦ ?_
  obtain ⟨hrest, hoperand, hlinks⟩ := hresult
  refine (safe_foldlM (fun combined pending hcombined hpending ↦ ?_) _ (hlast _ hoperand)).bind ?_
  · obtain ⟨hf, hv⟩ := hlinks pending hpending
    exact safe_ofCall (happly _ _ _ hf hv hcombined)
  · exact fun combined hcombined ↦ safe_success hrest hcombined

end Repetition

/-! ### Looking without consuming -/

theorem safe_lookAhead (hp : Safe good chars p shape) : Safe good chars (lookAhead p) shape :=
  fun _ hplace ↦ hp.bind hplace safe_failure fun _ _ _ hv ↦ safe_success hplace hv

theorem safe_notFollowedBy (hp : Safe good chars p given) :
    Safe good chars (notFollowedBy p) (· = .null) :=
  fun _ hplace ↦ safe_mark.bind fun mark _ ↦ hp.bind hplace
    ((safe_rollback mark).bind fun _ _ ↦ safe_success hplace rfl)
    fun _ _ _ _ ↦ (safe_rollback mark).bind fun _ _ ↦ safe_giveUp hplace _

/-! ### Diagnostics and cells -/

theorem safe_annotate (severity : Severity) (text : String) (hp : Safe good chars p shape) :
    Safe good chars (annotate severity p text) shape := by
  intro place hplace
  cases place with
  | stream slot s =>
    exact (safe_complain ⟨severity, s.position, text⟩).bind fun _ _ ↦ hp _ hplace
  | stray v => exact hplace.elim

theorem safe_label (name : String) (hp : Safe good chars p shape) :
    Safe good chars (label p name) shape :=
  fun _ hplace ↦ hp.bind hplace (safe_giveUp hplace _) fun _ _ hrest hv ↦ safe_success hrest hv

theorem safe_inspect {observe : Place → Reply → Call Unit} (hp : Safe good chars p shape)
    (hobserve : ∀ place reply, place.OnText chars → reply.OnText chars shape →
      (observe place reply).Returns fun _ ↦ True) :
    Safe good chars (inspect p observe) shape :=
  fun place hplace ↦ (hp place hplace).bind fun reply hreply ↦
    (safe_ofCall (hobserve place reply hplace hreply)).bind fun _ _ ↦ safe_pure hreply

theorem safe_recover {default : Value} (hp : Safe good chars p shape) (hdefault : shape default) :
    Safe good chars (recover p default) shape :=
  fun _ hplace ↦ hp.bind hplace (safe_success hplace hdefault) fun _ _ hrest hv ↦
    safe_success hrest hv

theorem safe_trace (name : String) (hp : Safe good chars p shape) :
    Safe good chars (trace name p) shape := by
  intro place hplace
  cases place with
  | stream slot s =>
    simp only [trace, Place.position, Place.preview, Place.stream?, Except.map, ofExcept_ok_bind]
    refine (safe_note (.entered name s.position s.preview)).bind fun _ _ ↦ hp.bind hplace ?_ ?_
    · exact (safe_note (.backtracked name s.position)).bind fun _ _ ↦ safe_failure
    · intro rest value hrest hvalue
      cases rest with
      | stream slot' s' =>
        exact (safe_note (.matched name value s'.position)).bind fun _ _ ↦
          safe_success hrest hvalue
      | stray v => exact hrest.elim
  | stray v => exact hplace.elim

end Parse

end DiagnosticParsing
