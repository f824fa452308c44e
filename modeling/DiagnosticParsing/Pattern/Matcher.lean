import DiagnosticParsing.Pattern.Syntax

/-!
# Matching

`Node.matchFrom` matches a pattern with a subject from an index on. It tries the ways in which the
pattern can match one by one, in the order in which the pattern prefers them, and hands each to what
follows until that succeeds. A repetition that has matched the empty text once does not try again.
-/

set_option autoImplicit false

namespace DiagnosticParsing.Pattern

/-- What a pattern is matched with. -/
inductive Subject where
  /-- A text. -/
  | text (chars : Array Char)
  /-- A run of bytes. -/
  | bytes (items : Array UInt8)

namespace Subject

/-- The number of characters. -/
def size : Subject → Nat
  | text chars => chars.size
  | bytes items => items.size

/-- The code point at an index. -/
def code? (subject : Subject) (index : Nat) : Option Nat :=
  match subject with
  | text chars => chars[index]?.map (·.toNat)
  | bytes items => items[index]?.map (·.toNat)

/-- Whether the character at an index is a line feed. -/
def isLineFeed (subject : Subject) (index : Nat) : Bool :=
  subject.code? index == some 10

/-- Whether the character at an index belongs to a word. -/
def isWord (subject : Subject) (ascii : Bool) (index : Nat) : Bool :=
  (subject.code? index).any (Category.word.contains ascii)

/-- Whether an index stands between a word character and something else. -/
def isBoundary (subject : Subject) (ascii : Bool) (index : Nat) : Bool :=
  (index != 0 && subject.isWord ascii (index - 1)) != subject.isWord ascii index

/-- Whether the stretch of a length at one index equals the one at another. -/
def agree (subject : Subject) (folding : Folding) (first second : Nat) : Nat → Bool
  | 0 => true
  | length + 1 =>
    match subject.code? first, subject.code? second with
    | some c, some d =>
      folding.small c == folding.small d && subject.agree folding (first + 1) (second + 1) length
    | _, _ => false

end Subject

/-- What the groups have matched: the start and the end of each. -/
abbrev Captures :=
  Array (Option (Nat × Nat))

/-- A place reached in the subject, with what the groups have matched on the way. -/
structure Reached where
  /-- The index. -/
  index : Nat
  /-- The matches of the groups. -/
  captures : Captures

/-- The rest of a match: from a place reached to the end of the whole match, if there is one. -/
abbrev Continuation :=
  Reached → Option Reached

/-- Whether a node that matches single characters matches a code point; none for other nodes. -/
def Node.matchesCode? : Node → Option (Nat → Bool)
  | single code folding => some fun c ↦ folding.key code == folding.key c
  | any lines => some fun c ↦ lines || c != 10
  | set negated items folding => some fun c ↦ items.any (·.contains folding c) != negated
  | _ => none

/-- The number of characters from an index on, but not more than a bound, that fulfil a test. -/
def Subject.span (subject : Subject) (test : Nat → Bool) (index : Nat) : (bound : Nat) → Nat
  | 0 => 0
  | bound + 1 =>
    if (subject.code? index).any test then subject.span test (index + 1) bound + 1 else 0

/-- Tries what follows after `least + extra` characters, then after one fewer, down to `least`. -/
def tryDown (next : Continuation) (origin : Reached) (least : Nat) : (extra : Nat) → Option Reached
  | 0 => next { origin with index := origin.index + least }
  | extra + 1 =>
    match next { origin with index := origin.index + least + (extra + 1) } with
    | some reached => some reached
    | none => tryDown next origin least extra

/-- Tries what follows after `count` characters, then after one more, up to `count + extra`. -/
def tryUp (next : Continuation) (origin : Reached) (count : Nat) : (extra : Nat) → Option Reached
  | 0 => next { origin with index := origin.index + count }
  | extra + 1 =>
    match next { origin with index := origin.index + count } with
    | some reached => some reached
    | none => tryUp next origin (count + 1) extra

/-- A repetition of single characters, which needs to remember only how many there are. -/
def repeatCode (subject : Subject) (test : Nat → Bool) (least : Nat) (most : Option Nat)
    (greedy : Bool) (origin : Reached) (next : Continuation) : Option Reached :=
  let room := subject.size - origin.index
  let available := subject.span test origin.index ((most.getD room).min room)
  if available < least then none
  else if greedy then tryDown next origin least (available - least)
  else tryUp next origin least (available - least)

/-- A repetition of any pattern. `count` repetitions have been made, and `last` is where the latest
one beyond the least number began. Each repetition takes one unit of `fuel`. -/
def repeatNode (body : Reached → Continuation → Option Reached) (least : Nat) (most : Option Nat)
    (greedy : Bool) (next : Continuation) :
    (fuel : Nat) → (count : Nat) → (last : Option Nat) → Continuation
  | 0, _, _, _ => none
  | fuel + 1, count, last, here =>
    if count < least then
      body here (repeatNode body least most greedy next fuel (count + 1) last)
    else
      let more := most.all (count < ·) && last != some here.index
      let again := fun _ : Unit ↦
        body here (repeatNode body least most greedy next fuel (count + 1) (some here.index))
      if greedy then
        if more then
          match again () with
          | some reached => some reached
          | none => next here
        else next here
      else
        match next here with
        | some reached => some reached
        | none => if more then again () else none

/-- Matches a pattern from a place reached on and hands every way to do so to what follows. -/
def Node.run (subject : Subject) : Node → Reached → Continuation → Option Reached
  | nothing, here, next => next here
  | never, _, _ => none
  | single code folding, here, next =>
    match subject.code? here.index with
    | some c =>
      if folding.key code == folding.key c then next { here with index := here.index + 1 } else none
    | none => none
  | any lines, here, next =>
    match subject.code? here.index with
    | some c => if lines || c != 10 then next { here with index := here.index + 1 } else none
    | none => none
  | set negated items folding, here, next =>
    match subject.code? here.index with
    | some c =>
      if items.any (·.contains folding c) != negated then next { here with index := here.index + 1 }
      else none
    | none => none
  | start lines, here, next =>
    if here.index == 0 || (lines && subject.isLineFeed (here.index - 1)) then next here else none
  | finish lines, here, next =>
    if here.index == subject.size ||
        (subject.isLineFeed here.index && (lines || here.index + 1 == subject.size))
    then next here else none
  | veryEnd, here, next => if here.index == subject.size then next here else none
  | boundary negated ascii, here, next =>
    if subject.size != 0 && subject.isBoundary ascii here.index != negated then next here else none
  | concat first second, here, next =>
    first.run subject here fun there ↦ second.run subject there next
  | either first second, here, next =>
    match first.run subject here next with
    | some reached => some reached
    | none => second.run subject here next
  | group number body, here, next =>
    body.run subject here fun there ↦
      let captures := there.captures.setIfInBounds number (some (here.index, there.index))
      next { there with captures := captures }
  | backReference number folding, here, next =>
    match here.captures[number]?.join with
    | some (first, last) =>
      if subject.agree folding first here.index (last - first) then
        next { here with index := here.index + (last - first) }
      else none
    | none => none
  | conditional number matched unmatched, here, next =>
    if here.captures[number]?.join.isSome then matched.run subject here next
    else unmatched.run subject here next
  | lookAhead negated body, here, next =>
    match body.run subject here some with
    | some there => if negated then none else next { there with index := here.index }
    | none => if negated then next here else none
  | lookBehind negated width body, here, next =>
    if here.index < width then if negated then next here else none
    else
      match body.run subject { here with index := here.index - width } some with
      | some there => if negated then none else next { there with index := here.index }
      | none => if negated then next here else none
  | atomic body, here, next =>
    match body.run subject here some with
    | some there => next there
    | none => none
  | repetition least most greedy body, here, next =>
    match body.matchesCode? with
    | some test => repeatCode subject test least most greedy here next
    | none =>
      repeatNode (body.run subject) least most greedy next (least + subject.size + 3) 0 none here

/-- Matches a pattern with a subject from an index on, with room for a number of groups. The answer
is the index at which the match ends. -/
def Node.matchFrom (node : Node) (groups : Nat) (subject : Subject) (index : Nat) : Option Nat :=
  (node.run subject ⟨index, Array.replicate groups none⟩ some).map (·.index)

end DiagnosticParsing.Pattern
