import DiagnosticParsing.Text.Alphabetic
import DiagnosticParsing.Text.Cased
import DiagnosticParsing.Text.Numeral
import DiagnosticParsing.Text.Numeric

/-!
# Syntax of patterns

A regular pattern is a `Node`. Characters are code points, so that a pattern can be matched with
texts and with runs of bytes alike. What the flags of a pattern decide is written into the nodes:
whether case counts (`Folding`), whether the classes know ASCII only, where lines end.
-/

set_option autoImplicit false

namespace DiagnosticParsing.Pattern

/-- How far two characters may differ in case. -/
inductive Folding where
  /-- Not at all. -/
  | exact
  /-- In the letters of ASCII. -/
  | ascii
  /-- In every letter. -/
  | full
  deriving DecidableEq

/-- The character that stands for all those that differ from a character in case only. -/
def Folding.key (folding : Folding) (code : Nat) : Nat :=
  match folding with
  | exact => code
  | ascii => if 65 ≤ code && code ≤ 90 then code + 32 else code
  | full => (Text.toUpper (Text.toLower (Char.ofNat code))).toNat

/-- The small form of a character, by which a reference compares what a group matched. -/
def Folding.small (folding : Folding) (code : Nat) : Nat :=
  match folding with
  | exact => code
  | ascii => folding.key code
  | full => (Text.toLower (Char.ofNat code)).toNat

/-- Whether some character from one code point up to another differs from a character in case at
most. -/
def Folding.meets (folding : Folding) (low high code : Nat) : Bool :=
  let inRange := fun c : Nat ↦ low ≤ c && c ≤ high
  let key := folding.key code
  match folding with
  | exact => inRange code
  | ascii => inRange code || inRange key || 97 ≤ key && key ≤ 122 && inRange (key - 32)
  | full =>
    inRange code || inRange (folding.small code) ||
      ((Text.upperSources (Char.ofNat key)).flatMap Text.lowerSources).any fun c ↦
        inRange c.toNat && folding.key c.toNat == key

/-- A class of characters with a name of its own. -/
inductive Category where
  /-- Decimal digits. -/
  | digit
  /-- White space. -/
  | space
  /-- Letters, digits and the underscore. -/
  | word
  deriving DecidableEq

/-- Whether a code point belongs to a class, of ASCII only or of all characters. -/
def Category.contains (category : Category) (ascii : Bool) (code : Nat) : Bool :=
  let c := Char.ofNat code
  match category with
  | digit => if ascii then c.isDigit else Text.isDecimal c
  | space => if ascii then code == 32 || (9 ≤ code && code ≤ 13) else Text.isBlank c
  | word =>
    code == 95 ||
      if ascii then c.isAlphanum else Text.isAlphabetic c || Text.isNumeric c

/-- A part of a character set. -/
inductive SetItem where
  /-- One character. -/
  | single (code : Nat)
  /-- The characters from one to another. -/
  | range (low high : Nat)
  /-- A class or, when negated, the characters outside it. -/
  | category (kind : Category) (ascii negated : Bool)

/-- Whether a part of a character set matches a code point. -/
def SetItem.contains (item : SetItem) (folding : Folding) (code : Nat) : Bool :=
  match item with
  | single c => folding.key c == folding.key code
  | range low high => folding.meets low high code
  | category kind ascii negated => kind.contains ascii code != negated

/-- A regular pattern. -/
inductive Node where
  /-- Matches nothing at all, at once. -/
  | nothing
  /-- Never matches. -/
  | never
  /-- A character. -/
  | single (code : Nat) (folding : Folding)
  /-- Any character, the line feed only if `lines`. -/
  | any (lines : Bool)
  /-- A character of a set or, when negated, outside it. -/
  | set (negated : Bool) (items : List SetItem) (folding : Folding)
  /-- The start of the input or, if `lines`, of a line. -/
  | start (lines : Bool)
  /-- The end of the input, before a line feed at the end, or, if `lines`, the end of a line. -/
  | finish (lines : Bool)
  /-- The end of the input and nowhere else. -/
  | veryEnd
  /-- A place between a word character and another one, or, when negated, any other place. -/
  | boundary (negated ascii : Bool)
  /-- One pattern after the other. -/
  | concat (first second : Node)
  /-- One pattern or, when what follows fails, the other. -/
  | either (first second : Node)
  /-- A pattern whose match is remembered under a number. -/
  | group (number : Nat) (body : Node)
  /-- What a group matched. -/
  | backReference (number : Nat) (folding : Folding)
  /-- One pattern if a group has matched and another one if not. -/
  | conditional (number : Nat) (matched unmatched : Node)
  /-- A pattern that must match or, when negated, must not match what follows. -/
  | lookAhead (negated : Bool) (body : Node)
  /-- A pattern of fixed width that must match or, when negated, must not match what precedes. -/
  | lookBehind (negated : Bool) (width : Nat) (body : Node)
  /-- The way of matching that a pattern prefers, and no other. -/
  | atomic (body : Node)
  /-- A pattern repeated, as often as possible or, if not greedy, as rarely as possible. -/
  | repetition (least : Nat) (most : Option Nat) (greedy : Bool) (body : Node)

/-- Patterns one after the other. -/
def Node.sequence : List Node → Node
  | [] => .nothing
  | [node] => node
  | node :: rest => .concat node (sequence rest)

/-- The least and the greatest number of characters a match can have; none when there is no
greatest. -/
structure Width where
  /-- The least number. -/
  least : Nat
  /-- The greatest number. -/
  most : Option Nat
  deriving DecidableEq

namespace Width

/-- A fixed width. -/
def fixed (count : Nat) : Width :=
  ⟨count, some count⟩

/-- The width of one match after another. -/
def add (first second : Width) : Width :=
  ⟨first.least + second.least, do return (← first.most) + (← second.most)⟩

/-- The width of a match of one kind or another. -/
def union (first second : Width) : Width :=
  ⟨min first.least second.least, do return max (← first.most) (← second.most)⟩

/-- The width of a match repeated. -/
def times (width : Width) (least : Nat) (most : Option Nat) : Width :=
  ⟨width.least * least,
    if width.most == some 0 then some 0 else do return (← width.most) * (← most)⟩

end Width

/-- The width of the matches of a pattern, when `groups` gives the widths of the groups before it.
-/
def Node.width (groups : Nat → Width) : Node → Width
  | single _ _ | any _ | set _ _ _ => .fixed 1
  | concat first second => (first.width groups).add (second.width groups)
  | either first second => (first.width groups).union (second.width groups)
  | group _ body => body.width groups
  | atomic body => body.width groups
  | backReference number _ => groups number
  | conditional _ matched unmatched => (matched.width groups).union (unmatched.width groups)
  | repetition least most _ body => (body.width groups).times least most
  | _ => .fixed 0

end DiagnosticParsing.Pattern
