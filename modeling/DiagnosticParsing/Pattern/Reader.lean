import DiagnosticParsing.Pattern.Flaw
import DiagnosticParsing.Pattern.Syntax

/-!
# Reading patterns

`read` turns the text of a regular pattern into a `Node`, or finds its first flaw. The text is taken
token by token, a token being a character or a backslash with the character behind it. The next
token is looked at before the one in hand is judged, so a backslash at the very end is found before
whatever may be wrong with the token in front of it.
-/

set_option autoImplicit false

namespace DiagnosticParsing.Pattern

/-- The flags of a pattern or of a part of it. -/
structure Flags where
  /-- Case does not count. -/
  ignoreCase : Bool
  /-- The start and the end of every line count. -/
  multiLine : Bool
  /-- The dot matches the line feed too. -/
  dotAll : Bool
  /-- Blanks and comments in the pattern do not count. -/
  verbose : Bool
  /-- The classes know ASCII only. -/
  ascii : Bool

namespace Flags

/-- No flag is set. -/
def none : Flags :=
  ⟨false, false, false, false, false⟩

/-- The flags with the one of a letter set or cleared; nothing if the letter stands for no flag. -/
def put (flags : Flags) (value : Bool) : Char → Option Flags
  | 'i' => some { flags with ignoreCase := value }
  | 'm' => some { flags with multiLine := value }
  | 's' => some { flags with dotAll := value }
  | 'x' => some { flags with verbose := value }
  | 'a' => some { flags with ascii := value }
  | 'u' => some { flags with ascii := !value }
  | _ => Option.none

/-- How far characters may differ in case, over texts or over bytes. -/
def folding (flags : Flags) (overBytes : Bool) : Folding :=
  if !flags.ignoreCase then .exact else if flags.ascii || overBytes then .ascii else .full

end Flags

/-- The state of reading. -/
structure Reader where
  /-- The whole text. -/
  pattern : List Char
  /-- What is left of it. -/
  rest : List Char
  /-- The index of what is left. -/
  position : Nat
  /-- Whether the pattern is for bytes. -/
  overBytes : Bool
  /-- The flags in force. -/
  flags : Flags
  /-- The number of groups opened so far, the whole match among them. -/
  groups : Nat
  /-- The groups with a name, the latest first. -/
  names : List (String × Nat)
  /-- The widths of the groups closed so far. -/
  widths : List (Nat × Width)
  /-- The number of groups opened before the look-behind in hand. -/
  beforeLookBehind : Option Nat
  /-- The groups that conditions refer to, each with the place of the first reference. -/
  conditions : List (Nat × Nat)
  /-- Whether a look-behind of variable width was read. -/
  unfixedWidth : Bool

/-- A computation that reads. -/
abbrev ReaderM :=
  StateT Reader (Except Flaw)

/-- A character, or a backslash and the character behind it. -/
inductive Token where
  /-- A character. -/
  | plain (c : Char)
  /-- A backslash and a character. -/
  | escaped (c : Char)
  deriving DecidableEq

namespace Token

/-- The characters of a token. -/
def chars : Token → List Char
  | plain c => [c]
  | escaped c => ['\\', c]

/-- The token as text. -/
def text (token : Token) : String :=
  String.ofList token.chars

end Token

namespace Reader

/-- Reading stops at a flaw that shows a number of characters before the place reached. -/
def flawBack {α : Type} (problem : Problem) (back : Nat) : ReaderM α := do
  let reader ← get
  throw ⟨problem, reader.pattern, reader.overBytes, some (reader.position - back)⟩

/-- Reading stops at a flaw at a place. -/
def flawAt {α : Type} (problem : Problem) (position : Nat) : ReaderM α := do
  let reader ← get
  throw ⟨problem, reader.pattern, reader.overBytes, some position⟩

/-- The next token. -/
def peek? (reader : Reader) : Option Token :=
  match reader.rest with
  | [] => none
  | '\\' :: c :: _ => some (.escaped c)
  | c :: _ => some (.plain c)

/-- A lone backslash at the end is a flaw as soon as it comes into view. -/
def checkView : ReaderM Unit := do
  if (← get).rest == ['\\'] then
    flawAt .danglingBackslash ((← get).pattern.length - 1)

/-- Takes the next token. -/
def take? : ReaderM (Option Token) := do
  let reader ← get
  match reader.peek? with
  | none => return none
  | some token =>
    let length := token.chars.length
    set { reader with rest := reader.rest.drop length, position := reader.position + length }
    checkView
    return some token

/-- Takes the next token if it is the given character. -/
def accept (c : Char) : ReaderM Bool := do
  if (← get).peek? == some (.plain c) then
    discard take?
    return true
  return false

/-- Goes back to a place seen before. -/
def seek (position : Nat) : ReaderM Unit := do
  let reader ← get
  set { reader with rest := reader.pattern.drop position, position := position }

/-- Takes at most a number of characters that fulfil a test. -/
def takeWhile (test : Char → Bool) : (bound : Nat) → ReaderM (List Char)
  | 0 => return []
  | bound + 1 => do
    match (← get).peek? with
    | some (.plain c) =>
      if test c then
        discard take?
        return c :: (← takeWhile test bound)
      return []
    | _ => return []

/-- Takes the tokens up to a closing character, which is taken too. -/
def takeUntil (stop : Char) (what : String) : (fuel : Nat) → (taken : List Char) →
    ReaderM (List Char)
  | 0, taken => return taken
  | fuel + 1, taken => do
    match ← take? with
    | none =>
      if taken.isEmpty then flawBack (.missing what) 0
      else flawBack (.missing (String.singleton stop ++ ", unterminated name")) taken.length
    | some token =>
      if token == .plain stop then
        if taken.isEmpty then flawBack (.missing what) 1
        return taken
      takeUntil stop what fuel (taken ++ token.chars)

end Reader

open Reader

/-- A hexadecimal digit. -/
def isHexDigit (c : Char) : Bool :=
  c.isDigit || ('a' ≤ c && c ≤ 'f') || ('A' ≤ c && c ≤ 'F')

/-- An octal digit. -/
def isOctalDigit (c : Char) : Bool :=
  '0' ≤ c && c ≤ '7'

/-- The number that digits denote in a base. -/
def numberOf (base : Nat) (digits : List Char) : Nat :=
  digits.foldl
    (fun n c ↦ base * n +
      (if c.isDigit then c.toNat - 48 else if c.toNat < 97 then c.toNat - 55 else c.toNat - 87)) 0

/-- The code point that an escape of one letter stands for. -/
def controlEscape? : Char → Option Nat
  | 'a' => some 7
  | 'f' => some 12
  | 'n' => some 10
  | 'r' => some 13
  | 't' => some 9
  | 'v' => some 11
  | '\\' => some 92
  | _ => none

/-- The class that an escape stands for. -/
def categoryEscape? (ascii : Bool) : Char → Option SetItem
  | 'd' => some (.category .digit ascii false)
  | 'D' => some (.category .digit ascii true)
  | 's' => some (.category .space ascii false)
  | 'S' => some (.category .space ascii true)
  | 'w' => some (.category .word ascii false)
  | 'W' => some (.category .word ascii true)
  | _ => none

/-- Reads a hexadecimal escape of a fixed number of digits. -/
def readHexEscape (letter : Char) (count : Nat) : ReaderM Nat := do
  let digits ← takeWhile isHexDigit count
  let escape := ['\\', letter] ++ digits
  if digits.length < count then
    flawBack (.incompleteEscape (String.ofList escape)) escape.length
  let code := numberOf 16 digits
  if code > 0x10ffff then
    flawBack (.badEscape (String.ofList escape)) escape.length
  return code

/-- Reads the rest of an escape by code point, if the letter starts one. -/
def readCodeEscape? (letter : Char) : ReaderM (Option Nat) := do
  let overBytes := (← get).overBytes
  match letter with
  | 'x' => return some (← readHexEscape letter 2)
  | 'u' => if overBytes then return none else return some (← readHexEscape letter 4)
  | 'U' => if overBytes then return none else return some (← readHexEscape letter 8)
  | _ => return none

/-- An octal escape whose value is too large is a flaw. -/
def octalValue (digits : List Char) : ReaderM Nat := do
  let code := numberOf 8 digits
  if code > 255 then
    flawBack (.octalTooLarge (String.ofList ('\\' :: digits))) (digits.length + 1)
  return code

/-- A part of a pattern as far as a quantifier behind it is concerned. -/
inductive Item where
  /-- What a quantifier can repeat. -/
  | atom (node : Node)
  /-- A place, which nothing can repeat. -/
  | anchor (node : Node)
  /-- What has a quantifier already. -/
  | quantified (node : Node)

/-- The node of an item. -/
def Item.node : Item → Node
  | atom node => node
  | anchor node => node
  | quantified node => node

/-- The classes of the pattern know ASCII only, by its flags or because it is for bytes. -/
def Reader.asciiOnly (reader : Reader) : Bool :=
  reader.flags.ascii || reader.overBytes

/-- The node of a single character under the flags in force. -/
def literalItem (code : Nat) : ReaderM Item := do
  let reader ← get
  return .atom (.single code (reader.flags.folding reader.overBytes))

/-- A reference to a group from a look-behind must be to one opened before it. -/
def checkLookBehind (group : Nat) : ReaderM Unit := do
  let reader ← get
  match reader.beforeLookBehind with
  | none => return
  | some before =>
    if !reader.widths.any (·.1 == group) then flawBack .openGroup 0
    if group ≥ before then flawBack .groupOfLookBehind 0

/-- Reads a reference to a group by number, of which the first digit has been taken. -/
def readBackReference (first : Char) : ReaderM Item := do
  let reader ← get
  let second ← takeWhile Char.isDigit 1
  let digits := first :: second
  if digits.length == 2 && digits.all isOctalDigit then
    match (← get).peek? with
    | some (.plain c) =>
      if isOctalDigit c then
        discard take?
        return ← literalItem (← octalValue (digits ++ [c]))
    | _ => pure ()
  let group := numberOf 10 digits
  if group < reader.groups then
    if !reader.widths.any (·.1 == group) then flawBack .openGroup (digits.length + 1)
    checkLookBehind group
    return .atom (.backReference group (reader.flags.folding reader.overBytes))
  flawBack (.badReference group) digits.length

/-- Reads the rest of an escape outside a character set. -/
def readEscape (letter : Char) : ReaderM Item := do
  let reader ← get
  let ascii := reader.asciiOnly
  match letter with
  | 'A' => return .anchor (.start false)
  | 'Z' => return .anchor .veryEnd
  | 'b' => return .anchor (.boundary false ascii)
  | 'B' => return .anchor (.boundary true ascii)
  | _ =>
    if let some item := categoryEscape? ascii letter then
      return .atom (.set false [item] .exact)
    if let some code := controlEscape? letter then
      return ← literalItem code
    if let some code ← readCodeEscape? letter then
      return ← literalItem code
    if letter == '0' then
      return ← literalItem (← octalValue (letter :: (← takeWhile isOctalDigit 2)))
    if letter.isDigit then
      return ← readBackReference letter
    if letter.isAlpha then
      flawBack (.badEscape (String.ofList ['\\', letter])) 2
    literalItem letter.toNat

/-- Reads the rest of an escape in a character set. -/
def readSetEscape (letter : Char) : ReaderM SetItem := do
  let ascii := (← get).asciiOnly
  if letter == 'b' then
    return .single 8
  if let some code := controlEscape? letter then
    return .single code
  if let some item := categoryEscape? ascii letter then
    return item
  if let some code ← readCodeEscape? letter then
    return .single code
  if isOctalDigit letter then
    return .single (← octalValue (letter :: (← takeWhile isOctalDigit 2)))
  if letter.isAlphanum then
    flawBack (.badEscape (String.ofList ['\\', letter])) 2
  return .single letter.toNat

/-- Reads one member of a character set, whose first token has been taken. -/
def readSetMember (token : Token) : ReaderM SetItem :=
  match token with
  | .plain c => return .single c.toNat
  | .escaped c => readSetEscape c

/-- Reads the parts of a character set that was opened at a place, up to and with its closing
bracket. -/
def readSetItems (opened : Nat) : (fuel : Nat) → (items : List SetItem) → ReaderM (List SetItem)
  | 0, items => return items
  | fuel + 1, items => do
    let some token ← take? | flawAt .unclosedSet opened
    if token == .plain ']' && !items.isEmpty then
      return items
    let low ← readSetMember token
    if ← accept '-' then
      let some stop ← take? | flawAt .unclosedSet opened
      if stop == .plain ']' then
        return items ++ [low, .single 45]
      let high ← readSetMember stop
      let problem := Problem.badRange token.text stop.text
      let back := token.chars.length + 1 + stop.chars.length
      match low, high with
      | .single l, .single h =>
        if h < l then flawBack problem back
        readSetItems opened fuel (items ++ [.range l h])
      | _, _ => flawBack problem back
    else readSetItems opened fuel (items ++ [low])

/-- Reads a character set, whose opening bracket has been taken. -/
def readSet : ReaderM Item := do
  let opened := (← get).position - 1
  let negated ← accept '^'
  let reader ← get
  let items ← readSetItems opened (reader.rest.length + 1) []
  return .atom (.set negated items (reader.flags.folding reader.overBytes))

/-- The least and the greatest number of repetitions that a quantifier asks for. -/
structure Counts where
  /-- The least number. -/
  least : Nat
  /-- The greatest number, if there is one. -/
  most : Option Nat

/-- Reads a quantifier in braces, whose opening brace has been taken. Without the right form the
brace stands for itself, and nothing is read. -/
def readBraces : ReaderM (Option Counts) := do
  let here := (← get).position
  if (← get).peek? == some (.plain '}') then
    return none
  let bound := (← get).rest.length
  let low ← takeWhile Char.isDigit bound
  let comma ← accept ','
  let high ← if comma then takeWhile Char.isDigit bound else pure low
  if !(← accept '}') then
    seek here
    return none
  let least := numberOf 10 low
  let most := if high.isEmpty then none else some (numberOf 10 high)
  if most.any (· < least) then
    flawAt .countsReversed here
  return some ⟨least, most⟩

/-- Reads the quantifier that a character starts, if it starts one. -/
def readCounts (c : Char) : ReaderM (Option Counts) :=
  match c with
  | '?' => return some ⟨0, some 1⟩
  | '*' => return some ⟨0, none⟩
  | '+' => return some ⟨1, none⟩
  | _ => readBraces

/-- Puts a quantifier that stands at a place behind the latest of the items read, the latest
first. -/
def quantify (place : Nat) (counts : Counts) (items : List Item) : ReaderM (List Item) := do
  match items with
  | [] | .anchor _ :: _ => flawAt .nothingToRepeat place
  | .quantified _ :: _ => flawAt .multipleRepeat place
  | .atom node :: earlier =>
    let repeated := fun greedy : Bool ↦ Node.repetition counts.least counts.most greedy node
    if ← accept '?' then
      return .quantified (repeated false) :: earlier
    if ← accept '+' then
      return .quantified (.atomic (repeated true)) :: earlier
    return .quantified (repeated true) :: earlier

/-- A group name is a letter or an underscore and then letters, digits and underscores. -/
def isName (name : List Char) : Bool :=
  match name with
  | [] => false
  | c :: rest =>
    (Text.isAlphabetic c || c == '_') &&
      rest.all fun d ↦ Text.isAlphabetic d || Text.isNumeric d || d == '_'

/-- Reads a group name up to and with a closing character. -/
def readName (stop : Char) : ReaderM String := do
  let name ← takeUntil stop "group name" ((← get).rest.length + 1) []
  if !isName name then
    flawBack (.badName (String.ofList name)) (name.length + 1)
  return String.ofList name

/-- The group of a name. -/
def groupNamed (name : String) : ReaderM Nat := do
  match (← get).names.lookup name with
  | some group => return group
  | none => flawBack (.unknownName name) (name.length + 1)

/-- Opens a group, under a name if it has one. -/
def openGroup (name : Option String) : ReaderM Nat := do
  let reader ← get
  let group := reader.groups
  match name with
  | none => set { reader with groups := group + 1 }
  | some name =>
    match reader.names.lookup name with
    | some earlier => flawBack (.redefinedName name group earlier) (name.length + 1)
    | none => set { reader with groups := group + 1, names := (name, group) :: reader.names }
  return group

/-- The width of a group. -/
def Reader.widthOf (reader : Reader) (group : Nat) : Width :=
  (reader.widths.lookup group).getD (.fixed 0)

/-- Closes a group with what it holds. -/
def closeGroup (group : Nat) (body : Node) : ReaderM Unit :=
  modify fun reader ↦
    { reader with widths := (group, body.width reader.widthOf) :: reader.widths }

/-- Reads the name or number of the group that a condition refers to, up to and with the closing
parenthesis. -/
def readCondition : ReaderM Nat := do
  let text ← takeUntil ')' "group name" ((← get).rest.length + 1) []
  let name := String.ofList text
  if text.all Char.isDigit then
    let group := numberOf 10 text
    if group == 0 then
      flawBack .badGroupNumber (text.length + 1)
    let reader ← get
    if !reader.conditions.any (·.1 == group) then
      let place := reader.position - text.length - 1
      set { reader with conditions := reader.conditions ++ [(group, place)] }
    checkLookBehind group
    return group
  if !isName text then
    flawBack (.badName name) (text.length + 1)
  let group ← groupNamed name
  checkLookBehind group
  return group

/-- Letters that set flags. -/
def isFlag (c : Char) : Bool :=
  (Flags.none.put true c).isSome || c == 'L'

/-- How the flags at the start of a group end. -/
inductive FlagScope where
  /-- They are for the whole pattern. -/
  | whole (flags : Flags)
  /-- They are for the group. -/
  | inside (flags : Flags)

/-- Letters of flags of which no two can be set together, and none can be cleared. -/
def isKindFlag (c : Char) : Bool :=
  c == 'a' || c == 'u' || c == 'L'

/-- Reads the letters of flags to clear, the first of which has been taken, after some letters of
flags to set. `clash` tells whether a letter so far stands on both sides. -/
def readClearedFlags (letters : List Char) :
    (fuel : Nat) → (clash : Bool) → (flags : Flags) → (token : Option Token) → ReaderM Flags
  | 0, _, flags, _ => return flags
  | fuel + 1, clash, flags, token => do
    match token with
    | none => flawBack (.missing "flag") 0
    | some (.plain c) =>
      if isKindFlag c then
        flawBack (.badFlags "cannot turn off flags 'a', 'u' and 'L'") 0
      match flags.put false c with
      | none => flawBack (if Text.isAlphabetic c then .unknownFlag else .missing "flag") 1
      | some flags =>
        let clash := clash || letters.contains c
        match ← take? with
        | none => flawBack (.missing ":") 0
        | some (.plain ':') =>
          if clash then
            flawBack (.badFlags "flag turned on and off") 1
          return flags
        | some (.plain d) =>
          if isFlag d then readClearedFlags letters fuel clash flags (some (.plain d))
          else flawBack (if Text.isAlphabetic d then .unknownFlag else .missing ":") 1
        | some (.escaped _) => flawBack (.missing ":") 2
    | some (.escaped _) => flawBack (.missing "flag") 2

/-- Reads the letters of flags to set, the latest of which has been taken and some before it have
been read, and those to clear. -/
def readFlags : (fuel : Nat) → (letters : List Char) → (flags : Flags) → (c : Char) →
    ReaderM FlagScope
  | 0, _, flags, _ => return .whole flags
  | fuel + 1, letters, flags, c => do
    if c == '-' then
      return .inside (← readClearedFlags letters fuel false flags (← take?))
    if c == 'L' && !(← get).overBytes then
      flawBack (.badFlags "cannot use 'L' flag with a str pattern") 0
    if c == 'u' && (← get).overBytes then
      flawBack (.badFlags "cannot use 'u' flag with a bytes pattern") 0
    if isKindFlag c && letters.any (fun d ↦ isKindFlag d && d != c) then
      flawBack (.badFlags "flags 'a', 'u' and 'L' are incompatible") 0
    let flags := (flags.put true c).getD flags
    match ← take? with
    | none => flawBack (.missing "-, : or )") 0
    | some (.plain ')') => return .whole flags
    | some (.plain ':') => return .inside flags
    | some (.plain d) =>
      if d == '-' || isFlag d then readFlags fuel (c :: letters) flags d
      else flawBack (if Text.isAlphabetic d then .unknownFlag else .missing "-, : or )") 1
    | some (.escaped _) => flawBack (.missing "-, : or )") 2

/-- Skips a comment in a group of its own, which was opened at a place. -/
def skipComment (opened : Nat) : (fuel : Nat) → ReaderM Unit
  | 0 => return
  | fuel + 1 => do
    match ← take? with
    | none => flawAt .unclosedComment opened
    | some (.plain ')') => return
    | some _ => skipComment opened fuel

/-- Skips a comment to the end of the line. -/
def skipLine : (fuel : Nat) → ReaderM Unit
  | 0 => return
  | fuel + 1 => do
    match ← take? with
    | none | some (.plain '\n') => return
    | some _ => skipLine fuel

/-- The closing parenthesis of a group opened at a place. -/
def expectClosed (opened : Nat) : ReaderM Unit := do
  if !(← accept ')') then
    flawAt .unclosedGroup opened

/-- White space that a verbose pattern may hold. -/
def isVerboseBlank (c : Char) : Bool :=
  c == ' ' || (9 ≤ c.toNat && c.toNat ≤ 13)

mutual

/-- Reads the branches of a group or of the whole pattern. `outermost` tells which. -/
def readBranches : (fuel : Nat) → (outermost : Bool) → ReaderM Node
  | 0, _ => flawBack .unexpectedEnd 0
  | fuel + 1, outermost => do
    let first ← readItems fuel outermost []
    readFurtherBranches fuel (.sequence (first.map Item.node))

/-- Reads the branches that follow one that has been read. -/
def readFurtherBranches : (fuel : Nat) → (first : Node) → ReaderM Node
  | 0, _ => flawBack .unexpectedEnd 0
  | fuel + 1, first => do
    if ← accept '|' then
      let items ← readItems fuel false []
      let second ← readFurtherBranches fuel (.sequence (items.map Item.node))
      return .either first second
    return first

/-- Reads the items of a branch. The items read so far are given the latest first. -/
def readItems : (fuel : Nat) → (first : Bool) → (items : List Item) → ReaderM (List Item)
  | 0, _, _ => flawBack .unexpectedEnd 0
  | fuel + 1, first, items => do
    let reader ← get
    match reader.peek? with
    | none | some (.plain '|') | some (.plain ')') => return items.reverse
    | some (.escaped c) =>
      discard take?
      readItems fuel first ((← readEscape c) :: items)
    | some (.plain c) =>
      discard take?
      if reader.flags.verbose && isVerboseBlank c then
        readItems fuel first items
      else if reader.flags.verbose && c == '#' then
        skipLine (reader.rest.length + 1)
        readItems fuel first items
      else if c == '[' then
        readItems fuel first ((← readSet) :: items)
      else if c == '*' || c == '+' || c == '?' || c == '{' then
        match ← readCounts c with
        | some counts => readItems fuel first (← quantify reader.position counts items)
        | none => readItems fuel first ((← literalItem c.toNat) :: items)
      else if c == '.' then
        readItems fuel first (.atom (.any reader.flags.dotAll) :: items)
      else if c == '^' then
        readItems fuel first (.anchor (.start reader.flags.multiLine) :: items)
      else if c == '$' then
        readItems fuel first (.anchor (.finish reader.flags.multiLine) :: items)
      else if c == '(' then
        match ← readGroup fuel (first && items.isEmpty) reader.position with
        | some item => readItems fuel first (item :: items)
        | none => readItems fuel first items
      else readItems fuel first ((← literalItem c.toNat) :: items)

/-- Reads a group, which was opened at a place. A comment, and flags for the whole pattern, are no
item; `atStart` tells whether such flags may stand here. -/
def readGroup : (fuel : Nat) → (atStart : Bool) → (opened : Nat) → ReaderM (Option Item)
  | 0, _, _ => flawBack .unexpectedEnd 0
  | fuel + 1, atStart, opened => do
    if !(← accept '?') then
      return some (← readCapture fuel none opened)
    let some mark ← take? | flawBack .unexpectedEnd 0
    match mark with
    | .escaped _ => flawBack (.unknownExtension mark.text) 3
    | .plain 'P' =>
      if ← accept '<' then
        return some (← readCapture fuel (some (← readName '>')) opened)
      if ← accept '=' then
        let name ← readName ')'
        let group ← groupNamed name
        let reader ← get
        if !reader.widths.any (·.1 == group) then
          flawBack .openGroup (name.length + 1)
        checkLookBehind group
        return some (.atom (.backReference group (reader.flags.folding reader.overBytes)))
      let some next ← take? | flawBack .unexpectedEnd 0
      flawBack (.unknownExtension ("P" ++ next.text)) (next.chars.length + 2)
    | .plain ':' => return some (.atom (← readInside fuel (← get).flags opened))
    | .plain '>' => return some (.atom (.atomic (← readInside fuel (← get).flags opened)))
    | .plain '#' =>
      skipComment opened ((← get).rest.length + 1)
      return none
    | .plain '=' => return some (.atom (.lookAhead false (← readInside fuel (← get).flags opened)))
    | .plain '!' => return some (.atom (.lookAhead true (← readInside fuel (← get).flags opened)))
    | .plain '<' =>
      let some direction ← take? | flawBack .unexpectedEnd 0
      if direction == .plain '=' || direction == .plain '!' then
        return some (← readLookBehind fuel (direction == .plain '!') opened)
      flawBack (.unknownExtension ("<" ++ direction.text)) (direction.chars.length + 2)
    | .plain '(' => return some (← readConditional fuel opened)
    | .plain c =>
      if !(isFlag c || c == '-') then
        flawBack (.unknownExtension (String.singleton c)) 2
      match ← readFlags ((← get).rest.length + 2) [] (← get).flags c with
      | .whole flags =>
        if !atStart then flawAt .lateFlags opened
        modify fun reader ↦ { reader with flags := flags }
        return none
      | .inside flags => return some (.atom (← readInside fuel flags opened))

/-- Reads what a group holds, under flags of its own, up to and with its closing parenthesis. -/
def readInside : (fuel : Nat) → (flags : Flags) → (opened : Nat) → ReaderM Node
  | 0, _, _ => flawBack .unexpectedEnd 0
  | fuel + 1, flags, opened => do
    let outside := (← get).flags
    modify fun reader ↦ { reader with flags := flags }
    let body ← readBranches fuel false
    expectClosed opened
    modify fun reader ↦ { reader with flags := outside }
    return body

/-- Reads a group that remembers its match. -/
def readCapture : (fuel : Nat) → (name : Option String) → (opened : Nat) → ReaderM Item
  | 0, _, _ => flawBack .unexpectedEnd 0
  | fuel + 1, name, opened => do
    let group ← openGroup name
    let body ← readInside fuel (← get).flags opened
    closeGroup group body
    return .atom (.group group body)

/-- Reads a look-behind. -/
def readLookBehind : (fuel : Nat) → (negated : Bool) → (opened : Nat) → ReaderM Item
  | 0, _, _ => flawBack .unexpectedEnd 0
  | fuel + 1, negated, opened => do
    let before := (← get).beforeLookBehind
    modify fun reader ↦
      { reader with beforeLookBehind := some (before.getD reader.groups) }
    let body ← readInside fuel (← get).flags opened
    let width := body.width (← get).widthOf
    modify fun reader ↦
      { reader with
        beforeLookBehind := before
        unfixedWidth := reader.unfixedWidth || width.most != some width.least }
    return .atom (.lookBehind negated width.least body)

/-- Reads a conditional group. -/
def readConditional : (fuel : Nat) → (opened : Nat) → ReaderM Item
  | 0, _ => flawBack .unexpectedEnd 0
  | fuel + 1, opened => do
    let group ← readCondition
    let matched ← readItems fuel false []
    let unmatched ← if ← accept '|' then readItems fuel false [] else pure []
    if (← get).peek? == some (.plain '|') then
      flawBack .conditionBranches 0
    expectClosed opened
    return .atom (.conditional group (.sequence (matched.map Item.node))
      (.sequence (unmatched.map Item.node)))

end

/-- Reads a whole pattern. -/
def readWhole : ReaderM Node := do
  checkView
  let node ← readBranches (3 * (← get).rest.length + 10) true
  let reader ← get
  if !reader.rest.isEmpty then
    flawBack .unbalancedParenthesis 0
  if let some condition := reader.conditions.find? (·.1 ≥ reader.groups) then
    flawAt (.badReference condition.1) condition.2
  if reader.unfixedWidth then
    throw ⟨.variableLookBehind, reader.pattern, reader.overBytes, none⟩
  return node

/-- The node that a text describes under flags, for texts or for bytes, and the number of groups. -/
def read (pattern : List Char) (flags : Flags) (overBytes : Bool) : Except Flaw (Node × Nat) :=
  (readWhole.run ⟨pattern, pattern, 0, overBytes, flags, 1, [], [], none, [], false⟩).map
    fun result ↦ (result.1, result.2.groups)

end DiagnosticParsing.Pattern
