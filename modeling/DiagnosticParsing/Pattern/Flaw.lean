import DiagnosticParsing.Text.Quoted

/-!
# Flaws of patterns

What can be wrong with the text of a regular pattern (`Problem`), and where (`Flaw`).
-/

set_option autoImplicit false

namespace DiagnosticParsing.Pattern

/-- What is wrong with the text of a pattern. -/
inductive Problem where
  /-- A group that is not closed. -/
  | unclosedGroup
  /-- A comment that is not closed. -/
  | unclosedComment
  /-- A closing parenthesis too many. -/
  | unbalancedParenthesis
  /-- A quantifier with nothing in front of it. -/
  | nothingToRepeat
  /-- A quantifier behind a quantifier. -/
  | multipleRepeat
  /-- A character set that is not closed. -/
  | unclosedSet
  /-- A range of characters that runs backwards or has no single character at an end. -/
  | badRange (low high : String)
  /-- A quantifier whose least count is above its greatest. -/
  | countsReversed
  /-- A group name that was given before. -/
  | redefinedName (name : String) (group earlier : Nat)
  /-- A reference to a name that no group has. -/
  | unknownName (name : String)
  /-- A reference to a number that no group has. -/
  | badReference (group : Nat)
  /-- A reference to group zero. -/
  | badGroupNumber
  /-- A reference to a group from within it. -/
  | openGroup
  /-- A reference inside a look-behind to a group of that look-behind. -/
  | groupOfLookBehind
  /-- A backslash at the end. -/
  | danglingBackslash
  /-- A backslash in front of a character that it cannot escape. -/
  | badEscape (escape : String)
  /-- A numeric escape with too few digits. -/
  | incompleteEscape (escape : String)
  /-- An octal escape beyond one byte. -/
  | octalTooLarge (escape : String)
  /-- A look-behind whose width is not fixed. -/
  | variableLookBehind
  /-- A group that starts with an unknown mark. -/
  | unknownExtension (mark : String)
  /-- A group name that is no identifier. -/
  | badName (name : String)
  /-- The text ends within the mark of a group. -/
  | unexpectedEnd
  /-- Something that had to follow is missing. -/
  | missing (what : String)
  /-- A flag letter that stands for nothing. -/
  | unknownFlag
  /-- Flags of the whole pattern elsewhere than at its start. -/
  | lateFlags
  /-- Flags that cannot be combined or used here. -/
  | badFlags (why : String)
  /-- More than two branches behind a condition. -/
  | conditionBranches

/-- The wording of a problem. -/
def Problem.text : Problem → String
  | unclosedGroup => "missing ), unterminated subpattern"
  | unclosedComment => "missing ), unterminated comment"
  | unbalancedParenthesis => "unbalanced parenthesis"
  | nothingToRepeat => "nothing to repeat"
  | multipleRepeat => "multiple repeat"
  | unclosedSet => "unterminated character set"
  | badRange low high => "bad character range " ++ low ++ "-" ++ high
  | countsReversed => "min repeat greater than max repeat"
  | redefinedName name group earlier =>
    "redefinition of group name " ++ Text.quoted name ++ " as group " ++ toString group ++
      "; was group " ++ toString earlier
  | unknownName name => "unknown group name " ++ Text.quoted name
  | badReference group => "invalid group reference " ++ toString group
  | badGroupNumber => "bad group number"
  | openGroup => "cannot refer to an open group"
  | groupOfLookBehind => "cannot refer to group defined in the same lookbehind subpattern"
  | danglingBackslash => "bad escape (end of pattern)"
  | badEscape escape => "bad escape " ++ escape
  | incompleteEscape escape => "incomplete escape " ++ escape
  | octalTooLarge escape => "octal escape value " ++ escape ++ " outside of range 0-0o377"
  | variableLookBehind => "look-behind requires fixed-width pattern"
  | unknownExtension mark => "unknown extension ?" ++ mark
  | badName name => "bad character in group name " ++ Text.quoted name
  | unexpectedEnd => "unexpected end of pattern"
  | missing what => "missing " ++ what
  | unknownFlag => "unknown flag"
  | lateFlags => "global flags not at the start of the expression"
  | badFlags why => "bad inline flags: " ++ why
  | conditionBranches => "conditional backref with more than two branches"

/-- A problem and the place in the pattern where it shows, if it has one. -/
structure Flaw where
  /-- What is wrong. -/
  problem : Problem
  /-- The text of the pattern. -/
  pattern : List Char
  /-- Whether the pattern is for bytes. -/
  overBytes : Bool
  /-- The index in the text. -/
  position : Option Nat

/-- The wording of the problem alone. For a pattern over bytes it keeps to ASCII. -/
def Flaw.text (flaw : Flaw) : String :=
  if flaw.overBytes then Text.asciiOnly flaw.problem.text else flaw.problem.text

/-- The wording of a flaw. In a pattern of several lines the line and the column are given too. -/
def Flaw.message (flaw : Flaw) : String :=
  match flaw.position with
  | none => flaw.text
  | some position =>
    let before := flaw.pattern.take position
    let lines := before.count '\n'
    let column := (before.reverse.takeWhile (· != '\n')).length
    flaw.text ++ " at position " ++ toString position ++
      if flaw.pattern.contains '\n' then
        " (line " ++ toString (lines + 1) ++ ", column " ++ toString (column + 1) ++ ")"
      else ""

end DiagnosticParsing.Pattern
