import DiagnosticParsing.Text.Printable

/-!
# Quoted text

The quoted form of a text and of a run of bytes. A quoted text stands in single quotes, or in double
quotes when it holds a single quote and no double one. The quote in use, the backslash, the tab, the
carriage return and the line feed get a backslash; any other character that is not printable
becomes the shortest hexadecimal escape that fits.
-/

set_option autoImplicit false

namespace DiagnosticParsing.Text

/-- The last `width` hexadecimal digits of a number, in lower case. -/
def hexDigits : (width : Nat) → (number : Nat) → List Char
  | 0, _ => []
  | width + 1, number => hexDigits width (number / 16) ++ [Nat.digitChar (number % 16)]

/-- The quote that a quoted text uses. -/
def quoteFor (holdsSingle holdsDouble : Bool) : Char :=
  if holdsSingle && !holdsDouble then '"' else '\''

/-- The escape of a character by its code point. -/
def escapeCode (code : Nat) : List Char :=
  if code < 256 then ['\\', 'x'] ++ hexDigits 2 code
  else if code < 65536 then ['\\', 'u'] ++ hexDigits 4 code
  else ['\\', 'U'] ++ hexDigits 8 code

/-- A text with escapes in place of the characters beyond ASCII. -/
def asciiOnly (s : String) : String :=
  String.ofList (s.toList.flatMap fun c ↦ if c.toNat < 128 then [c] else escapeCode c.toNat)

/-- A character as it stands between the given quotes, when `printable` tells whether it can stand
there unescaped. -/
def quotedChar (quote : Char) (printable : Char → Bool) (c : Char) : List Char :=
  if c == quote || c == '\\' then ['\\', c]
  else if c == '\t' then ['\\', 't']
  else if c == '\n' then ['\\', 'n']
  else if c == '\r' then ['\\', 'r']
  else if printable c then [c]
  else escapeCode c.toNat

/-- Characters between the quotes that suit them. -/
def quoteChars (printable : Char → Bool) (chars : List Char) : String :=
  let quote := quoteFor (chars.contains '\'') (chars.contains '"')
  String.ofList (quote :: chars.flatMap (quotedChar quote printable) ++ [quote])

/-- The quoted form of a text. -/
def quoted (s : String) : String :=
  quoteChars isPrintable s.toList

/-- The quoted form of a run of bytes: a quoted text marked by `b`, in which printable ASCII stands
for itself. -/
def quotedBytes (bytes : List UInt8) : String :=
  "b" ++ quoteChars (fun c ↦ c.toNat < 128 && isPrintable c)
    (bytes.map fun byte ↦ Char.ofNat byte.toNat)

end DiagnosticParsing.Text
