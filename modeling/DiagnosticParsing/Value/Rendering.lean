import DiagnosticParsing.Text.Quoted
import DiagnosticParsing.Value

/-!
# Written form of values

`Value.repr` is the unambiguous written form, in which texts are quoted. `Value.display` is the form
that messages embed: a text stands for itself there, and anything else is as in `Value.repr`.
-/

set_option autoImplicit false

namespace DiagnosticParsing.Value

/-- Elements between brackets, separated by a comma and a blank. -/
def bracketed (left : String) (items : List String) (right : String) : String :=
  left ++ String.intercalate ", " items ++ right

mutual

/-- The unambiguous written form of a value. A tuple of one element keeps a comma behind it. -/
def repr : Value → String
  | .null => "None"
  | .bool true => "True"
  | .bool false => "False"
  | .int n => toString n
  | .text s => Text.quoted s
  | .list items => bracketed "[" (reprList items) "]"
  | .tuple [x] => "(" ++ repr x ++ ",)"
  | .tuple items => bracketed "(" (reprList items) ")"
  | .bytes items => Text.quotedBytes items
  | .byteArray items => "bytearray(" ++ Text.quotedBytes items ++ ")"
  | .token kind content => "Tok(" ++ Text.quoted kind ++ ", " ++ repr content ++ ")"
  | .function _ => "<function>"
  | .operation _ => "<function>"

/-- The written forms of the elements of a list. -/
def reprList : List Value → List String
  | [] => []
  | x :: xs => repr x :: reprList xs

end

/-- A value as messages embed it. -/
def display : Value → String
  | .text s => s
  | v => v.repr

end DiagnosticParsing.Value
