import DiagnosticParsing.Grammar

/-!
# Parsers of single elements

The matchers of one character and of classes of characters, and what is built from white space:
`spaces` and `trim`. On streams over tokens they work with any element; an element that is no text
belongs to no class of characters.
-/

set_option autoImplicit false

namespace DiagnosticParsing.Grammar

/-- One element that fulfils a condition. -/
def satisfy (test : Value → Except Fault Bool) : Grammar :=
  element test fun x ↦ .ok ("'" ++ x.display ++ "' does not satisfy required conditions.")

/-- One given element. -/
def char (c : Value) : Grammar :=
  element (fun x ↦ .ok (x.same c)) fun x ↦
    .ok ("expecting '" ++ c.display ++ "', but got '" ++ x.display ++ "'.")

/-- What parsers take for white space. -/
def whiteSpace : List Value :=
  [.text " ", .text "\n", .text "\r", .text "\t"]

/-- One white space character. -/
def space : Grammar :=
  element (fun x ↦ .ok (whiteSpace.any (x.same ·))) fun x ↦
    .ok ("expecting white space, but got '" ++ x.display ++ "'.")

/-- A text between zero and nine in the order of texts. -/
def isDigitText (x : Value) : Bool :=
  match x with
  | .text s => decide ("0" ≤ s) && decide (s ≤ "9")
  | _ => false

/-- One digit. -/
def digit : Grammar :=
  element (fun x ↦ .ok (isDigitText x)) fun x ↦
    .ok ("expecting digit, but got '" ++ x.display ++ "'.")

/-- A text of letters only. -/
def isLetterText (x : Value) : Bool :=
  match x with
  | .text s => !s.isEmpty && s.toList.all Text.isAlphabetic
  | _ => false

/-- One letter. -/
def letter : Grammar :=
  element (fun x ↦ .ok (isLetterText x)) fun x ↦
    .ok ("expecting letter, but got '" ++ x.display ++ "'.")

/-- Any element. -/
def anyElement : Grammar :=
  element (fun _ ↦ .ok true) fun x ↦ .ok x.display

/-- One element out of a container. -/
def oneOf (container : Value) : Grammar :=
  element (fun x ↦ x.isIn container) fun x ↦ do
    let members ← container.joined
    return "expecting one of " ++ members ++ ", but got '" ++ x.display ++ "'."

/-- One element that is not in a container. -/
def noneOf (container : Value) : Grammar :=
  element (fun x ↦ (x.isIn container).map (!·)) fun x ↦ .ok ("unexpected '" ++ x.display ++ "'.")

/-- Any amount of white space, with null as value. -/
def spaces : Grammar :=
  map (many space) (Function.const .null).call

/-- A parser with any amount of white space around it. -/
def trim (p : Grammar) : Grammar :=
  mid (many space) p (many space)

end DiagnosticParsing.Grammar
