import DiagnosticParsing.Grammar

/-!
# Choices and lists

A choice among any number of parsers, and lists of items with separators between or behind them.
-/

set_option autoImplicit false

namespace DiagnosticParsing.Grammar

/-- The first of several parsers that succeeds. -/
def choice : List Grammar → Grammar
  | [] => empty
  | p :: rest => rest.foldl either p

/-- One item or more, with separators between them. A separator behind the last item is left. -/
def sepBy1 (p separator : Grammar) : Grammar :=
  map (both p (many (right separator p))) Function.cons.call

/-- Any number of items with separators between them. -/
def sepBy (p separator : Grammar) : Grammar :=
  either (sepBy1 p separator) (succeed (.list []))

/-- Any number of items, each with a separator behind it. -/
def endBy (p separator : Grammar) : Grammar :=
  many (left p separator)

end DiagnosticParsing.Grammar
