import DiagnosticParsing.Log
import DiagnosticParsing.Pattern
import DiagnosticParsing.Place
import DiagnosticParsing.Value.Application

/-!
# Grammars

A `Grammar` describes a parser. Parts of it can be deferred: such a part is a *cell*, named by a
label, and is built when a run first enters it. `lazy` builds the definition of a name anew in each
cell, `lazyShared` refers to the one shared parser of a definition, and `fix` binds a variable that
stands for the cell itself. A label stands for one cell, however many times the cell occurs.

A `Scope` tells where in the construction a grammar stands: the chain of cells around it, and of
parsers that were made in a run. It is at once the address that tells cells apart (`Scope.cell`) and
the environment in which variables are looked up (`Scope.lookup`). A `Closure` is a grammar with the
scope in which it stands, and `Definitions.behind` tells to which one a reference leads.
-/

set_option autoImplicit false

namespace DiagnosticParsing

/-- A description of a parser. -/
inductive Grammar where
  /-- Succeeds with a value. -/
  | succeed (v : Value)
  /-- Fails silently. -/
  | empty
  /-- The end of the input. -/
  | eof
  /-- One element that passes a test. -/
  | element (test : Value → Except Fault Bool) (describe : Value → Except Fault String)
  /-- One element that a function maps to a value other than null. -/
  | token (test describe : Value → Call Value)
  /-- The elements of a sequence. -/
  | literal (expected : Value)
  /-- What a pattern matches. -/
  | regex (pattern : Pattern)
  /-- Raises a fault. -/
  | raise (fault : Fault)
  /-- A parse function written by hand, which answers the same always. -/
  | reply (answer : Reply)
  /-- A function of the value. -/
  | map (p : Grammar) (f : Value → Call Value)
  /-- A function of the value that can reject it by null. -/
  | mapOption (p : Grammar) (f : Value → Call Value)
  /-- A function of the value that can reject it by a fault. -/
  | mapResult (p : Grammar) (f : Value → Call Value)
  /-- The function that the first parser produces, of the value of the second. -/
  | compose (p q : Grammar)
  /-- A parser chosen by the value of another. -/
  | bind (p : Grammar) (choose : Value → Call Unit) (next : Value → Grammar)
  /-- Both in sequence, with both values. -/
  | both (p q : Grammar)
  /-- Both in sequence, with the first value. -/
  | left (p q : Grammar)
  /-- Both in sequence, with the second value. -/
  | right (p q : Grammar)
  /-- Three in sequence, with the value in the middle. -/
  | mid (p q r : Grammar)
  /-- The first or, when it fails, the second. -/
  | either (p q : Grammar)
  /-- Any number of times. -/
  | many (p : Grammar)
  /-- Any number of times but none. -/
  | oneOrMore (p : Grammar)
  /-- Once or not at all. -/
  | optional (p : Grammar)
  /-- A fixed number of times. -/
  | count (n : Nat) (p : Grammar)
  /-- A chain of operators, applied from the left. -/
  | chainLeft (p op : Grammar)
  /-- A chain of operators, applied from the right. -/
  | chainRight (p op : Grammar)
  /-- Without consuming. -/
  | lookAhead (p : Grammar)
  /-- Where the parser fails. -/
  | notFollowedBy (p : Grammar)
  /-- With a message in front. -/
  | annotate (severity : Severity) (p : Grammar) (text : String)
  /-- With a name for what was expected. -/
  | label (p : Grammar) (name : String)
  /-- Watched by an observer. -/
  | inspect (p : Grammar) (observe : Place → Reply → Call Unit)
  /-- With a value that stands in for a failure. -/
  | recover (p : Grammar) (default : Value)
  /-- Between two notes. -/
  | trace (name : String) (p : Grammar)
  /-- The one shared parser of a definition. -/
  | use (name : String)
  /-- A cell that builds a definition anew. -/
  | lazy (label : Nat) (name : String)
  /-- A cell that refers to the shared parser of a definition. -/
  | lazyShared (label : Nat) (name : String)
  /-- A cell to which a variable in its own body refers. -/
  | fix (label : Nat) (name : String) (body : Grammar)
  /-- The cell that a variable refers to. -/
  | var (name : String)
  /-- A cell whose construction fails each time. -/
  | unbuildable (label : Nat) (name : String) (fault : Fault)
  /-- A parser that is made anew at each run, with cells of its own, as a binder can make it. -/
  | afresh (p : Grammar)
  /-- The parse function that a parser has before anything is built, as a parser of its own. -/
  | copied (p : Grammar)

namespace Grammar

/-- The grammar leads to another one. -/
def IsReference : Grammar → Prop
  | use _ | lazy _ _ | lazyShared _ _ | fix _ _ _ | var _ | unbuildable _ _ _ => True
  | _ => False

/-- The label and the name of a cell. -/
def cell? : Grammar → Option (Nat × String)
  | lazy tag name => some (tag, name)
  | lazyShared tag name => some (tag, name)
  | fix tag name _ => some (tag, name)
  | unbuildable tag name _ => some (tag, name)
  | _ => none

end Grammar

/-- The definitions that a grammar refers to by name. A definition that cannot be built, or that
turns out not to be a parser, is a fault. -/
structure Definitions where
  /-- The definition of a name. -/
  get : String → Except Fault Grammar

namespace Definitions

/-- No name is defined. -/
def none : Definitions :=
  ⟨fun name ↦ .error (.missingKey (.text name))⟩

end Definitions

/-- Where in the construction of a grammar a part of it stands. -/
inductive Scope where
  /-- Outside every cell. -/
  | top
  /-- In the shared parser of a definition. -/
  | shared (name : String)
  /-- In a cell that built a definition anew. -/
  | anew (label : Nat) (outer : Scope)
  /-- In a cell to which a variable refers. -/
  | bound (label : Nat) (name : String) (body : Grammar) (outer : Scope)
  /-- In a parser that was made in a run. -/
  | afresh (stamp : Nat) (outer : Scope)

/-- A grammar in a scope. -/
structure Closure where
  /-- The scope. -/
  scope : Scope
  /-- The grammar. -/
  grammar : Grammar

namespace Scope

/-- The address of a scope. -/
def address : Scope → Cell
  | top => ⟨none, []⟩
  | shared name => ⟨some name, []⟩
  | anew label outer => ⟨outer.address.home, .label label :: outer.address.path⟩
  | bound label _ _ outer => ⟨outer.address.home, .label label :: outer.address.path⟩
  | afresh stamp outer => ⟨outer.address.home, .stamp stamp :: outer.address.path⟩

/-- The cell of a label in a scope. -/
def cell (scope : Scope) (label : Nat) : Cell :=
  ⟨scope.address.home, .label label :: scope.address.path⟩

/-- The cell that a variable refers to. A definition does not see the variables around the cell that
builds it. -/
def lookup (name : String) : Scope → Option Closure
  | bound label own body outer =>
    if own = name then some ⟨outer, .fix label own body⟩ else outer.lookup name
  | afresh _ outer => outer.lookup name
  | _ => none

/-- The scope of what the callback of a cell returns. -/
def inside (scope : Scope) : Grammar → Scope
  | .lazyShared _ name => .shared name
  | .fix label name body => .bound label name body scope
  | .lazy label _ | .unbuildable label _ _ => .anew label scope
  | _ => scope

end Scope

/-- The inside of a cell to which a variable refers. -/
def Closure.opened : Closure → Closure
  | ⟨scope, .fix label name body⟩ => ⟨.bound label name body scope, body⟩
  | other => other

/-- To what a reference leads: a cell to what its callback returns, and a variable to the inside of
the cell for which it stands. -/
def Definitions.behind (definitions : Definitions) (scope : Scope) : Grammar → Except Fault Closure
  | .use name => (definitions.get name).map (⟨.shared name, ·⟩)
  | .lazy label name => (definitions.get name).map (⟨.anew label scope, ·⟩)
  | .lazyShared _ name => (definitions.get name).map (⟨.shared name, ·⟩)
  | .fix label name body => .ok (Closure.opened ⟨scope, .fix label name body⟩)
  | .var name =>
    match scope.lookup name with
    | some cell => .ok cell.opened
    | .none => .error (.missingKey (.text name))
  | .unbuildable _ _ fault => .error fault
  | p => .ok ⟨scope, p⟩

end DiagnosticParsing
