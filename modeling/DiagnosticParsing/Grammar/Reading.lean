import DiagnosticParsing.Grammar
import DiagnosticParsing.Parse

/-!
# Readings of grammars

`Grammar.read` turns a grammar into a `Parse`, by recursion on the grammar. What can be read in more
than one way is left to a `Reading`: how many rounds a repetition is given, what a reference does in
the environment in which it stands, and what becomes of parsers that are made in a run and of parse
functions that have been copied.
-/

set_option autoImplicit false

namespace DiagnosticParsing

/-- What repeating a parser does. -/
structure Loops where
  /-- Any number of times. -/
  many : Parse → Parse
  /-- Any number of times but none. -/
  oneOrMore : Parse → Parse
  /-- A chain of operators, applied from the left. -/
  chainLeft : Parse → Parse → Parse
  /-- A chain of operators, applied from the right. -/
  chainRight : Parse → Parse → Parse

/-- Repetitions with a bound on the number of their rounds. -/
def Loops.within (bound : Nat) : Loops :=
  ⟨Parse.many bound, Parse.oneOrMore bound, Parse.chainLeft bound, Parse.chainRight bound⟩

/-- What is made of a grammar where grammars can be read in different ways. -/
structure Reading (ε : Type) where
  /-- What repetitions do. -/
  loops : Loops
  /-- What a reference does. -/
  refer : ε → Grammar → Parse
  /-- What a parser does that is made anew at each run, when it is known what it does in the
  environment in which it is made. -/
  afresh : ε → (ε → Parse) → Parse
  /-- What the copy of a parse function does, when it is known what the parser does. -/
  copied : ε → Grammar → Parse → Parse

namespace Grammar

/-- What a grammar does in an environment. -/
def read {ε : Type} (reading : Reading ε) : ε → Grammar → Parse
  | _, succeed v => Parse.succeed v
  | _, empty => Parse.empty
  | _, eof => Parse.eof
  | _, element test describe => Parse.element test describe
  | _, token test describe => Parse.token test describe
  | _, literal expected => Parse.literal expected
  | _, regex pattern => Parse.regex pattern
  | _, raise fault => Parse.raise fault
  | _, reply answer => Parse.reply answer
  | env, map p f => Parse.map (read reading env p) f
  | env, mapOption p f => Parse.mapOption (read reading env p) f
  | env, mapResult p f => Parse.mapResult (read reading env p) f
  | env, compose p q => Parse.compose (read reading env p) (read reading env q)
  | env, bind p choose next =>
    Parse.chooseNext (read reading env p) choose fun value ↦ read reading env (next value)
  | env, both p q => Parse.both (read reading env p) (read reading env q)
  | env, left p q => Parse.left (read reading env p) (read reading env q)
  | env, right p q => Parse.right (read reading env p) (read reading env q)
  | env, mid p q r => Parse.mid (read reading env p) (read reading env q) (read reading env r)
  | env, either p q => Parse.either (read reading env p) (read reading env q)
  | env, many p => reading.loops.many (read reading env p)
  | env, oneOrMore p => reading.loops.oneOrMore (read reading env p)
  | env, optional p => Parse.optional (read reading env p)
  | env, count n p => Parse.count n (read reading env p)
  | env, chainLeft p op => reading.loops.chainLeft (read reading env p) (read reading env op)
  | env, chainRight p op => reading.loops.chainRight (read reading env p) (read reading env op)
  | env, lookAhead p => Parse.lookAhead (read reading env p)
  | env, notFollowedBy p => Parse.notFollowedBy (read reading env p)
  | env, annotate severity p text => Parse.annotate severity (read reading env p) text
  | env, label p name => Parse.label (read reading env p) name
  | env, inspect p observe => Parse.inspect (read reading env p) observe
  | env, recover p default => Parse.recover (read reading env p) default
  | env, trace name p => Parse.trace name (read reading env p)
  | env, afresh p => reading.afresh env fun inner ↦ read reading inner p
  | env, copied p => reading.copied env p (read reading env p)
  | env, reference => reading.refer env reference

end Grammar

end DiagnosticParsing
