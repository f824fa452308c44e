import DiagnosticParsing.Grammar.Characters
import DiagnosticParsing.Grammar.Lists
import DiagnosticParsing.Stream
import DiagnosticParsing.Value.Application

/-!
# Encodings of texts

A text of ASCII characters can be given to a parser as a text, as a list of characters, or as a run
of bytes. An `Encoding` is such a way: what a character and a text in a grammar are written as, and
the source that a stream runs over. Its laws are what all these ways have in common. Letters are
equal when the characters are, no letter is null, the elements of a word are its letters, and a
letter moves the position to the next row just when it is the line feed, although over bytes another
rule than over texts says so. The encodings are `Encoding.characters`, `Encoding.characterList`,
`Encoding.bytes` and `Encoding.byteArray`.

A step over an encoded text is the same in every encoding, up to the letter found
(`Encoding.next_stream`).

A `Template` is a grammar that leaves open how its characters are written. `Template.fill` writes
them down in an encoding.
-/

set_option autoImplicit false

namespace DiagnosticParsing

/-! ### Characters of ASCII -/

/-- A character of ASCII. -/
structure Ascii where
  /-- The character. -/
  char : Char
  /-- The code point is one of ASCII. -/
  toNat_lt : char.toNat < 128
  deriving DecidableEq

namespace Ascii

/-- The byte that encodes a character. -/
def toByte (c : Ascii) : UInt8 :=
  UInt8.ofNat c.char.toNat

/-- The byte of a character as a number. -/
theorem byte_toByte (c : Ascii) : Value.byte c.toByte = .int c.char.toNat := by
  have hlt : c.char.toNat < 2 ^ 8 := Nat.lt_trans c.toNat_lt (by decide)
  have htoNat : c.toByte.toNat = c.char.toNat := UInt8.toNat_ofNat_of_lt' hlt
  rw [Value.byte, htoNat]

end Ascii

/-- Numbers of characters are equal when the characters are. -/
theorem Value.same_toNat (c d : Char) : (int c.toNat).same (int d.toNat) = (c == d) := by
  by_cases h : c = d
  · rw [h, beq_self_eq_true]
    simp [same, number?]
  · rw [beq_false_of_ne h]
    have hne : (c.toNat : Int) ≠ d.toNat := fun heq ↦ h (Char.toNat_inj.mp (Int.ofNat.inj heq))
    simpa [same, number?] using hne

/-- Null equals nothing else. -/
theorem Value.same_null {v : Value} (h : v ≠ null) : null.same v = false := by
  cases v with
  | null => exact absurd rfl h
  | _ => rfl

/-- The position behind a character. -/
def Position.behind (position : Position) (c : Ascii) : Position :=
  if c.char == '\n' then position.nextRow else position.nextColumn

/-! ### Encodings -/

/-- A way of giving a text of ASCII characters to a parser. -/
structure Encoding where
  /-- What a character is written as. -/
  letter : Ascii → Value
  /-- What a text to be matched is written as. -/
  word : List Ascii → Value
  /-- What a stream runs over. -/
  source : List Ascii → Source
  /-- A letter is not taken for the end of the input. -/
  letter_ne_null : ∀ c, letter c ≠ .null
  /-- Letters are equal when the characters are. -/
  same_letter : ∀ c d, (letter c).same (letter d) = (c.char == d.char)
  /-- The elements of a word are letters. -/
  elements_word : ∀ text, (word text).elements = .ok (text.map letter)
  /-- The elements of a source are letters. -/
  toList_source : ∀ text, (source text).data.toList = text.map letter
  /-- The line feed starts a new row, and any other letter moves one column on. -/
  advance_source : ∀ text position c,
    (source text).advance position (letter c) = .ok (position.behind c)

namespace Encoding

/-- The rule for positions over texts. -/
theorem newline_char (position : Position) (c : Ascii) :
    Advance.newline (.text "\n") position (.char c.char) = .ok (position.behind c) := by
  have hsame : (Value.char c.char).same (.text "\n") = (c.char == '\n') := Value.same_char _ '\n'
  rw [Advance.newline, Position.advance, hsame]
  rfl

/-- The rule for positions over bytes. -/
theorem newline_byte (position : Position) (c : Ascii) :
    Advance.newline (.int 10) position (.int c.char.toNat) = .ok (position.behind c) := by
  have hsame : (Value.int c.char.toNat).same (.int 10) = (c.char == '\n') :=
    Value.same_toNat c.char '\n'
  rw [Advance.newline, Position.advance, hsame]
  rfl

/-- Texts, read by characters. -/
def characters : Encoding where
  letter c := .char c.char
  word text := .text (String.ofList (text.map (·.char)))
  source text := (Stream.ofText (String.ofList (text.map (·.char)))).source
  letter_ne_null := nofun
  same_letter _ _ := Value.same_char _ _
  elements_word text := by
    simp [Value.elements, Value.elements?, Function.comp_def]
  toList_source text := by
    simp [Stream.ofText, Stream.start, Source.data, Sequence.toList, Function.comp_def]
  advance_source _ position c := newline_char position c

/-- Lists of characters. -/
def characterList : Encoding where
  letter c := .char c.char
  word text := .text (String.ofList (text.map (·.char)))
  source text := (Stream.ofTokens (.list (text.map fun c ↦ .char c.char).toArray)).source
  letter_ne_null := nofun
  same_letter _ _ := Value.same_char _ _
  elements_word := characters.elements_word
  toList_source _ := rfl
  advance_source _ position c := newline_char position c

/-- Runs of bytes. Characters in a grammar are written as the numbers of their bytes. -/
def bytes : Encoding where
  letter c := .int c.char.toNat
  word text := .bytes (text.map (·.toByte))
  source text := (Stream.ofTokens (.bytes (text.map (·.toByte)).toArray)).source
  letter_ne_null := nofun
  same_letter _ _ := Value.same_toNat _ _
  elements_word text := by
    simp [Value.elements, Value.elements?, Function.comp_def, Ascii.byte_toByte]
  toList_source text := by
    simp [Stream.ofTokens, Stream.start, Source.data, Sequence.toList, Function.comp_def,
      Ascii.byte_toByte]
  advance_source _ position c := newline_byte position c

/-- Runs of bytes that can change. -/
def byteArray : Encoding where
  letter := bytes.letter
  word := bytes.word
  source text := (Stream.ofTokens (.byteArray (text.map (·.toByte)).toArray)).source
  letter_ne_null := bytes.letter_ne_null
  same_letter := bytes.same_letter
  elements_word := bytes.elements_word
  toList_source text := by
    simp [Stream.ofTokens, Stream.start, Source.data, Sequence.toList, Function.comp_def,
      Ascii.byte_toByte, bytes]
  advance_source _ position c := newline_byte position c

/-! ### Encoded streams -/

variable (e : Encoding) (text : List Ascii) (index : Nat) (position : Position)

/-- The stream over an encoded text. -/
def stream : Stream :=
  ⟨e.source text, index, position⟩

/-- The length of a text does not depend on the encoding. -/
theorem isEmpty_stream :
    (e.stream text index position).isEmpty = ((text.length : Int) - index == 0) := by
  have hsize : (e.source text).data.size = text.length := by
    rw [← Sequence.length_toList, e.toList_source, List.length_map]
  rw [Stream.isEmpty, Stream.remaining, Stream.data, stream, hsize]

/-- A step finds the letter of the next character, or null at the end of the text. -/
theorem next_stream :
    (e.stream text index position).next =
      match text[index]? with
      | some c => .ok (e.letter c, e.stream text (index + 1) (position.behind c))
      | none => .ok (.null, e.stream text index position) := by
  have hcurrent : (e.stream text index position).current? = text[index]?.map e.letter := by
    rw [Stream.current?, Stream.data, ← Sequence.getElem?_toList, stream, e.toList_source,
      List.getElem?_map]
  rw [Stream.next, hcurrent]
  rcases text[index]? with _ | c
  · rfl
  · simp only [Option.map_some, stream, e.advance_source]
    rfl

end Encoding

/-! ### Templates -/

/-- A grammar that leaves open how its characters are written. -/
inductive Template where
  /-- A character. -/
  | char (c : Ascii)
  /-- The characters of a text. -/
  | literal (text : List Ascii)
  /-- Any element. -/
  | anyElement
  /-- The end of the input. -/
  | eof
  /-- Succeeds with a value. -/
  | succeed (v : Value)
  /-- Fails silently. -/
  | empty
  /-- Both in sequence, with both values. -/
  | both (p q : Template)
  /-- Both in sequence, with the first value. -/
  | left (p q : Template)
  /-- Both in sequence, with the second value. -/
  | right (p q : Template)
  /-- Three in sequence, with the value in the middle. -/
  | mid (p q r : Template)
  /-- The first or, when it fails, the second. -/
  | either (p q : Template)
  /-- Any number of times. -/
  | many (p : Template)
  /-- Any number of times but none. -/
  | oneOrMore (p : Template)
  /-- Once or not at all. -/
  | optional (p : Template)
  /-- A fixed number of times. -/
  | count (n : Nat) (p : Template)
  /-- Any number of items with separators between them. -/
  | sepBy (p separator : Template)
  /-- One item or more, with separators between them. -/
  | sepBy1 (p separator : Template)
  /-- Any number of items, each with a separator behind it. -/
  | endBy (p separator : Template)
  /-- Without consuming. -/
  | lookAhead (p : Template)
  /-- Where the parser fails. -/
  | notFollowedBy (p : Template)
  /-- With a name for what was expected. -/
  | label (p : Template) (name : String)
  /-- With a message in front. -/
  | annotate (severity : Severity) (p : Template) (text : String)

namespace Template

/-- The first of several templates that succeeds. -/
def choice : List Template → Template
  | [] => empty
  | p :: rest => rest.foldl either p

/-- The grammar whose characters are written in an encoding. -/
def fill (e : Encoding) : Template → Grammar
  | char c => .char (e.letter c)
  | literal text => .literal (e.word text)
  | anyElement => .anyElement
  | eof => .eof
  | succeed v => .succeed v
  | empty => .empty
  | both p q => .both (p.fill e) (q.fill e)
  | left p q => .left (p.fill e) (q.fill e)
  | right p q => .right (p.fill e) (q.fill e)
  | mid p q r => .mid (p.fill e) (q.fill e) (r.fill e)
  | either p q => .either (p.fill e) (q.fill e)
  | many p => .many (p.fill e)
  | oneOrMore p => .oneOrMore (p.fill e)
  | optional p => .optional (p.fill e)
  | count n p => .count n (p.fill e)
  | sepBy p separator => .sepBy (p.fill e) (separator.fill e)
  | sepBy1 p separator => .sepBy1 (p.fill e) (separator.fill e)
  | endBy p separator => .endBy (p.fill e) (separator.fill e)
  | lookAhead p => .lookAhead (p.fill e)
  | notFollowedBy p => .notFollowedBy (p.fill e)
  | label p name => .label (p.fill e) name
  | annotate severity p text => .annotate severity (p.fill e) text

theorem fill_foldl_either (e : Encoding) (rest : List Template) :
    ∀ p : Template, (rest.foldl either p).fill e =
      (rest.map (·.fill e)).foldl Grammar.either (p.fill e) := by
  induction rest with
  | nil => exact fun _ ↦ rfl
  | cons q rest ih => exact fun p ↦ ih (either p q)

/-- A choice among templates is filled by a choice among grammars. -/
theorem fill_choice (e : Encoding) (parsers : List Template) :
    (choice parsers).fill e = Grammar.choice (parsers.map (·.fill e)) := by
  rcases parsers with _ | ⟨p, rest⟩
  · rfl
  · exact fill_foldl_either e rest p

end Template

end DiagnosticParsing
