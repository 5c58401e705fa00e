import Calculator.CharacterClass
import Calculator.Grammar
import Calculator.Rendering
import Calculator.Source

/-!
# The log of a reading

A record is a message with a level, the part of the program it comes from, and
named fields. A threshold keeps the records up to its level, in order. Reading a
text leaves a trail of events, each of which has a record: it starts, rules of
the grammar are entered, numbers are completed, and it ends with an expression or
an error.

A record is written on one line as its level, the part of the program it comes
from, its message and its fields. A text from outside is shown in a field between
quotation marks: the marks and the backslash with a backslash in front, four
controls by a letter, and every other character without a visible form by its
code point. In a message it stands as it is, apart from the characters that would
steer a terminal. What a line break would carry to a second line is not written.
-/

namespace Calculator

/-- How much detail a record adds. -/
inductive Level where
  | info
  | debug
  | trace
  deriving DecidableEq, Repr

/-- Levels are ordered by growing detail. -/
def Level.detail : Level → Nat
  | .info => 1
  | .debug => 2
  | .trace => 3

/-- The name of a level in a log. -/
def Level.name : Level → String
  | .info => "INFO"
  | .debug => "DEBUG"
  | .trace => "TRACE"

/-- What a field of a record holds. -/
inductive FieldValue where
  /-- A text from outside. -/
  | text (s : String)
  /-- A count or a place. -/
  | count (n : Nat)
  /-- A number. -/
  | value (x : Float)
  /-- An expression. -/
  | tree (e : Expr)
  deriving DecidableEq

/-- One entry of a log. -/
structure Record where
  /-- How much detail the record adds. -/
  level : Level
  /-- The part of the program that wrote it. -/
  target : String
  /-- What happened. -/
  message : String
  /-- Named details. -/
  fields : List (String × FieldValue)
  deriving DecidableEq

/-- How much of a log is kept: levels whose detail is at most this number. -/
abbrev Verbosity := Nat

/-- The records that a verbosity keeps. -/
def Record.upTo (verbosity : Verbosity) (records : List Record) : List Record :=
  records.filter (fun record => decide (record.level.detail ≤ verbosity))

/-- Keeping records treats each one on its own. -/
@[simp] theorem Record.upTo_append (verbosity : Verbosity) (a b : List Record) :
    upTo verbosity (a ++ b) = upTo verbosity a ++ upTo verbosity b :=
  List.filter_append ..

/-- One event of a reading. -/
inductive Event where
  /-- The whole text is at hand. -/
  | started (text : String)
  /-- A rule is entered at a place. -/
  | entered (rule : Rule) (offset : Nat)
  /-- A literal is complete and denotes this number. -/
  | number (value : Float)
  /-- The text is this expression. -/
  | parsed (tree : Expr)
  /-- The text is no expression. -/
  | failed (error : SyntaxError)
  deriving DecidableEq

/-- The part of the program that reads expressions, as named in a log. -/
def Event.target : String := "arith::parse"

/-- The record of an event. The first and the last event of a reading are of
general interest, those between only when single steps are looked at. -/
def Event.record : Event → Record
  | .started text => ⟨.debug, target, "parsing expression", [("input", .text text)]⟩
  | .entered rule offset => ⟨.trace, target, rule.name, [("offset", .count offset)]⟩
  | .number value => ⟨.trace, target, "number", [("value", .value value)]⟩
  | .parsed tree => ⟨.debug, target, "parsed expression", [("tree", .tree tree)]⟩
  | .failed error =>
    ⟨.debug, target, "parse failed: " ++ error.fault.message, [("offset", .count error.offset)]⟩

/-- The code point of a character between braces, in lower-case hexadecimal. -/
def bracedCodePoint (c : Char) : List Char :=
  '\\' :: 'u' :: '\x7b' :: Nat.toDigits 16 c.toNat ++ ['\x7d']

/-- The letter that stands behind a backslash for a character. -/
def escapeLetter? (c : Char) : Option Char :=
  if c = '\x00' then some '0'
  else if c = '\t' then some 't'
  else if c = '\r' then some 'r'
  else if c = '\n' then some 'n'
  else if c = '"' then some '"'
  else if c = '\\' then some '\\'
  else none

/-- How a character is written between quotation marks. -/
def quotedCharacter (c : Char) : List Char :=
  match escapeLetter? c with
  | some letter => ['\\', letter]
  | none => if isHidden c then bracedCodePoint c else [c]

/-- A text between quotation marks. -/
def quoted (text : List Char) : List Char := '"' :: text.flatMap quotedCharacter ++ ['"']

/-- How a character is written in a message. -/
def messageCharacter (c : Char) : List Char :=
  if c = '\x1b' then ['\\', 'x', '1', 'b']
  else if c = '\x07' then ['\\', 'x', '0', '7']
  else if c = '\x08' then ['\\', 'x', '0', '8']
  else if c = '\x0c' then ['\\', 'x', '0', 'c']
  else if c = '\x7f' then ['\\', 'x', '7', 'f']
  else if 0x80 ≤ c.toNat ∧ c.toNat ≤ 0x9F then bracedCodePoint c
  else [c]

/-- The text of a field's value. -/
def FieldValue.characters : FieldValue → List Char
  | .text s => quoted s.toList
  | .count n => Nat.toDigits 10 n
  | .value x => NumeralStyle.logged.numeral x
  | .tree e => e.characters

/-- A field with a blank before it. -/
def fieldCharacters (field : String × FieldValue) : List Char :=
  ' ' :: field.1.toList ++ '=' :: field.2.characters

/-- The characters of a record, line breaks of its message included. -/
def Record.characters (record : Record) : List Char :=
  record.level.name.toList ++ ' ' :: record.target.toList ++ ':' :: ' ' ::
    record.message.toList.flatMap messageCharacter ++ record.fields.flatMap fieldCharacters

/-- The line of a record. -/
def Record.line (record : Record) : String :=
  .ofList (record.characters.takeWhile (· != '\n'))

end Calculator
