/-!
# Sources and the errors in them

A source is a text with an optional name. Places in it are counted in the bytes
of its UTF-8 form, so a place is a number of bytes from the start and a span is
a place with a length. A text that is no expression has one fault: a character
that cannot stand where it is, an end where an operand should be, or a group that
is never closed. A syntax error is a fault in its source, and everything reported
about it is a function of the two: the message, a code, advice, and a labelled
span.
-/

namespace Calculator

/-- The number of bytes that characters take in UTF-8. -/
def byteLength : List Char → Nat
  | [] => 0
  | c :: cs => c.utf8Size + byteLength cs

@[simp] theorem byteLength_nil : byteLength [] = 0 := rfl

@[simp] theorem byteLength_cons (c : Char) (cs : List Char) :
    byteLength (c :: cs) = c.utf8Size + byteLength cs := rfl

/-- Bytes add up along a text. -/
@[simp] theorem byteLength_append (a b : List Char) :
    byteLength (a ++ b) = byteLength a + byteLength b := by
  induction a with
  | nil => simp
  | cons c a ih => simp [ih, Nat.add_assoc]

/-- A string that is made of characters has their bytes. -/
theorem utf8ByteSize_ofList (cs : List Char) :
    (String.ofList cs).utf8ByteSize = byteLength cs := by
  induction cs with
  | nil => rfl
  | cons c cs ih =>
    have first : String.ofList (c :: cs) = String.singleton c ++ String.ofList cs := by
      apply String.toList_injective
      simp
    rw [first, String.utf8ByteSize_append, String.utf8ByteSize_singleton, ih, byteLength_cons]

/-- The bytes of a string are those of its characters. -/
theorem byteLength_toList (s : String) : byteLength s.toList = s.utf8ByteSize := by
  rw [← utf8ByteSize_ofList, String.ofList_toList]

/-- The bytes of a whole number of leading characters end at a place between two
characters. -/
theorem isValid_byteLength {text : String} {before after : List Char}
    (split : text.toList = before ++ after) :
    (String.Pos.Raw.mk (byteLength before)).IsValid text := by
  rw [String.Pos.Raw.isValid_iff_exists_append]
  refine ⟨.ofList before, .ofList after, ?_, ?_⟩
  · apply String.toList_injective
    rw [split, String.toList_append, String.toList_ofList, String.toList_ofList]
  · rw [← utf8ByteSize_ofList]
    rfl

/-- A text and the name under which it is reported. -/
structure Source where
  /-- The name of the text, where it has one. -/
  name : Option String
  /-- The text. -/
  text : String
  deriving DecidableEq, Repr

/-- The name shown in reports. -/
def Source.displayName (source : Source) : String := source.name.getD "<input>"

/-- The number of bytes of the text. -/
def Source.size (source : Source) : Nat := source.text.utf8ByteSize

/-- A stretch of a text, in bytes. -/
structure Span where
  /-- The bytes before the stretch. -/
  offset : Nat
  /-- The bytes of the stretch. -/
  length : Nat
  deriving DecidableEq, Repr

/-- Why a text is no expression. -/
inductive Fault where
  /-- A character that cannot follow what is before it, and its place. -/
  | unexpectedCharacter (token : Char) (offset : Nat)
  /-- The text ends where an operand should be. -/
  | unexpectedEnd
  /-- A group that is not closed, and the place where it opens. -/
  | unclosedGroup (opening : Nat)
  deriving DecidableEq, Repr

/-- A fault and the source in which it was found. -/
structure SyntaxError where
  /-- The source that is no expression. -/
  source : Source
  /-- Why it is none. -/
  fault : Fault
  deriving DecidableEq, Repr

/-- One line that says what is wrong. -/
def Fault.message : Fault → String
  | .unexpectedCharacter token _ => "Unexpected character '" ++ token.toString ++ "'"
  | .unexpectedEnd => "Unexpected end of input"
  | .unclosedGroup _ => "Missing closing parenthesis"

/-- The stable code of the kind of fault. -/
def Fault.code : Fault → String
  | .unexpectedCharacter .. => "arith::unexpected_character"
  | .unexpectedEnd => "arith::unexpected_eof"
  | .unclosedGroup _ => "arith::unclosed_paren"

/-- Advice on how to mend the text. -/
def Fault.help : Fault → String
  | .unexpectedCharacter .. => "expected a number, `(`, `-` or an operator here"
  | .unexpectedEnd => "the expression ended while an operand was still expected"
  | .unclosedGroup _ => "add a `)` to close the group"

/-- What the marked span shows. -/
def Fault.label : Fault → String
  | .unexpectedCharacter .. => "this character"
  | .unexpectedEnd => "expected an operand after this"
  | .unclosedGroup _ => "this parenthesis is never closed"

/-- The marked span: the character, the parenthesis, or the last byte of a text
that ends too early. -/
def SyntaxError.span (error : SyntaxError) : Span :=
  match error.fault with
  | .unexpectedCharacter token offset => ⟨offset, token.utf8Size⟩
  | .unexpectedEnd => ⟨error.source.size - 1, error.source.size - (error.source.size - 1)⟩
  | .unclosedGroup opening => ⟨opening, 1⟩

/-- The place that the error points at. -/
def SyntaxError.offset (error : SyntaxError) : Nat :=
  match error.fault with
  | .unexpectedCharacter _ offset => offset
  | .unexpectedEnd => error.source.size
  | .unclosedGroup opening => opening

end Calculator
