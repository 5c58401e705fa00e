import Mathlib.Data.List.Forall2
import Mathlib.Data.List.TakeWhile
import Calculator.Session
import Calculator.Proofs.Reading.Naming

/-!
# Files and single expressions

The lines of a file are worked through up to the first bad one, which is neither
blank nor an expression. For each of them that is not blank the file has the line
that rendering it and evaluating it would print on their own, and one record with
its number. The bad line ends the report under its own name, with the fault that
the line has on its own. Bytes that hold no text are refused as a whole.
-/

namespace Calculator

/-- The bytes of a text hold that text. -/
theorem textOf_toUTF8 (text : String) : textOf text.toUTF8 = .ok text := by
  simp only [textOf, String.fromUTF8?, String.toUTF8_eq_toByteArray, dif_pos text.isValidUTF8]
  rfl

/-- The report on a file that holds the given bytes. -/
def batchReport (file : String) (bytes : ByteArray) : Report :=
  (Command.batch file).session fun _ => .ok bytes

/-- The report on a file that holds a text works through that text. -/
theorem batchReport_toUTF8 (file text : String) :
    batchReport file text.toUTF8 = textSession file text := by
  unfold batchReport Command.session
  dsimp only [bind, Except.bind]
  rw [textOf_toUTF8]

/-- What a file shows for a line: what rendering the line prints and what
evaluating it prints, joined on one line. -/
def Answers (line : List Char) (shown : String) : Prop :=
  ∃ rendered value : String,
    (∀ read, ((Command.render (.ofList line)).session read).stdout = rendered ++ "\n") ∧
      (∀ read, ((Command.eval (.ofList line)).session read).stdout = value ++ "\n") ∧
      shown = rendered ++ " = " ++ value

end Calculator
