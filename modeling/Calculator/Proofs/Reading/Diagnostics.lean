import Calculator.Proofs.Reading.Naming
import Calculator.Proofs.Reading.Viability

/-!
# What errors point at

An error marks a stretch of its text. It is the character that cannot stand where
it is, the parenthesis that is never closed, or the last character of a text that
ends too early, which is a single byte since nothing but ASCII can be read. So the
stretch lies in the text and no character is cut by its ends.
-/

namespace Calculator

/-- A span of a text covers some of its characters. -/
def Span.Covers (span : Span) (text : String) (cs : List Char) : Prop :=
  ∃ before after, text.toList = before ++ cs ++ after ∧ span = ⟨byteLength before, byteLength cs⟩

/-- A span that covers characters ends in the text, and it starts and ends between
two characters. -/
theorem Span.Covers.isValid {span : Span} {text : String} {cs : List Char}
    (covers : span.Covers text cs) :
    span.offset + span.length ≤ text.utf8ByteSize ∧
      (String.Pos.Raw.mk span.offset).IsValid text ∧
      (String.Pos.Raw.mk (span.offset + span.length)).IsValid text := by
  obtain ⟨before, after, split, rfl⟩ := covers
  have start : text.toList = before ++ (cs ++ after) := by rw [split, List.append_assoc]
  have ending : byteLength (before ++ cs) = byteLength before + byteLength cs :=
    byteLength_append ..
  refine ⟨?_, isValid_byteLength start, ending ▸ isValid_byteLength split⟩
  rw [← byteLength_toList, split, byteLength_append, ending]
  exact Nat.le_add_right ..

/-- What an error points at, by the kind of its fault. -/
def SyntaxError.PointsAt (error : SyntaxError) (text : String) : Prop :=
  match error.fault with
  | .unexpectedCharacter token _ =>
    token ≠ ' ' ∧ error.span.Covers text [token] ∧
      error.offset = error.span.offset ∧ error.offset < text.utf8ByteSize
  | .unclosedGroup _ =>
    error.span.Covers text ['('] ∧
      error.offset = error.span.offset ∧ error.offset < text.utf8ByteSize
  | .unexpectedEnd =>
    error.offset = text.utf8ByteSize ∧ (error.span = ⟨0, 0⟩ ↔ text = "") ∧
      ∀ last, text.toList.getLast? = some last → last.toNat < 128 ∧ error.span.Covers text [last]

/-- A span that covers a character starts before the end of the text. -/
theorem Span.Covers.offset_lt {span : Span} {text : String} {c : Char}
    (covers : span.Covers text [c]) : span.offset < text.utf8ByteSize := by
  have inside := covers.isValid.1
  obtain ⟨before, after, -, rfl⟩ := covers
  have size := c.utf8Size_pos
  simp only [byteLength_cons, byteLength_nil] at inside ⊢
  omega

/-- The marked span of an error lies in its text and cuts no character. -/
theorem SyntaxError.PointsAt.isValid {error : SyntaxError} {text : String}
    (points : error.PointsAt text) :
    error.span.offset + error.span.length ≤ text.utf8ByteSize ∧
      (String.Pos.Raw.mk error.span.offset).IsValid text ∧
      (String.Pos.Raw.mk (error.span.offset + error.span.length)).IsValid text := by
  obtain ⟨origin, fault⟩ := error
  cases fault with
  | unexpectedCharacter token offset => exact points.2.1.isValid
  | unclosedGroup opening => exact points.1.isValid
  | unexpectedEnd =>
    obtain ⟨-, empty, last⟩ := points
    cases final : text.toList.getLast? with
    | some c => exact (last c final).2.isValid
    | none =>
      have blank : text = "" := by
        apply String.toList_injective
        rw [List.getLast?_eq_none_iff.mp final]
        rfl
      have covers : Span.Covers ⟨0, 0⟩ text [] := ⟨[], [], by simp [blank], rfl⟩
      rw [empty.mpr blank]
      exact covers.isValid

end Calculator
