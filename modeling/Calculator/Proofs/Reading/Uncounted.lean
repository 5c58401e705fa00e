import Calculator.Proofs.Reading.Derivation
import Calculator.Proofs.Reading.Viability

/-!
# Digits that do not count

Before the point of a literal only so many digits count, and any further one leaves
no trace but its place. Two texts that differ in such a digit are read side by side:
the states of the two readings hold literals that differ in that digit alone, and no
longer differ once the literal has ended. So both texts are the same expression, or
have the same fault.
-/

namespace Calculator

/-- Two literals have equally many digits before the point, the same digits that count
among them, and the same digits behind the point. -/
structure Literal.Alike (l m : Literal) : Prop where
  /-- The same digits count. -/
  counted : l.whole.toList.take countedDigits = m.whole.toList.take countedDigits
  /-- There are equally many before the point. -/
  length : l.whole.toList.length = m.whole.toList.length
  /-- Behind the point all digits are the same. -/
  fraction : l.fraction = m.fraction

namespace Literal

/-- A literal is like itself. -/
theorem Alike.refl (l : Literal) : l.Alike l := ⟨rfl, rfl, rfl⟩

/-- Either of two literals is like the other. -/
theorem Alike.symm {l m : Literal} (alike : l.Alike m) : m.Alike l :=
  ⟨alike.counted.symm, alike.length.symm, alike.fraction.symm⟩

/-- Like literals denote the same double. -/
theorem Alike.value_eq {l m : Literal} (alike : l.Alike m) : l.value = m.value := by
  have whole := wholeValue_eq_of_take alike.counted alike.length
  rw [value, value, whole, alike.fraction]

/-- Like literals have a point both or neither. -/
theorem Alike.hasPoint_eq {l m : Literal} (alike : l.Alike m) : l.hasPoint = m.hasPoint :=
  congrArg Option.isSome alike.fraction

/-- Literals stay alike with the same digit at their ends. -/
theorem Alike.push {l m : Literal} (alike : l.Alike m) (d : Digit) :
    (l.push d).Alike (m.push d) := by
  obtain ⟨whole, fraction⟩ := l
  obtain ⟨whole', fraction'⟩ := m
  obtain ⟨counted, length, rfl⟩ := alike
  cases fraction with
  | some digits => exact ⟨counted, length, rfl⟩
  | none =>
    simp only at counted length
    refine ⟨?_, ?_, rfl⟩
    · simp only [Literal.push, Array.toList_push, List.take_append, counted, length]
    · simp only [Literal.push, Array.toList_push, List.length_append, length]

/-- Literals stay alike with a point at their ends. -/
theorem Alike.withPoint {l m : Literal} (alike : l.Alike m) : l.withPoint.Alike m.withPoint :=
  ⟨alike.counted, alike.length, rfl⟩

/-- A literal without a point in which all digits that count are written becomes alike
with any further digit. -/
theorem alike_push {l : Literal} (integer : l.hasPoint = false)
    (full : countedDigits ≤ l.whole.size) (d e : Digit) : (l.push d).Alike (l.push e) := by
  obtain ⟨whole, fraction⟩ := l
  cases fraction with
  | some digits => contradiction
  | none =>
    have enough : countedDigits ≤ whole.toList.length := full
    refine ⟨?_, ?_, rfl⟩
    · simp only [Literal.push, Array.toList_push, List.take_append_of_le_length enough]
    · simp only [Literal.push, Array.toList_push, List.length_append, List.length_singleton]

end Literal

/-- Two phases are the same but for the digits of a literal that do not count. -/
inductive Phase.Agrees : Phase → Phase → Prop where
  /-- An operand has to follow in both. -/
  | awaiting : Agrees .awaiting .awaiting
  /-- The literals are alike. -/
  | literal {l m : Literal} (alike : l.Alike m) : Agrees (.literal l) (.literal m)
  /-- The same operand is complete. -/
  | complete (operand : Expr) : Agrees (.complete operand) (.complete operand)

/-- Phases that agree hold the same operand. -/
theorem Phase.Agrees.operand?_eq {p q : Phase} (agrees : p.Agrees q) :
    p.operand? = q.operand? := by
  cases agrees with
  | awaiting | complete => rfl
  | literal alike => rw [operand?, operand?, alike.value_eq]

/-- Two states differ in the digits of a literal that do not count, and in nothing
else. -/
structure State.Agrees (s t : State) : Prop where
  /-- The same groups are open. -/
  groups : s.groups = t.groups
  /-- The same stands before the current operand. -/
  context : s.context = t.context
  /-- The operand has been read as far. -/
  phase : s.phase.Agrees t.phase

namespace State

/-- Either of two states agrees with the other. -/
theorem Agrees.symm {s t : State} (agrees : s.Agrees t) : t.Agrees s := by
  obtain ⟨groups, context, phase⟩ := s
  obtain ⟨groups', context', phase'⟩ := t
  obtain ⟨rfl, rfl, phase⟩ := agrees
  refine ⟨rfl, rfl, ?_⟩
  cases phase with
  | awaiting => exact .awaiting
  | literal alike => exact .literal alike.symm
  | complete operand => exact .complete operand

/-- The same character leads from states that agree to states that agree. -/
theorem Advance.agrees {behind : Nat} {s t next : State} {c : Char}
    (advance : Advance behind s c next) (agrees : s.Agrees t) :
    ∃ next', Advance behind t c next' ∧ next.Agrees next' := by
  obtain ⟨groups, context, phase⟩ := s
  obtain ⟨groups', context', phase'⟩ := t
  obtain ⟨rfl, rfl, same⟩ := agrees
  have operands := same.operand?_eq
  cases advance with
  | firstDigit d =>
    cases same
    exact ⟨_, .firstDigit d, rfl, rfl, .literal (.refl _)⟩
  | digit l d =>
    cases same with
    | literal alike => exact ⟨_, .digit _ d, rfl, rfl, .literal (alike.push d)⟩
  | point first =>
    cases same with
    | literal alike =>
      have first' := alike.hasPoint_eq.symm.trans first
      exact ⟨_, .point first', rfl, rfl, .literal alike.withPoint⟩
  | sign =>
    cases same
    exact ⟨_, .sign, rfl, rfl, .awaiting⟩
  | opening =>
    cases same
    exact ⟨_, .opening, rfl, rfl, .awaiting⟩
  | closing read =>
    -- the operand is all that is left of a literal, and it is the same in both
    exact ⟨_, .closing (operands.symm.trans read), rfl, rfl, .complete _⟩
  | operator op read => exact ⟨_, .operator op (operands.symm.trans read), rfl, rfl, .awaiting⟩

/-- The same walk leads from states that agree to states that agree. -/
theorem Agrees.walk {s t next : State} (agrees : s.Agrees t) {places : List (Char × Nat)}
    (walked : s.walk? places = some next) :
    ∃ next', t.walk? places = some next' ∧ next.Agrees next' := by
  have places : List.Forall₂ Eq places places := List.forall₂_refl places
  refine walk?_of_forall₂ ?_ agrees places walked
  rintro s t next place _ agrees rfl advance
  exact advance.agrees agrees

/-- What cannot stand next in one of two states that agree cannot in the other. -/
theorem Agrees.stopsAt {s t : State} (agrees : s.Agrees t) {left : List Char}
    (stops : s.StopsAt left) : t.StopsAt left := by
  intro c next
  obtain ⟨visible, refused⟩ := stops c next
  refine ⟨visible, ?_⟩
  cases stands : t.step? c with
  | none => rfl
  | some step =>
    obtain ⟨next', advance, -⟩ := (Advance.of_step? stands 0).agrees agrees.symm
    have allowed := advance?_eq_some.mpr advance
    rw [advance?, refused] at allowed
    contradiction

/-- A text that is read up to the same place amounts to the same in states that
agree. -/
theorem Agrees.verdict_eq {s t : State} (agrees : s.Agrees t) (offset : Nat)
    (next : Option Char) : s.verdict offset next = t.verdict offset next := by
  unfold verdict
  rw [agrees.phase.operand?_eq, agrees.groups, agrees.context]

end State

/-- Behind these characters a digit would not count: all of them are read, and the last
one read is in the whole part of a literal that has as many digits as count already. -/
def CountedOut (before : List Char) : Prop :=
  let run := Source.run ⟨none, .ofList before⟩
  run.cursor.rest = [] ∧ ∃ l, run.state.phase = .literal l ∧ l.hasPoint = false ∧
    Literal.countedDigits ≤ l.whole.size

/-- A walk over characters that are counted out ends in such a literal. -/
theorem CountedOut.walk {before : List Char} (out : CountedOut before) :
    ∃ groups context l, State.start.walk? (placed 0 before) = some ⟨groups, context, .literal l⟩ ∧
      l.hasPoint = false ∧ Literal.countedDigits ≤ l.whole.size := by
  obtain ⟨ended, l, inside, integer, full⟩ := out
  obtain ⟨read, left, ⟨groups, context, phase⟩, split, walk⟩ :=
    State.start.exists_walksUpTo 0 before
  have text : (Cursor.ofSource ⟨none, .ofList before⟩).rest = read ++ left := by
    rw [Cursor.rest_ofSource, String.toList_ofList, split]
  obtain ⟨reached, rest, -⟩ := State.run_of_walksUpTo _ text walk
  obtain rfl : left = [] := rest.symm.trans ended
  obtain rfl : phase = .literal l := (congrArg State.phase reached).symm.trans inside
  rw [List.append_nil] at split
  exact ⟨groups, context, l, split ▸ walk.walked, integer, full⟩

/-- Characters are counted out if a walk over them ends in such a literal. -/
theorem countedOut_of_walk {before : List Char} {groups : List OpenGroup} {context : Context}
    {l : Literal}
    (walked : State.start.walk? (placed 0 before) = some ⟨groups, context, .literal l⟩)
    (integer : l.hasPoint = false) (full : Literal.countedDigits ≤ l.whole.size) :
    CountedOut before := by
  have text : (Cursor.ofSource ⟨none, .ofList before⟩).rest = before ++ [] := by
    rw [Cursor.rest_ofSource, String.toList_ofList, List.append_nil]
  obtain ⟨reached, rest, -⟩ := State.run_of_walksUpTo _ text ⟨walked, State.stopsAt_nil _⟩
  exact ⟨rest, l, congrArg State.phase reached, integer, full⟩

/-- The character of a digit is a single byte and no blank. -/
theorem Digit.utf8Size_toChar (d : Digit) : d.toChar.utf8Size = 1 := by
  revert d
  decide

/-- A walk over a text goes on behind the characters before one and that one. -/
theorem State.WalksUpTo.behind {start middle next state : State} {before read left : List Char}
    {c : Char} (walked : start.walk? (placed 0 before) = some middle) (visible : c ≠ ' ')
    (advance : Advance (byteLength before + c.utf8Size) middle c next)
    (walk : next.WalksUpTo (byteLength before + c.utf8Size) read left state) :
    start.WalksUpTo 0 (before ++ c :: read) left state := by
  refine ⟨?_, walk.stops⟩
  rw [placed_append, walk?_append, walked, Nat.zero_add]
  simp only [Option.bind_some, placed, visible, if_false, walk?, advance?_eq_some.mpr advance]
  exact walk.walked

/-- Exchanging a digit that does not count for another one changes neither the
expression that a text is nor the fault that it has. -/
theorem Source.parse_of_countedOut {a b : Source} {before after : List Char} {d e : Digit}
    (out : CountedOut before) (first : a.text.toList = before ++ d.toChar :: after)
    (second : b.text.toList = before ++ e.toChar :: after) :
    (∃ tree, a.parse = .ok tree ∧ b.parse = .ok tree) ∨
      ∃ fault, a.parse = .error ⟨a, fault⟩ ∧ b.parse = .error ⟨b, fault⟩ ∧
        SyntaxError.offset ⟨a, fault⟩ = SyntaxError.offset ⟨b, fault⟩ ∧
        SyntaxError.span ⟨a, fault⟩ = SyntaxError.span ⟨b, fault⟩ := by
  obtain ⟨groups, context, l, walked, integer, full⟩ := out.walk
  have sizes : a.size = b.size := by
    rw [size, size, ← byteLength_toList, ← byteLength_toList, first, second]
    simp only [byteLength_append, byteLength_cons, Digit.utf8Size_toChar]
  let behind := byteLength before + 1
  let state (x : Digit) : State := ⟨groups, context, .literal (l.push x)⟩
  -- the digit itself is read in both texts, and makes no difference from there on
  have agrees : (state d).Agrees (state e) :=
    ⟨rfl, rfl, .literal (Literal.alike_push integer full d e)⟩
  obtain ⟨read, left, last, rfl, walk⟩ := (state d).exists_walksUpTo behind after
  obtain ⟨last', walked', agrees'⟩ := agrees.walk walk.walked
  have walk' : (state e).WalksUpTo behind read left last' := ⟨walked', agrees'.stopsAt walk.stops⟩
  have whole (x : Digit) {s : State} (walk : (state x).WalksUpTo behind read left s) :
      State.start.WalksUpTo 0 (before ++ x.toChar :: read) left s := by
    refine .behind walked x.toChar_ne.2.2.2.2 (.digit l x) ?_
    rwa [x.utf8Size_toChar]
  have place (x : Digit) : byteLength (before ++ x.toChar :: read) = behind + byteLength read := by
    rw [byteLength_append, byteLength_cons, x.utf8Size_toChar, Nat.add_assoc]
  have text (x : Digit) :
      before ++ x.toChar :: (read ++ left) = before ++ x.toChar :: read ++ left := by simp
  rw [text] at first second
  rw [parse_of_walksUpTo first (whole d walk), parse_of_walksUpTo second (whole e walk'), place,
    place, ← agrees'.verdict_eq]
  cases last.verdict (behind + byteLength read) left.head? with
  | ok tree => exact .inl ⟨tree, rfl, rfl⟩
  | error fault =>
    refine .inr ⟨fault, rfl, rfl, ?_, ?_⟩
    · cases fault <;> simp [SyntaxError.offset, sizes]
    · cases fault <;> simp [SyntaxError.span, sizes]

/-- In a group the 39th digit of a number does not count, be it behind a blank and
before a point. -/
theorem Source.parse_of_countedOut_of_group :
    let before := ['('] ++ (List.replicate 38 '1' ++ [' '])
    CountedOut before ∧ ∃ tree,
      Source.parse ⟨none, .ofList (before ++ '7' :: ['.', '5', ')'])⟩ = .ok tree ∧
        Source.parse ⟨none, .ofList (before ++ '0' :: ['.', '5', ')'])⟩ = .ok tree := by
  intro before
  let ones : Literal := ⟨Array.replicate 38 1, none⟩
  let number : Literal := ⟨(Array.replicate 38 1).push 7, some #[5]⟩
  let text (d : Digit) : String := .ofList (before ++ d.toChar :: ['.', '5', ')'])
  have opened : State.start.walk? (placed 0 ['(']) = some ⟨[⟨0, .empty⟩], .empty, .awaiting⟩ := rfl
  have walked : State.start.walk? (placed 0 before) =
      some ⟨[⟨0, .empty⟩], .empty, .literal ones⟩ :=
    State.walk?_placed_append opened (State.reaches_literal (l := ones) _ _ (by decide))
  have out := countedOut_of_walk walked rfl (by decide)
  have derived : Derives Literal.value .expression (visible (text 7).toList)
      (.number number.value) := by
    rw [String.toList_ofList]
    exact .term (.factor (.group (.term (.factor (.number number (by decide))))))
  refine ⟨out, ?_⟩
  rcases parse_of_countedOut (a := ⟨none, text 7⟩) (b := ⟨none, text 0⟩) out
    (String.toList_ofList ..) (String.toList_ofList ..) with both | ⟨fault, failed, -⟩
  · exact both
  · have parsed := parse_of_derives derived
    exact absurd (parsed.symm.trans failed) (by simp)

end Calculator
