import Calculator.Proofs.Reading.History
import Calculator.Proofs.Reading.Walk

/-!
# Recursive descent

The rules of the grammar, read as procedures that call each other, describe the
reading of a text from the top down: a rule looks for a character, calls the rules
for its parts, and comes back with an expression or with a fault. `Returns` says
what comes back from a rule, or from a loop in one, that is entered at a place. It
comes back from everywhere, and with one thing only. The rules call each other
without taking a character, so what grows smaller is the number of visible
characters left together with the rank of the rule.
-/

namespace Calculator

/-- The visible characters behind the place. -/
def Cursor.visibleLeft (cursor : Cursor) : Nat := (visible cursor.rest).length

/-- From one place to another a number of visible characters is passed. -/
structure Cursor.Passes (cursor : Cursor) (count : Nat) (place : Cursor) : Prop where
  /-- Both are places of one source. -/
  source_eq : place.source = cursor.source
  /-- Every character has at least one byte. -/
  offset_le : cursor.offset + count ≤ place.offset
  /-- They are no longer left. -/
  left_eq : place.visibleLeft + count = cursor.visibleLeft

namespace Cursor

/-- Nothing is passed where the place stays. -/
theorem Passes.refl (cursor : Cursor) : cursor.Passes 0 cursor := ⟨rfl, Nat.le_refl _, rfl⟩

/-- What is passed on two ways is passed on both together. -/
theorem Passes.trans {a b c : Cursor} {m n : Nat} (first : a.Passes m b) (second : b.Passes n c) :
    a.Passes (m + n) c := by
  obtain ⟨source, offset, left⟩ := first
  obtain ⟨source', offset', left'⟩ := second
  exact ⟨source'.trans source, by omega, by omega⟩

/-- Where some are passed fewer are left. -/
theorem Passes.fewer {cursor place : Cursor} {count : Nat} (h : cursor.Passes count place)
    (positive : 0 < count) : place.visibleLeft < cursor.visibleLeft := by
  have left := h.left_eq
  omega

/-- Passing over blanks leaves the visible characters. -/
@[simp] theorem visibleLeft_skipBlanks (cursor : Cursor) :
    cursor.skipBlanks.visibleLeft = cursor.visibleLeft := by
  have split : cursor.rest = cursor.rest.takeWhile (· == ' ') ++ cursor.skipBlanks.rest :=
    List.takeWhile_append_dropWhile.symm
  have total := congrArg visible split
  rw [visible_append, visible_takeWhile_blank, List.nil_append] at total
  exact congrArg List.length total.symm

/-- A look takes only a character that it accepts. -/
theorem accepts_of_taken {accepts : Char → Bool} {cursor next : Cursor} {c : Char}
    (taken : cursor.take? accepts = (some c, next)) : accepts c = true :=
  (take?_some (congrArg Prod.fst taken)).1

/-- A look that takes a character passes one. -/
theorem passes_of_taken {accepts : Char → Bool} {cursor next : Cursor} {c : Char}
    (taken : cursor.take? accepts = (some c, next)) : cursor.Passes 1 next := by
  have found : (cursor.take? accepts).1 = some c := by rw [taken]
  have source := cursor.source_take? accepts
  have shown := ne_blank_of_take? found
  have blanks := cursor.offset_le_skipBlanks
  have left := cursor.visibleLeft_skipBlanks
  obtain ⟨-, rest, offset⟩ := take?_some found
  rw [taken] at source rest offset
  dsimp only at offset
  have size := c.utf8Size_pos
  refine ⟨source, by omega, ?_⟩
  rw [← left, visibleLeft, visibleLeft, rest]
  simp [visible, shown]

/-- A look that takes no character passes none. -/
theorem passes_of_none {accepts : Char → Bool} {cursor next : Cursor}
    (none : cursor.take? accepts = (none, next)) : cursor.Passes 0 next := by
  have same := take?_none (congrArg Prod.fst none)
  rw [none] at same
  obtain rfl : next = cursor.skipBlanks := same
  exact ⟨rfl, cursor.offset_le_skipBlanks, cursor.visibleLeft_skipBlanks⟩

end Cursor

/-- Whether a character is a digit. -/
def isDigit (c : Char) : Bool := (Digit.ofChar? c).isSome

/-- Whether a character can start a factor. -/
def startsFactor (c : Char) : Bool := c == '(' || c == '-' || isDigit c

/-- Whether a character joins operands tightly, or loosely. -/
def joins (tight : Bool) (c : Char) : Bool :=
  match Operator.ofSymbol? c with
  | some op => op.bindsTight == tight
  | none => false

/-- A part of the descent. -/
inductive Task where
  /-- The rule for operands that tight operators join, which is that of terms, or
  loose ones, which is that of expressions. -/
  | chain (tight : Bool)
  /-- The loop in such a rule, with what is on the left so far. -/
  | rest (tight : Bool) (left : Expr)
  /-- The rule for factors. -/
  | factor
  /-- The loops over the digits of a literal, with what is read so far. -/
  | digits (literal : Literal)

/-- The rule whose operands are joined tightly, or loosely. -/
def Rule.joining (tight : Bool) : Rule := if tight then .term else .expression

/-- The rule for what is joined tightly, or loosely. -/
def Task.operand (tight : Bool) : Task := if tight then .factor else .chain true

/-- The part of the descent that is a whole rule. -/
def Task.ofRule : Rule → Task
  | .expression => .chain false
  | .term => .chain true
  | .factor => .factor

/-- What a part of the descent comes back with. -/
structure Back where
  /-- The expression that was read, or what is wrong. -/
  result : Except Fault Expr
  /-- The place that was reached. -/
  place : Cursor
  /-- What happened. -/
  events : List Event

/-- What comes back if other events happened before. -/
def Back.behind (back : Back) (events : List Event) : Back :=
  { back with events := events ++ back.events }

/-- What comes back if the expression is then negated. -/
def Back.negate (back : Back) : Back := { back with result := back.result.map .negate }

/-- What a part of the descent comes back with that is entered at a place. There is
one case for every way through the rules. -/
inductive Returns : Task → Cursor → Back → Prop where
  /-- The first operand is followed by those that operators join to it. -/
  | chain {tight : Bool} {cursor middle : Cursor} {left : Expr} {events : List Event}
    {back : Back} (first : Returns (.operand tight) cursor ⟨.ok left, middle, events⟩)
    (loop : Returns (.rest tight left) middle back) :
    Returns (.chain tight) cursor
      (back.behind (.entered (.joining tight) cursor.offset :: events))
  /-- The first operand is faulty. -/
  | chainFails {tight : Bool} {cursor place : Cursor} {fault : Fault} {events : List Event}
    (first : Returns (.operand tight) cursor ⟨.error fault, place, events⟩) :
    Returns (.chain tight) cursor
      ⟨.error fault, place, .entered (.joining tight) cursor.offset :: events⟩
  /-- No operator follows. -/
  | done {tight : Bool} {cursor place : Cursor} {left : Expr}
    (none : cursor.take? (joins tight) = (none, place)) :
    Returns (.rest tight left) cursor ⟨.ok left, place, []⟩
  /-- An operator and an operand follow. -/
  | again {tight : Bool} {cursor next middle : Cursor} {op : Operator} {left right : Expr}
    {events : List Event} {back : Back}
    (taken : cursor.take? (joins tight) = (some op.symbol, next))
    (operand : Returns (.operand tight) next ⟨.ok right, middle, events⟩)
    (loop : Returns (.rest tight (.binary op left right)) middle back) :
    Returns (.rest tight left) cursor (back.behind events)
  /-- An operator follows, and behind it the operand is faulty. -/
  | againFails {tight : Bool} {cursor next place : Cursor} {op : Operator} {left : Expr}
    {fault : Fault} {events : List Event}
    (taken : cursor.take? (joins tight) = (some op.symbol, next))
    (operand : Returns (.operand tight) next ⟨.error fault, place, events⟩) :
    Returns (.rest tight left) cursor ⟨.error fault, place, events⟩
  /-- A group with its closing parenthesis. -/
  | group {cursor next close place : Cursor} {content : Expr} {events : List Event}
    (taken : cursor.take? startsFactor = (some '(', next))
    (inner : Returns (.chain false) next ⟨.ok content, close, events⟩)
    (closed : close.take? (· == ')') = (some ')', place)) :
    Returns .factor cursor ⟨.ok content, place, .entered .factor cursor.offset :: events⟩
  /-- A group that is not closed behind its content. -/
  | unclosed {cursor next close place : Cursor} {content : Expr} {events : List Event}
    (taken : cursor.take? startsFactor = (some '(', next))
    (inner : Returns (.chain false) next ⟨.ok content, close, events⟩)
    (none : close.take? (· == ')') = (none, place)) :
    Returns .factor cursor
      ⟨.error (.unclosedGroup (next.offset - 1)), place,
        .entered .factor cursor.offset :: events⟩
  /-- A group whose content is faulty. -/
  | groupFails {cursor next place : Cursor} {fault : Fault} {events : List Event}
    (taken : cursor.take? startsFactor = (some '(', next))
    (inner : Returns (.chain false) next ⟨.error fault, place, events⟩) :
    Returns .factor cursor ⟨.error fault, place, .entered .factor cursor.offset :: events⟩
  /-- A minus sign and the factor that it negates. -/
  | sign {cursor next : Cursor} {back : Back}
    (taken : cursor.take? startsFactor = (some '-', next))
    (inner : Returns .factor next back) :
    Returns .factor cursor (back.negate.behind [.entered .factor cursor.offset])
  /-- A literal from its first digit on. -/
  | literal {cursor next : Cursor} {d : Digit} {back : Back}
    (taken : cursor.take? startsFactor = (some d.toChar, next))
    (loop : Returns (.digits (.ofDigit d)) next back) :
    Returns .factor cursor (back.behind [.entered .factor cursor.offset])
  /-- No factor can start here. -/
  | missing {cursor place : Cursor} (none : cursor.take? startsFactor = (none, place)) :
    Returns .factor cursor ⟨.error place.fault, place, [.entered .factor cursor.offset]⟩
  /-- One more digit of a literal. -/
  | digit {cursor next : Cursor} {l : Literal} {d : Digit} {back : Back}
    (taken : cursor.take? isDigit = (some d.toChar, next))
    (loop : Returns (.digits (l.push d)) next back) :
    Returns (.digits l) cursor back
  /-- The point behind the integer digits of a literal. -/
  | point {cursor middle next : Cursor} {l : Literal} {back : Back}
    (first : l.hasPoint = false) (none : cursor.take? isDigit = (none, middle))
    (taken : middle.take? (· == '.') = (some '.', next))
    (loop : Returns (.digits l.withPoint) next back) :
    Returns (.digits l) cursor back
  /-- The end of a literal without a point. -/
  | integer {cursor middle place : Cursor} {l : Literal}
    (first : l.hasPoint = false) (none : cursor.take? isDigit = (none, middle))
    (noPoint : middle.take? (· == '.') = (.none, place)) :
    Returns (.digits l) cursor ⟨.ok (.number l.value), place, [.number l.value]⟩
  /-- The end of a literal with a point. -/
  | decimal {cursor place : Cursor} {l : Literal}
    (pointed : l.hasPoint = true) (none : cursor.take? isDigit = (none, place)) :
    Returns (.digits l) cursor ⟨.ok (.number l.value), place, [.number l.value]⟩

/-- One part of the descent leads to another over a character: a factor to what is
behind its parenthesis or its sign, and one round of a loop to what follows in it. -/
inductive LeadsTo : Task → Cursor → Task → Cursor → Prop where
  /-- A parenthesis leads to an expression. -/
  | opening {cursor next : Cursor} (taken : cursor.take? startsFactor = (some '(', next)) :
    LeadsTo .factor cursor (.chain false) next
  /-- A minus sign leads to a factor. -/
  | sign {cursor next : Cursor} (taken : cursor.take? startsFactor = (some '-', next)) :
    LeadsTo .factor cursor .factor next
  /-- An operator leads to its operand. -/
  | operand {tight : Bool} {cursor next : Cursor} {op : Operator} {left : Expr}
    (taken : cursor.take? (joins tight) = (some op.symbol, next)) :
    LeadsTo (.rest tight left) cursor (.operand tight) next
  /-- An operator and its operand lead to the next round. -/
  | again {tight : Bool} {cursor next middle : Cursor} {op : Operator} {left right : Expr}
    {events : List Event} (taken : cursor.take? (joins tight) = (some op.symbol, next))
    (operand : Returns (.operand tight) next ⟨.ok right, middle, events⟩) :
    LeadsTo (.rest tight left) cursor (.rest tight (.binary op left right)) middle
  /-- A digit leads to the next round. -/
  | digit {cursor next : Cursor} {l : Literal} {d : Digit}
    (taken : cursor.take? isDigit = (some d.toChar, next)) :
    LeadsTo (.digits l) cursor (.digits (l.push d)) next
  /-- A point leads to the digits behind it. -/
  | point {cursor middle next : Cursor} {l : Literal}
    (first : l.hasPoint = false) (none : cursor.take? isDigit = (none, middle))
    (taken : middle.take? (· == '.') = (some '.', next)) :
    LeadsTo (.digits l) cursor (.digits l.withPoint) next

/-- Whether a part of the descent is a whole rule. -/
def Task.isRule : Task → Bool
  | .chain _ | .factor => true
  | .rest .. | .digits _ => false

/-- An operand has a rule of its own. -/
theorem Task.isRule_operand (tight : Bool) : (operand tight).isRule = true := by
  cases tight <;> rfl

/-- A part of the descent passes visible characters, and a whole rule that reads an
expression passes at least one. -/
theorem Returns.passes {task : Task} {cursor : Cursor} {back : Back}
    (h : Returns task cursor back) :
    ∃ count, cursor.Passes count back.place ∧
      (task.isRule = true → back.result.isOk = true → 0 < count) := by
  induction h with
  | chain _ _ first loop =>
    obtain ⟨m, first, moves⟩ := first
    obtain ⟨n, loop, -⟩ := loop
    have positive := moves (Task.isRule_operand _) rfl
    exact ⟨m + n, first.trans loop, by omega⟩
  | chainFails _ first =>
    obtain ⟨n, first, -⟩ := first
    exact ⟨n, first, nofun⟩
  | done none => exact ⟨0, Cursor.passes_of_none none, nofun⟩
  | again taken _ _ operand loop =>
    obtain ⟨m, operand, -⟩ := operand
    obtain ⟨n, loop, -⟩ := loop
    exact ⟨1 + m + n, ((Cursor.passes_of_taken taken).trans operand).trans loop, nofun⟩
  | againFails taken _ operand =>
    obtain ⟨n, operand, -⟩ := operand
    exact ⟨1 + n, (Cursor.passes_of_taken taken).trans operand, nofun⟩
  | group taken _ closed inner =>
    obtain ⟨n, inner, -⟩ := inner
    have opened := (Cursor.passes_of_taken taken).trans inner
    exact ⟨1 + n + 1, opened.trans (Cursor.passes_of_taken closed), by omega⟩
  | unclosed taken _ none inner =>
    obtain ⟨n, inner, -⟩ := inner
    have opened := (Cursor.passes_of_taken taken).trans inner
    exact ⟨1 + n + 0, opened.trans (Cursor.passes_of_none none), by omega⟩
  | groupFails taken _ inner =>
    obtain ⟨n, inner, -⟩ := inner
    exact ⟨1 + n, (Cursor.passes_of_taken taken).trans inner, by omega⟩
  | sign taken _ inner =>
    obtain ⟨n, inner, -⟩ := inner
    exact ⟨1 + n, (Cursor.passes_of_taken taken).trans inner, by omega⟩
  | literal taken _ loop =>
    obtain ⟨n, loop, -⟩ := loop
    exact ⟨1 + n, (Cursor.passes_of_taken taken).trans loop, by omega⟩
  | missing none => exact ⟨0, Cursor.passes_of_none none, nofun⟩
  | digit taken _ loop =>
    obtain ⟨n, loop, -⟩ := loop
    exact ⟨1 + n, (Cursor.passes_of_taken taken).trans loop, nofun⟩
  | point _ none taken _ loop =>
    obtain ⟨n, loop, -⟩ := loop
    have pointed := (Cursor.passes_of_none none).trans (Cursor.passes_of_taken taken)
    exact ⟨0 + 1 + n, pointed.trans loop, nofun⟩
  | integer _ none noPoint =>
    exact ⟨0 + 0, (Cursor.passes_of_none none).trans (Cursor.passes_of_none noPoint), nofun⟩
  | decimal _ none => exact ⟨0, Cursor.passes_of_none none, nofun⟩

/-- A rule that reads an expression comes back from a later place. -/
theorem Returns.offset_lt {rule : Rule} {cursor : Cursor} {back : Back}
    (h : Returns (.ofRule rule) cursor back) (ok : back.result.isOk = true) :
    cursor.offset < back.place.offset := by
  obtain ⟨count, passes, moves⟩ := h.passes
  have positive := moves (by cases rule <;> rfl) ok
  have moved := passes.offset_le
  omega

/-- Where one part of the descent leads to another over a character, the other starts
later. -/
theorem LeadsTo.offset_lt {task next : Task} {cursor place : Cursor}
    (h : LeadsTo task cursor next place) : cursor.offset < place.offset := by
  cases h with
  | opening taken | sign taken | operand taken | digit taken =>
    exact (Cursor.passes_of_taken taken).offset_le
  | again taken operand =>
    obtain ⟨count, passes, -⟩ := operand.passes
    have moved := ((Cursor.passes_of_taken taken).trans passes).offset_le
    dsimp only at moved
    omega
  | point _ none taken =>
    exact ((Cursor.passes_of_none none).trans (Cursor.passes_of_taken taken)).offset_le

/-- The rank of a part of the descent. A rule calls only rules of lower rank before a
character is taken. -/
def Task.rank : Task → Nat
  | .chain false => 2
  | .chain true => 1
  | .rest .. | .factor | .digits _ => 0

/-- An operand ranks below the rule that joins it. -/
theorem Task.rank_operand_lt (tight : Bool) :
    (Task.operand tight).rank < (Task.chain tight).rank := by
  cases tight <;> decide

/-- A character that joins operands is that of an operator. -/
theorem exists_symbol_of_joins {tight : Bool} {c : Char} (h : joins tight c = true) :
    ∃ op : Operator, c = op.symbol := by
  unfold joins at h
  split at h
  · rename_i op symbol
    exact ⟨op, Operator.ofSymbol?_eq_some symbol⟩
  · contradiction

/-- A digit is written for a number. -/
theorem exists_toChar_of_isDigit {c : Char} (h : isDigit c = true) :
    ∃ d : Digit, c = d.toChar := by
  obtain ⟨d, digit⟩ := Option.isSome_iff_exists.mp h
  exact ⟨d, (Digit.toChar_of_ofChar? digit).symm⟩

/-- A factor starts with a parenthesis, a sign or a digit. -/
theorem startsFactor_cases {c : Char} (h : startsFactor c = true) :
    c = '(' ∨ c = '-' ∨ ∃ d : Digit, c = d.toChar := by
  unfold startsFactor at h
  rw [Bool.or_eq_true, Bool.or_eq_true, beq_iff_eq, beq_iff_eq] at h
  rcases h with (opening | sign) | digit
  · exact .inl opening
  · exact .inr (.inl sign)
  · exact .inr (.inr (exists_toChar_of_isDigit digit))

/-- Every part of the descent comes back, wherever it is entered. -/
theorem exists_returns (task : Task) (cursor : Cursor) :
    ∃ back, Returns task cursor back := by
  match task with
  | .chain tight =>
    obtain ⟨⟨result, middle, events⟩, first⟩ := exists_returns (.operand tight) cursor
    cases result with
    | error fault => exact ⟨_, .chainFails first⟩
    | ok left =>
      obtain ⟨count, passes, moves⟩ := first.passes
      have fewer := passes.fewer (moves (Task.isRule_operand tight) rfl)
      obtain ⟨back, loop⟩ := exists_returns (.rest tight left) middle
      exact ⟨_, .chain first loop⟩
  | .rest tight left =>
    match look : cursor.take? (joins tight) with
    | (none, place) => exact ⟨_, .done look⟩
    | (some c, next) =>
      obtain ⟨op, rfl⟩ := exists_symbol_of_joins (Cursor.accepts_of_taken look)
      have fewer := (Cursor.passes_of_taken look).fewer Nat.one_pos
      obtain ⟨⟨result, middle, events⟩, operand⟩ := exists_returns (.operand tight) next
      cases result with
      | error fault => exact ⟨_, .againFails look operand⟩
      | ok right =>
        obtain ⟨count, passes, -⟩ := operand.passes
        have fewer := ((Cursor.passes_of_taken look).trans passes).fewer (by omega)
        obtain ⟨back, loop⟩ := exists_returns (.rest tight (.binary op left right)) middle
        exact ⟨_, .again look operand loop⟩
  | .factor =>
    match look : cursor.take? startsFactor with
    | (none, place) => exact ⟨_, .missing look⟩
    | (some c, next) =>
      have fewer := (Cursor.passes_of_taken look).fewer Nat.one_pos
      rcases startsFactor_cases (Cursor.accepts_of_taken look) with rfl | rfl | ⟨d, rfl⟩
      · obtain ⟨⟨result, close, events⟩, inner⟩ := exists_returns (.chain false) next
        cases result with
        | error fault => exact ⟨_, .groupFails look inner⟩
        | ok content =>
          match closing : close.take? (· == ')') with
          | (none, place) => exact ⟨_, .unclosed look inner closing⟩
          | (some d, place) =>
            obtain rfl : d = ')' := by simpa using Cursor.accepts_of_taken closing
            exact ⟨_, .group look inner closing⟩
      · obtain ⟨back, inner⟩ := exists_returns .factor next
        exact ⟨_, .sign look inner⟩
      · obtain ⟨back, loop⟩ := exists_returns (.digits (.ofDigit d)) next
        exact ⟨_, .literal look loop⟩
  | .digits l =>
    match look : cursor.take? isDigit with
    | (some c, next) =>
      have fewer := (Cursor.passes_of_taken look).fewer Nat.one_pos
      obtain ⟨d, rfl⟩ := exists_toChar_of_isDigit (Cursor.accepts_of_taken look)
      obtain ⟨back, loop⟩ := exists_returns (.digits (l.push d)) next
      exact ⟨_, .digit look loop⟩
    | (none, middle) =>
      cases pointed : l.hasPoint with
      | true => exact ⟨_, .decimal pointed look⟩
      | false =>
        match point : middle.take? (· == '.') with
        | (none, place) => exact ⟨_, .integer pointed look point⟩
        | (some c, next) =>
          obtain rfl : c = '.' := by simpa using Cursor.accepts_of_taken point
          have passes := (Cursor.passes_of_none look).trans (Cursor.passes_of_taken point)
          have fewer := passes.fewer Nat.one_pos
          obtain ⟨back, loop⟩ := exists_returns (.digits l.withPoint) next
          exact ⟨_, .point pointed look point loop⟩
termination_by (cursor.visibleLeft, task.rank)
decreasing_by
  all_goals
    first
    | exact Prod.Lex.left _ _ fewer
    | exact Prod.Lex.right _ (Task.rank_operand_lt tight)

/-- The character that writes a digit settles it. -/
theorem Digit.toChar_injective {d e : Digit} (same : d.toChar = e.toChar) : d = e := by
  have read := ofChar?_toChar d
  rw [same, ofChar?_toChar] at read
  exact (Option.some.inj read).symm

/-- No part of the descent comes back with two different things. -/
theorem Returns.unique {task : Task} {cursor : Cursor} {back other : Back}
    (h : Returns task cursor back) (h' : Returns task cursor other) : back = other := by
  -- both make the same looks, so they go the same way, and what the parts come back with
  -- is the same by the induction
  induction h generalizing other with
  | chain | chainFails | done => cases h' <;> grind
  | again | againFails => cases h' <;> grind [Operator.symbol_injective]
  | group | unclosed | groupFails | sign | missing => cases h' <;> grind [Digit.toChar_ne]
  | literal | digit => cases h' <;> grind [Digit.toChar_ne, Digit.toChar_injective]
  | point | integer | decimal => cases h' <;> grind

end Calculator
