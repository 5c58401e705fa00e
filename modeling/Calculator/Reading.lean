import Calculator.Cursor
import Calculator.Log

/-!
# Reading an expression

A text is read from left to right, one character at a time, in a state that
holds what the characters before have settled: the groups still open and, in the
innermost of them, the sum and the product that wait for an operand and the
minus signs in front of it. `State.step?` says what a character does in a state,
if it can stand there at all, so the reading stops at the first character after
which no text could be an expression of the grammar.
-/

namespace Calculator

/-- An operand that waits for the one on the right of its operator. -/
structure Pending where
  /-- The operand on the left. -/
  left : Expr
  /-- The operator behind it. -/
  operator : Operator
  deriving DecidableEq

/-- The waiting operand joined with what is on its right, if one waits. -/
def Pending.join : Option Pending → Expr → Expr
  | none, right => right
  | some pending, right => .binary pending.operator pending.left right

/-- What stands before an operand in its group. -/
structure Context where
  /-- The sum so far, which waits for a term. -/
  sum : Option Pending
  /-- The product so far, which waits for a factor. -/
  product : Option Pending
  /-- The minus signs directly before the operand. -/
  signs : Nat
  deriving DecidableEq

namespace Context

/-- Nothing stands before the operand. -/
def empty : Context := ⟨none, none, 0⟩

/-- The factor that an operand completes. -/
def factor (context : Context) (operand : Expr) : Expr := operand.negated context.signs

/-- The term that an operand completes. -/
def term (context : Context) (operand : Expr) : Expr :=
  Pending.join context.product (context.factor operand)

/-- The expression that an operand completes. -/
def expression (context : Context) (operand : Expr) : Expr :=
  Pending.join context.sum (context.term operand)

/-- What stands before the operand that follows an operator. A tight operator
takes the term on its left, a loose one the whole expression on its left. -/
def extend (context : Context) (operand : Expr) (operator : Operator) : Context :=
  if operator.bindsTight then ⟨context.sum, some ⟨context.term operand, operator⟩, 0⟩
  else ⟨some ⟨context.expression operand, operator⟩, none, 0⟩

/-- What stands before an operand behind one more minus sign. -/
def negate (context : Context) : Context := { context with signs := context.signs + 1 }

end Context

/-- A group that is still open. -/
structure OpenGroup where
  /-- The place of its parenthesis. -/
  opening : Nat
  /-- What stands before the group. -/
  context : Context
  deriving DecidableEq

/-- How far the current operand has been read. -/
inductive Phase where
  /-- An operand has to follow. -/
  | awaiting
  /-- A literal that more digits may extend. -/
  | literal (digits : Literal)
  /-- A complete operand. -/
  | complete (operand : Expr)
  deriving DecidableEq

/-- The operand read so far; a literal is one as it stands. -/
def Phase.operand? : Phase → Option Expr
  | .awaiting => none
  | .literal digits => some (.number digits.value)
  | .complete operand => some operand

/-- The phase behind one more digit, which starts a literal or extends it. -/
def Phase.withDigit (phase : Phase) (d : Digit) : Phase :=
  match phase with
  | .awaiting => .literal (.ofDigit d)
  | .literal digits => .literal (digits.push d)
  | .complete operand => .complete operand

/-- The phase behind the point of a literal. -/
def Phase.withPoint : Phase → Phase
  | .literal digits => .literal digits.withPoint
  | phase => phase

/-- What the characters read so far have settled. -/
structure State where
  /-- The open groups, innermost first. -/
  groups : List OpenGroup
  /-- What stands before the current operand in the innermost group. -/
  context : Context
  /-- How far the current operand has been read. -/
  phase : Phase
  deriving DecidableEq

/-- What a character does where it stands. -/
inductive Step where
  /-- It starts or extends a literal. -/
  | digit (d : Digit)
  /-- It is the point of a literal. -/
  | point
  /-- It negates the factor behind it. -/
  | sign
  /-- It opens a group. -/
  | opening
  /-- It closes the innermost group. -/
  | closing
  /-- It joins two operands. -/
  | operator (op : Operator)
  deriving DecidableEq

namespace State

/-- The state before the first character. -/
def start : State := ⟨[], .empty, .awaiting⟩

/-- What a character does that has to start an operand. -/
def operandStep? (c : Char) : Option Step :=
  if c = '(' then some .opening
  else if c = '-' then some .sign
  else (Digit.ofChar? c).map .digit

/-- What a character does behind a complete operand. -/
def followingStep? (state : State) (c : Char) : Option Step :=
  if c = ')' then if state.groups.isEmpty then none else some .closing
  else (Operator.ofSymbol? c).map .operator

/-- What a character does inside a literal or behind it. -/
def literalStep? (state : State) (digits : Literal) (c : Char) : Option Step :=
  match Digit.ofChar? c with
  | some d => some (.digit d)
  | none => if c = '.' ∧ !digits.hasPoint then some .point else state.followingStep? c

/-- What a character does in a state, if it can stand there. -/
def step? (state : State) (c : Char) : Option Step :=
  match state.phase with
  | .awaiting => operandStep? c
  | .literal digits => state.literalStep? digits c
  | .complete _ => state.followingStep? c

/-- Whether a character can stand next. -/
def accepts (state : State) (c : Char) : Bool := (state.step? c).isSome

/-- The state after a step that it allows, whose character ends at the given
place. -/
def after (state : State) (step : Step) (offset : Nat) : State :=
  match step with
  | .digit d => { state with phase := state.phase.withDigit d }
  | .point => { state with phase := state.phase.withPoint }
  | .sign => { state with context := state.context.negate }
  | .opening => ⟨⟨offset - 1, state.context⟩ :: state.groups, .empty, .awaiting⟩
  | .operator op =>
    match state.phase.operand? with
    | some operand => ⟨state.groups, state.context.extend operand op, .awaiting⟩
    | none => state
  | .closing =>
    match state.phase.operand?, state.groups with
    | some operand, group :: groups =>
      ⟨groups, group.context, .complete (state.context.expression operand)⟩
    | _, _ => state

/-- The event of a literal that ends here, if there is one. -/
def completed (state : State) : List Event :=
  match state.phase with
  | .literal digits => [.number digits.value]
  | _ => []

/-- The events of a step whose character ends at the given place: the literal
that it ends and the rules that are entered behind it. -/
def events (state : State) (step : Step) (offset : Nat) : List Event :=
  match step with
  | .digit _ | .point => []
  | .sign => [.entered .factor offset]
  | .opening => [.entered .expression offset, .entered .term offset, .entered .factor offset]
  | .closing => state.completed
  | .operator op =>
    state.completed ++
      if op.bindsTight then [.entered .factor offset]
      else [.entered .term offset, .entered .factor offset]

end State

/-- How far a source can be read. -/
structure Run where
  /-- What happened on the way. -/
  events : List Event
  /-- The state behind the last character read. -/
  state : State
  /-- The place of the first character that cannot be read, or the end. -/
  cursor : Cursor

/-- Reads on from a place for as long as the next character can stand there. -/
def State.run (state : State) (cursor : Cursor) : Run :=
  match _h : cursor.take? state.accepts with
  | (some c, cursor) =>
    match state.step? c with
    | none => ⟨[], state, cursor⟩
    | some step =>
      let rest := (state.after step cursor.offset).run cursor
      { rest with events := state.events step cursor.offset ++ rest.events }
  | (none, cursor) => ⟨[], state, cursor⟩
termination_by cursor.rest.length
decreasing_by
  have shorter := Cursor.length_rest_take?_lt (congrArg Prod.fst _h)
  rw [_h] at shorter
  exact shorter

/-- A blank can stand nowhere. -/
theorem State.ne_blank_of_step? {state : State} {c : Char} {step : Step}
    (stands : state.step? c = some step) : c ≠ ' ' := by
  rintro rfl
  obtain ⟨groups, context, phase⟩ := state
  cases phase <;> contradiction

/-- Nothing is read if the character behind the blanks cannot stand next. -/
theorem State.run_of_refuses {state : State} {cursor : Cursor}
    (refused : ∀ c, cursor.skipBlanks.current = some c → state.step? c = none) :
    state.run cursor = ⟨[], state, cursor.skipBlanks⟩ := by
  have stopped : cursor.take? state.accepts = (none, cursor.skipBlanks) :=
    Cursor.take?_of_refuses fun c hc => by simp [accepts, refused c hc]
  rw [State.run]
  split
  next h => simp [stopped] at h
  next h =>
    rw [stopped] at h
    obtain rfl := congrArg Prod.snd h
    rfl

/-- A character that can stand next is read, and the reading goes on behind it. -/
theorem State.run_of_step {state : State} {cursor : Cursor} {c : Char} {rest : List Char}
    {step : Step} (h : cursor.skipBlanks.rest = c :: rest) (stands : state.step? c = some step) :
    state.run cursor =
      let next := cursor.skipBlanks.advance c rest h
      let run := (state.after step next.offset).run next
      { run with events := state.events step next.offset ++ run.events } := by
  have taken : cursor.take? state.accepts = (some c, cursor.skipBlanks.advance c rest h) :=
    Cursor.take?_of_accepts h (by simp [accepts, stands])
  rw [State.run]
  split
  next d place h' =>
    rw [taken] at h'
    obtain ⟨rfl, rfl⟩ : c = d ∧ cursor.skipBlanks.advance c rest h = place := by
      simpa using h'
    rw [stands]
  next h' => simp [taken] at h'

/-- What is wrong at the place where an operand has to follow and none does. -/
def Cursor.fault (cursor : Cursor) : Fault :=
  match cursor.current with
  | some c => .unexpectedCharacter c cursor.offset
  | none => .unexpectedEnd

/-- What a run amounts to. It is an expression if an operand is complete, no
group is open and nothing is left. Else a missing operand is reported first,
then the innermost open group, then the character that is left. -/
def Run.outcome (run : Run) : Except Fault Expr :=
  match run.state.phase.operand?, run.state.groups with
  | none, _ => .error run.cursor.fault
  | some _, group :: _ => .error (.unclosedGroup group.opening)
  | some operand, [] =>
    if run.cursor.hasRemaining then .error run.cursor.fault
    else .ok (run.state.context.expression operand)

namespace Source

/-- Reads a source from its start as far as possible. -/
def run (source : Source) : Run := State.start.run (.ofSource source)

/-- The expression that a source is, or why it is none. -/
def parse (source : Source) : Except SyntaxError Expr :=
  match source.run.outcome with
  | .ok tree => .ok tree
  | .error fault => .error ⟨source, fault⟩

/-- Everything that happens while a source is read. -/
def trail (source : Source) : List Event :=
  let run := source.run
  let ending :=
    match run.outcome with
    | .ok tree => .parsed tree
    | .error fault => .failed ⟨source, fault⟩
  .started source.text :: .entered .expression 0 :: .entered .term 0 :: .entered .factor 0 ::
    run.events ++ run.state.completed ++ [ending]

end Source

/-- The expression that a text without a name is, or why it is none. -/
def parse (text : String) : Except SyntaxError Expr := Source.parse ⟨none, text⟩

end Calculator
