import Calculator.Proofs.Reading.Descent

/-!
# Reading and descent agree

What a run does from one state on, its sequel, is what the part of the descent does
that the state stands for, followed by the sequel of the state with the operand
that it came back with. A faulty part ends both. So the descent through a whole
text has the events of the run and comes to its outcome.
-/

namespace Calculator

/-- What is still to happen in a state, and what comes of it. -/
structure Sequel where
  /-- What happens. -/
  events : List Event
  /-- What the run amounts to. -/
  outcome : Except Fault Expr

/-- A sequel with other events before it. -/
def Sequel.behind (sequel : Sequel) (events : List Event) : Sequel :=
  { sequel with events := events ++ sequel.events }

/-- Events before a sequel are put before it in one step or in two. -/
@[simp] theorem Sequel.behind_behind (sequel : Sequel) (a b : List Event) :
    (sequel.behind b).behind a = sequel.behind (a ++ b) := by
  simp [behind]

/-- The sequel of a state at a place. -/
def State.sequel (state : State) (cursor : Cursor) : Sequel :=
  ⟨(state.run cursor).events ++ (state.run cursor).state.completed, (state.run cursor).outcome⟩

/-- Blanks in front make no difference to the sequel. -/
theorem State.sequel_skipBlanks (state : State) (cursor : Cursor) :
    state.sequel cursor.skipBlanks = state.sequel cursor := by
  rw [sequel, run_skipBlanks]
  rfl

/-- A look that takes nothing passes over the blanks, and the character behind them
is refused. -/
theorem Cursor.refused_of_none {accepts : Char → Bool} {cursor place : Cursor}
    (none : cursor.take? accepts = (none, place)) :
    place = cursor.skipBlanks ∧ ∀ c, place.current = some c → accepts c = false := by
  obtain ⟨c, rest, h, -, taken⟩ | ⟨refused, stopped⟩ := take?_cases accepts cursor
  · simp [taken] at none
  · rw [stopped] at none
    obtain rfl := congrArg Prod.snd none
    exact ⟨rfl, refused⟩

/-- Where the character behind the blanks can stand next, the sequel goes on behind it. -/
theorem State.sequel_of_step {state : State} {cursor : Cursor} {c : Char} {rest : List Char}
    {step : Step} (h : cursor.skipBlanks.rest = c :: rest) (stands : state.step? c = some step) :
    let next := cursor.skipBlanks.advance c rest h
    state.sequel cursor =
      ((state.after step next.offset).sequel next).behind (state.events step next.offset) := by
  rw [sequel, run_of_step h stands]
  simp only [sequel, Sequel.behind, List.append_assoc]
  rfl

/-- A character that a look takes is where the sequel goes on, if it can stand next. -/
theorem State.sequel_of_taken {accepts : Char → Bool} {cursor next : Cursor} {c : Char}
    {state : State} {step : Step} (taken : cursor.take? accepts = (some c, next))
    (stands : state.step? c = some step) :
    state.sequel cursor =
      ((state.after step next.offset).sequel next).behind (state.events step next.offset) := by
  obtain ⟨d, rest, h, -, taken'⟩ | ⟨-, none⟩ := cursor.take?_cases accepts
  · rw [taken'] at taken
    obtain ⟨rfl, rfl⟩ : d = c ∧ cursor.skipBlanks.advance d rest h = next := by
      simpa using taken
    exact sequel_of_step h stands
  · simp [none] at taken

/-- Where the character behind the blanks cannot stand next, the run stops. -/
theorem State.sequel_of_refuses {state : State} {cursor : Cursor}
    (refused : ∀ c, cursor.skipBlanks.current = some c → state.step? c = none) :
    state.sequel cursor = ⟨state.completed, Run.outcome ⟨[], state, cursor.skipBlanks⟩⟩ := by
  rw [sequel, run_of_refuses refused]
  rfl

/-- Two states that do the same with the character behind the blanks, but for events
that one has before all others, have the same sequel but for these. -/
theorem State.sequel_congr {a b : State} {cursor : Cursor} {before : List Event}
    (stands : ∀ c, cursor.skipBlanks.current = some c → a.step? c = b.step? c)
    (steps : ∀ c step, cursor.skipBlanks.current = some c → b.step? c = some step →
      ∀ behind, a.after step behind = b.after step behind ∧
        a.events step behind = before ++ b.events step behind)
    (completed : a.completed = before ++ b.completed)
    (outcome : ∀ place, Run.outcome ⟨[], a, place⟩ = Run.outcome ⟨[], b, place⟩) :
    a.sequel cursor = (b.sequel cursor).behind before := by
  by_cases goes : ∃ c step, cursor.skipBlanks.current = some c ∧ b.step? c = some step
  · obtain ⟨c, step, here, next⟩ := goes
    obtain ⟨rest, h⟩ := List.head?_eq_some_iff.mp here
    obtain ⟨after, events⟩ := steps c step here next (cursor.skipBlanks.advance c rest h).offset
    rw [sequel_of_step h next, sequel_of_step h ((stands c here).trans next), after, events,
      Sequel.behind_behind]
  · have refused : ∀ c, cursor.skipBlanks.current = some c → b.step? c = none := by
      intro c here
      cases next : b.step? c with
      | none => rfl
      | some step => exact absurd ⟨c, step, here, next⟩ goes
    rw [sequel_of_refuses refused,
      sequel_of_refuses fun c here => (stands c here).trans (refused c here), completed, outcome]
    rfl

/-- Behind an operand stands the end of its group or an operator. -/
theorem State.followingStep?_cases {state : State} {c : Char} {step : Step}
    (stands : state.followingStep? c = some step) :
    (step = .closing ∧ c = ')' ∧ state.groups ≠ []) ∨
      ∃ op : Operator, step = .operator op ∧ c = op.symbol := by
  unfold followingStep? at stands
  split at stands
  · rename_i closing
    refine .inl ?_
    cases groups : state.groups with
    | nil => simp [groups] at stands
    | cons => exact ⟨by simpa [groups] using stands.symm, closing, nofun⟩
  · obtain ⟨op, symbol, rfl⟩ := Option.map_eq_some_iff.mp stands
    exact .inr ⟨op, rfl, Operator.ofSymbol?_eq_some symbol⟩

/-- What stands before the operand behind an operator depends on the expression before
the operator and, if that is tight, on the sum and the term. -/
theorem Context.extend_congr {context context' : Context} {operand operand' : Expr}
    {op : Operator} (whole : context.expression operand = context'.expression operand')
    (tight : op.bindsTight = true →
      context.sum = context'.sum ∧ context.term operand = context'.term operand') :
    context.extend operand op = context'.extend operand' op := by
  unfold extend
  split
  · rename_i binds
    obtain ⟨sum, term⟩ := tight binds
    rw [sum, term]
  · rw [whole]

/-- The sequel behind an operand depends on the expression that it completes and, if a
tight operator follows, on the sum and the term. -/
theorem State.sequel_settled {groups : List OpenGroup} {context context' : Context}
    {phase : Phase} {operand operand' : Expr} {cursor : Cursor}
    (read : phase.operand? = some operand)
    (stands : ∀ c, cursor.skipBlanks.current = some c →
      step? ⟨groups, context, phase⟩ c = followingStep? ⟨groups, context, phase⟩ c)
    (whole : context.expression operand = context'.expression operand')
    (tight : ∀ op : Operator, op.bindsTight = true → cursor.skipBlanks.current = some op.symbol →
      context.sum = context'.sum ∧ context.term operand = context'.term operand') :
    sequel ⟨groups, context, phase⟩ cursor =
      (sequel ⟨groups, context', .complete operand'⟩ cursor).behind
        (completed ⟨groups, context, phase⟩) := by
  have read' : (Phase.complete operand').operand? = some operand' := rfl
  apply sequel_congr
  · exact stands
  · intro c step here next behind
    rcases followingStep?_cases next with ⟨rfl, -, opened⟩ | ⟨op, rfl, rfl⟩
    · obtain ⟨group, groups, rfl⟩ := List.exists_cons_of_ne_nil opened
      refine ⟨?_, (List.append_nil _).symm⟩
      simp only [after, read, read', whole]
    · refine ⟨?_, rfl⟩
      have extended := Context.extend_congr whole fun binds => tight op binds here
      simp only [after, read, read', extended]
  · exact (List.append_nil _).symm
  · intro place
    unfold Run.outcome
    cases groups <;> simp only [read, read', whole]

/-- Two complete operands have the same sequel if they complete the same expression and,
where a tight operator follows, the same term of the same sum. -/
theorem State.sequel_complete {groups : List OpenGroup} {context context' : Context}
    {operand operand' : Expr} {cursor : Cursor}
    (whole : context.expression operand = context'.expression operand')
    (tight : ∀ op : Operator, op.bindsTight = true → cursor.skipBlanks.current = some op.symbol →
      context.sum = context'.sum ∧ context.term operand = context'.term operand') :
    sequel ⟨groups, context, .complete operand⟩ cursor =
      sequel ⟨groups, context', .complete operand'⟩ cursor :=
  sequel_settled rfl (fun _ _ => rfl) whole tight

/-- No tight operator stands at a place, or no operator at all. -/
structure Cursor.Ends (cursor : Cursor) (tight : Bool) : Prop where
  /-- No blank stands there either. -/
  settled : cursor.skipBlanks = cursor
  /-- Only loose operators can stand there, and only if they are not excluded. -/
  refused : ∀ op : Operator, cursor.current = some op.symbol → tight = true ∧ op.bindsTight = false

/-- Where a loop finds no operator none stands that it looks for. -/
theorem Cursor.Ends.of_none {tight : Bool} {cursor place : Cursor}
    (none : cursor.take? (joins tight) = (none, place))
    (before : tight = false → cursor.Ends true) : place.Ends tight := by
  obtain ⟨rfl, refused⟩ := refused_of_none none
  refine ⟨cursor.skipBlanks_skipBlanks, ?_⟩
  intro op here
  have loose := refused _ here
  simp only [joins, Operator.ofSymbol?_symbol] at loose
  cases tight with
  | true => exact ⟨rfl, by simpa using loose⟩
  | false =>
    have ends := before rfl
    rw [ends.settled] at here
    simp [(ends.refused op here).2] at loose

/-- What stands where a part of the descent ends that has read an expression. -/
def Task.Ends (task : Task) (cursor place : Cursor) : Prop :=
  match task with
  | .chain tight => place.Ends tight
  | .rest tight _ => (tight = false → cursor.Ends true) → place.Ends tight
  | .factor | .digits _ => True

/-- Behind the operand of a loose operator no tight one stands. -/
theorem Task.Ends.operand {tight : Bool} {cursor place : Cursor}
    (ends : (Task.operand tight).Ends cursor place) (loose : tight = false) :
    place.Ends true := by
  subst loose
  exact ends

/-- A rule and its loop end where no operator stands that they look for. -/
theorem Returns.ends {task : Task} {cursor : Cursor} {back : Back} (h : Returns task cursor back)
    (ok : back.result.isOk = true) : task.Ends cursor back.place := by
  induction h with
  | chain _ _ first loop => exact loop ok (first rfl).operand
  | done none => exact Cursor.Ends.of_none none
  | again _ _ _ right loop => exact fun _ => loop ok (right rfl).operand
  | chainFails | againFails | unclosed | groupFails | missing => contradiction
  | group | sign | literal | digit | point | integer | decimal => trivial

/-- The sequel of what a part of the descent comes back with, inside the given groups and
behind what the context holds. -/
def Back.sequel (back : Back) (groups : List OpenGroup) (context : Context) : Sequel :=
  match back.result with
  | .ok operand =>
    (State.sequel ⟨groups, context, .complete operand⟩ back.place).behind back.events
  | .error fault => ⟨back.events, .error fault⟩

/-- Events before the others come before the sequel. -/
theorem Back.sequel_behind (back : Back) (before : List Event) (groups : List OpenGroup)
    (context : Context) :
    (back.behind before).sequel groups context = (back.sequel groups context).behind before := by
  obtain ⟨result, place, events⟩ := back
  cases result with
  | ok operand => exact (Sequel.behind_behind ..).symm
  | error fault => rfl

/-- The phase in which a part of the descent is entered. -/
def Task.phase : Task → Phase
  | .chain _ | .factor => .awaiting
  | .rest _ left => .complete left
  | .digits l => .literal l

/-- The rules that are entered with a part of the descent. -/
def Task.entries (task : Task) (offset : Nat) : List Event :=
  match task with
  | .chain false => [.entered .expression offset, .entered .term offset, .entered .factor offset]
  | .chain true => [.entered .term offset, .entered .factor offset]
  | .factor => [.entered .factor offset]
  | .rest .. | .digits _ => []

/-- What stands before a part of the descent: nothing before an expression, and no
product and no sign before a term. -/
def Task.Fits (task : Task) (context : Context) : Prop :=
  match task with
  | .chain tight | .rest tight _ =>
    context.product = none ∧ context.signs = 0 ∧ (tight = false → context.sum = none)
  | .factor | .digits _ => True

/-- A sign before the operand is a negation of it. -/
theorem Expr.negated_negate (e : Expr) (count : Nat) :
    (negate e).negated count = .negate (e.negated count) := by
  induction count with
  | zero => rfl
  | succ count ih => exact congrArg negate ih

/-- The sequel behind a negated factor is that behind the factor and its sign. -/
theorem Back.sequel_negate (back : Back) (groups : List OpenGroup) (context : Context) :
    back.sequel groups context.negate = back.negate.sequel groups context := by
  obtain ⟨result, place, events⟩ := back
  cases result with
  | ok operand =>
    have factor : context.negate.factor operand = context.factor (.negate operand) :=
      (operand.negated_negate context.signs).symm
    have term : context.negate.term operand = context.term (.negate operand) :=
      congrArg (Pending.join context.product) factor
    have whole : context.negate.expression operand = context.expression (.negate operand) :=
      congrArg (Pending.join context.sum) term
    have same : State.sequel ⟨groups, context.negate, .complete operand⟩ place =
        State.sequel ⟨groups, context, .complete (.negate operand)⟩ place :=
      State.sequel_complete whole fun _ _ _ => ⟨rfl, term⟩
    exact congrArg (Sequel.behind · events) same
  | error fault => rfl

/-- A literal that ends is a complete operand. -/
theorem State.sequel_literal {groups : List OpenGroup} {context : Context} {l : Literal}
    {cursor : Cursor} (ends : ∀ c, cursor.skipBlanks.current = some c →
      isDigit c = false ∧ (c = '.' → l.hasPoint = true)) :
    sequel ⟨groups, context, .literal l⟩ cursor =
      (sequel ⟨groups, context, .complete (.number l.value)⟩ cursor.skipBlanks).behind
        [.number l.value] := by
  rw [sequel_skipBlanks]
  apply sequel_settled rfl
  · intro c here
    obtain ⟨other, pointed⟩ := ends c here
    have noDigit : Digit.ofChar? c = none := by simpa [isDigit] using other
    have noPoint : ¬(c = '.' ∧ (!l.hasPoint) = true) := by
      rintro ⟨point, first⟩
      simp [pointed point] at first
    simp only [step?, literalStep?, noDigit, if_neg noPoint]
  · rfl
  · exact fun _ _ _ => ⟨rfl, rfl⟩

/-- A rule is entered before its first operand. -/
theorem Task.entries_chain (tight : Bool) (offset : Nat) :
    (chain tight).entries offset =
      [.entered (.joining tight) offset] ++ (operand tight).entries offset := by
  cases tight <;> rfl

/-- An operand is awaited where its rule is entered. -/
@[simp] theorem Task.phase_operand (tight : Bool) : (operand tight).phase = .awaiting := by
  cases tight <;> rfl

/-- The first operand fits where its rule does. -/
theorem Task.Fits.operand {tight : Bool} {context : Context} (fits : (chain tight).Fits context) :
    (Task.operand tight).Fits context := by
  cases tight with
  | true => trivial
  | false => exact ⟨fits.1, fits.2.1, nofun⟩

/-- The next operand fits behind its operator. -/
theorem Task.fits_extend (context : Context) (left : Expr) (op : Operator) :
    (operand op.bindsTight).Fits (context.extend left op) := by
  unfold Context.extend
  cases op.bindsTight with
  | true => trivial
  | false => exact ⟨rfl, rfl, nofun⟩

/-- Behind an operator the rules of its operand are entered. -/
theorem State.events_operator (groups : List OpenGroup) (context : Context) (left : Expr)
    (op : Operator) (offset : Nat) :
    events ⟨groups, context, .complete left⟩ (.operator op) offset =
      (Task.operand op.bindsTight).entries offset := by
  cases op <;> rfl

/-- Behind the operand of an operator the sequel is that behind what they make. -/
theorem State.sequel_binary {groups : List OpenGroup} {context : Context} {op : Operator}
    {left right : Expr} {place : Cursor} (fits : (Task.rest op.bindsTight left).Fits context)
    (ends : op.bindsTight = false → place.Ends true) :
    sequel ⟨groups, context.extend left op, .complete right⟩ place =
      sequel ⟨groups, context, .complete (.binary op left right)⟩ place := by
  obtain ⟨product, signs, sum⟩ := fits
  obtain ⟨sums, products, count⟩ := context
  obtain rfl : products = none := product
  obtain rfl : count = 0 := signs
  cases binds : op.bindsTight with
  | true =>
    have same : Context.extend ⟨sums, none, 0⟩ left op = ⟨sums, some ⟨left, op⟩, 0⟩ := if_pos binds
    rw [same]
    exact sequel_complete rfl fun _ _ _ => ⟨rfl, rfl⟩
  | false =>
    obtain rfl : sums = none := sum binds
    have same : Context.extend ⟨none, none, 0⟩ left op = ⟨some ⟨left, op⟩, none, 0⟩ :=
      if_neg (by simp [binds])
    have ended := ends binds
    rw [same]
    refine sequel_complete rfl fun other tight here => ?_
    rw [ended.settled] at here
    simp [(ended.refused other here).2] at tight

/-- A digit starts a literal where an operand is awaited. -/
theorem State.step?_firstDigit (groups : List OpenGroup) (context : Context) (d : Digit) :
    step? ⟨groups, context, .awaiting⟩ d.toChar = some (.digit d) := by
  obtain ⟨opening, -, sign, -, -⟩ := d.toChar_ne
  simp [step?, operandStep?, opening, sign]

/-- What starts no factor cannot stand where an operand is awaited. -/
theorem State.step?_awaiting {groups : List OpenGroup} {context : Context} {c : Char}
    (other : startsFactor c = false) : step? ⟨groups, context, .awaiting⟩ c = none := by
  simp only [startsFactor, isDigit, Bool.or_eq_false_iff, beq_eq_false_iff_ne,
    Option.isSome_eq_false_iff, Option.isNone_iff_eq_none] at other
  obtain ⟨⟨opening, sign⟩, digit⟩ := other
  simp [step?, operandStep?, opening, sign, digit]

/-- A first point can stand in a literal. -/
theorem State.step?_point {groups : List OpenGroup} {context : Context} {l : Literal}
    (first : l.hasPoint = false) : step? ⟨groups, context, .literal l⟩ '.' = some .point := by
  simp [step?, literalStep?, Digit.ofChar?, first]

/-- Where an expression ends and no group is closed, the run stops. -/
theorem State.sequel_of_ends {groups : List OpenGroup} {context : Context} {operand : Expr}
    {place : Cursor} (ends : place.Ends false)
    (unclosed : groups ≠ [] → place.current ≠ some ')') :
    sequel ⟨groups, context, .complete operand⟩ place =
      ⟨[], Run.outcome ⟨[], ⟨groups, context, .complete operand⟩, place⟩⟩ := by
  have refused : ∀ c, place.skipBlanks.current = some c →
      step? ⟨groups, context, .complete operand⟩ c = none := by
    intro c here
    rw [ends.settled] at here
    cases stands : step? ⟨groups, context, .complete operand⟩ c with
    | none => rfl
    | some step =>
      rcases followingStep?_cases stands with ⟨-, rfl, opened⟩ | ⟨op, -, rfl⟩
      · exact absurd here (unclosed opened)
      · exact absurd (ends.refused op here).1 nofun
  rw [sequel_of_refuses refused, ends.settled]
  rfl

/-- A run that starts where a part of the descent is entered does what that part does,
and goes on from what it comes back with. -/
def Task.Agrees (task : Task) (cursor : Cursor) (back : Back) : Prop :=
  ∀ (groups : List OpenGroup) (context : Context), task.Fits context →
    (State.sequel ⟨groups, context, task.phase⟩ cursor).behind (task.entries cursor.offset) =
      back.sequel groups context

/-- The operator that a loop takes binds as the loop does. -/
theorem bindsTight_of_taken {tight : Bool} {op : Operator} {cursor next : Cursor}
    (taken : cursor.take? (joins tight) = (some op.symbol, next)) : op.bindsTight = tight := by
  simpa [joins] using Cursor.accepts_of_taken taken

/-- Behind an operator a run does what the rule of its operand does. -/
theorem Task.Agrees.behind_operator {op : Operator} {cursor next : Cursor} {back : Back}
    (agrees : (operand op.bindsTight).Agrees next back)
    (taken : cursor.take? (joins op.bindsTight) = (some op.symbol, next))
    (groups : List OpenGroup) (context : Context) (left : Expr) :
    State.sequel ⟨groups, context, .complete left⟩ cursor =
      back.sequel groups (context.extend left op) := by
  have step : State.step? ⟨groups, context, .complete left⟩ op.symbol = some (.operator op) :=
    State.step?_symbol rfl op
  have operand := agrees groups (context.extend left op) (fits_extend context left op)
  rw [phase_operand] at operand
  rw [State.sequel_of_taken taken step, State.events_operator]
  exact operand

/-- Behind a parenthesis a run does what the rule of expressions does, in the group that
the parenthesis opens. -/
theorem Task.Agrees.behind_opening {cursor next : Cursor} {back : Back}
    (agrees : (chain false).Agrees next back)
    (taken : cursor.take? startsFactor = (some '(', next))
    (groups : List OpenGroup) (context : Context) :
    State.sequel ⟨groups, context, .awaiting⟩ cursor =
      back.sequel (⟨next.offset - 1, context⟩ :: groups) .empty := by
  have opens : State.step? ⟨groups, context, .awaiting⟩ '(' = some .opening := rfl
  rw [State.sequel_of_taken taken opens]
  exact agrees (⟨next.offset - 1, context⟩ :: groups) .empty ⟨rfl, rfl, fun _ => rfl⟩

/-- The closing parenthesis makes the content of a group an operand. -/
theorem State.sequel_of_closed {groups : List OpenGroup} {group : OpenGroup} {content : Expr}
    {close place : Cursor} (closed : close.take? (· == ')') = (some ')', place)) :
    sequel ⟨group :: groups, .empty, .complete content⟩ close =
      sequel ⟨groups, group.context, .complete content⟩ place := by
  have closes : step? ⟨group :: groups, .empty, .complete content⟩ ')' = some .closing := rfl
  rw [sequel_of_taken closed closes]
  rfl

/-- Where a group is not closed behind its content, that is what the run amounts to. -/
theorem State.sequel_of_unclosed {groups : List OpenGroup} {group : OpenGroup} {content : Expr}
    {close place : Cursor} (ends : close.Ends false)
    (none : close.take? (· == ')') = (none, place)) :
    sequel ⟨group :: groups, .empty, .complete content⟩ close =
      ⟨[], .error (.unclosedGroup group.opening)⟩ := by
  obtain ⟨same, refused⟩ := Cursor.refused_of_none none
  obtain rfl : close = place := (same.trans ends.settled).symm
  rw [sequel_of_ends ends fun _ here => by simpa using refused _ here]
  rfl

/-- Whatever a part of the descent comes back with, a run does what it does. -/
theorem Returns.agrees {task : Task} {cursor : Cursor} {back : Back}
    (h : Returns task cursor back) : task.Agrees cursor back := by
  induction h with
  | chain _ _ first loop =>
    intro groups context fits
    have head := first groups context fits.operand
    have tail := loop groups context fits
    rw [Task.phase_operand] at head
    rw [Task.entries_chain, ← Sequel.behind_behind, Back.sequel_behind, ← tail]
    exact (congrArg (Sequel.behind · _) head).trans (Sequel.behind_behind ..)
  | chainFails _ first =>
    intro groups context fits
    have head := first groups context fits.operand
    rw [Task.phase_operand] at head
    rw [Task.entries_chain, ← Sequel.behind_behind]
    exact congrArg (Sequel.behind · _) head
  | done none =>
    intro groups context _
    obtain ⟨rfl, -⟩ := Cursor.refused_of_none none
    exact (State.sequel_skipBlanks _ _).symm
  | @again _ _ _ middle op left right events _ taken right' _ operand loop =>
    intro groups context fits
    obtain rfl := bindsTight_of_taken taken
    have ends : op.bindsTight = false → middle.Ends true := (right'.ends rfl).operand
    have head : State.sequel ⟨groups, context, .complete left⟩ _ =
        (State.sequel ⟨groups, context.extend left op, .complete right⟩ middle).behind events :=
      operand.behind_operator taken groups context left
    rw [State.sequel_binary fits ends] at head
    rw [Back.sequel_behind, ← loop groups context fits]
    exact head
  | againFails taken _ operand =>
    intro groups context _
    obtain rfl := bindsTight_of_taken taken
    exact operand.behind_operator taken groups context _
  | @group _ next close _ content events taken _ closed inner =>
    intro groups context _
    have head : State.sequel ⟨groups, context, .awaiting⟩ _ =
        (State.sequel ⟨⟨next.offset - 1, context⟩ :: groups, .empty, .complete content⟩
          close).behind events :=
      inner.behind_opening taken groups context
    rw [State.sequel_of_closed closed] at head
    exact congrArg (Sequel.behind · [_]) head
  | @unclosed _ next close _ content events taken content' none inner =>
    intro groups context _
    have head : State.sequel ⟨groups, context, .awaiting⟩ _ =
        (State.sequel ⟨⟨next.offset - 1, context⟩ :: groups, .empty, .complete content⟩
          close).behind events :=
      inner.behind_opening taken groups context
    rw [State.sequel_of_unclosed (content'.ends rfl) none, Sequel.behind, List.append_nil] at head
    exact congrArg (Sequel.behind · [_]) head
  | groupFails taken _ inner =>
    intro groups context _
    exact congrArg (Sequel.behind · [_]) (inner.behind_opening taken groups context)
  | sign taken _ inner =>
    intro groups context _
    have negates : State.step? ⟨groups, context, .awaiting⟩ '-' = some .sign := rfl
    rw [Back.sequel_behind, ← Back.sequel_negate, ← inner groups context.negate trivial]
    exact congrArg (Sequel.behind · [_]) (State.sequel_of_taken taken negates)
  | @literal _ _ d _ taken _ loop =>
    intro groups context _
    have starts : State.step? ⟨groups, context, .awaiting⟩ d.toChar = some (.digit d) :=
      State.step?_firstDigit groups context d
    rw [Back.sequel_behind, ← loop groups context trivial]
    exact congrArg (Sequel.behind · [_]) (State.sequel_of_taken taken starts)
  | missing none =>
    intro groups context _
    obtain ⟨rfl, refused⟩ := Cursor.refused_of_none none
    exact congrArg (Sequel.behind · [_])
      (State.sequel_of_refuses fun c here => State.step?_awaiting (refused c here))
  | @digit _ _ l d _ taken _ loop =>
    intro groups context _
    have more : State.step? ⟨groups, context, .literal l⟩ d.toChar = some (.digit d) := by
      simp [State.step?, State.literalStep?]
    rw [← loop groups context trivial]
    exact State.sequel_of_taken taken more
  | point first none taken _ loop =>
    intro groups context _
    obtain ⟨rfl, -⟩ := Cursor.refused_of_none none
    rw [← loop groups context trivial]
    exact (State.sequel_skipBlanks _ _).symm.trans
      (State.sequel_of_taken taken (State.step?_point first))
  | @integer cursor _ _ l _ none noPoint =>
    intro groups context _
    obtain ⟨rfl, noDigit⟩ := Cursor.refused_of_none none
    obtain ⟨rfl, noPoint⟩ := Cursor.refused_of_none noPoint
    rw [Cursor.skipBlanks_skipBlanks] at noPoint ⊢
    have ends : ∀ c, cursor.skipBlanks.current = some c →
        isDigit c = false ∧ (c = '.' → l.hasPoint = true) := by
      intro c here
      refine ⟨noDigit c here, ?_⟩
      rintro rfl
      exact absurd (noPoint _ here) (by decide)
    exact State.sequel_literal ends
  | decimal pointed none =>
    intro groups context _
    obtain ⟨rfl, noDigit⟩ := Cursor.refused_of_none none
    exact State.sequel_literal fun c here => ⟨noDigit c here, fun _ => pointed⟩

/-- What a descent through a whole text amounts to: nothing may be left behind the
expression. -/
def Back.whole (back : Back) : Except Fault Expr :=
  match back.result with
  | .ok tree => if back.place.hasRemaining then .error back.place.fault else .ok tree
  | .error fault => .error fault

/-- Outside all groups the sequel of an expression is its end. -/
theorem Returns.sequel_eq {cursor : Cursor} {back : Back}
    (h : Returns (.chain false) cursor back) :
    back.sequel [] .empty = ⟨back.events, back.whole⟩ := by
  obtain ⟨result, place, events⟩ := back
  cases result with
  | error fault => rfl
  | ok tree =>
    have ended : State.sequel ⟨[], .empty, .complete tree⟩ place =
        ⟨[], Run.outcome ⟨[], ⟨[], .empty, .complete tree⟩, place⟩⟩ :=
      State.sequel_of_ends (h.ends rfl) nofun
    show Sequel.behind _ _ = _
    rw [ended, Sequel.behind, List.append_nil]
    rfl

/-- The last event of a reading tells what the source is. -/
def Source.ending (source : Source) : Event :=
  match source.parse with
  | .ok tree => .parsed tree
  | .error error => .failed error

/-- What a source is, and what happens while it is read, is what the descent through its
text comes back with. -/
theorem Source.parse_of_returns {source : Source} {back : Back}
    (h : Returns (.chain false) (.ofSource source) back) :
    source.parse = back.whole.mapError (⟨source, ·⟩) ∧
      source.trail = .started source.text :: back.events ++ [source.ending] := by
  have agrees := h.agrees [] .empty ⟨rfl, rfl, fun _ => rfl⟩
  rw [h.sequel_eq] at agrees
  have outcome : source.run.outcome = back.whole := congrArg Sequel.outcome agrees
  have events : _ ++ (source.run.events ++ source.run.state.completed) = back.events :=
    congrArg Sequel.events agrees
  have parsed : source.parse = back.whole.mapError (⟨source, ·⟩) := by
    unfold parse
    rw [outcome]
    cases back.whole <;> rfl
  have trail : source.trail =
      .started source.text :: .entered .expression 0 :: .entered .term 0 :: .entered .factor 0 ::
        source.run.events ++ source.run.state.completed ++ [source.ending] := by
    unfold trail ending
    rw [parsed]
    dsimp only
    rw [outcome]
    cases back.whole <;> rfl
  refine ⟨parsed, ?_⟩
  rw [trail, ← events]
  simp [Task.entries]

end Calculator
