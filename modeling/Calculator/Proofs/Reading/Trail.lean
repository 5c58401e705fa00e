import Calculator.Log
import Calculator.Proofs.Reading.Walk

/-!
# What the trail of a reading accounts for

Every event of a reading belongs to a part of the expression that is read: a
number to a leaf, a term to a sum, a factor to a leaf, a negation or a group. The
inventory of an expression lists its leaves and counts its nodes, and that of a
state adds up the inventories of what it holds. One step keeps the events in
balance with the inventory of its state, so a whole run does, and at the end the
inventory is that of the tree.
-/

namespace Calculator

/-- The leaves of something from left to right and the numbers of its negations and
of its sums and differences. -/
structure Inventory where
  /-- The leaves. -/
  leaves : List Float
  /-- The number of negations. -/
  negations : Nat
  /-- The number of sums and differences. -/
  sums : Nat

namespace Inventory

/-- The inventory of nothing. -/
def empty : Inventory := ⟨[], 0, 0⟩

/-- The inventory of two things, one on the left of the other. -/
def beside (left right : Inventory) : Inventory :=
  ⟨left.leaves ++ right.leaves, left.negations + right.negations, left.sums + right.sums⟩

/-- The inventory with some more negations. -/
def negate (i : Inventory) (count : Nat) : Inventory := { i with negations := i.negations + count }

/-- The inventory with one more operator, which may make a sum. -/
def join (i : Inventory) (op : Operator) : Inventory :=
  { i with sums := i.sums + if op.bindsTight then 0 else 1 }

/-- Nothing on the left makes no difference. -/
@[simp] theorem empty_beside (i : Inventory) : empty.beside i = i := by
  simp [empty, beside]

/-- Nothing on the right makes no difference. -/
@[simp] theorem beside_empty (i : Inventory) : i.beside empty = i := by
  simp [empty, beside]

/-- Three things may be taken together in either way. -/
theorem beside_assoc (i j k : Inventory) : (i.beside j).beside k = i.beside (j.beside k) := by
  simp [beside, Nat.add_assoc]

/-- Negations on the left are negations of the whole. -/
@[simp] theorem negate_beside (i j : Inventory) (count : Nat) :
    (i.negate count).beside j = (i.beside j).negate count := by
  simp [beside, negate, Nat.add_right_comm]

/-- Negations on the right are negations of the whole. -/
@[simp] theorem beside_negate (i j : Inventory) (count : Nat) :
    i.beside (j.negate count) = (i.beside j).negate count := by
  simp [beside, negate, Nat.add_assoc]

/-- An operator on the left is one of the whole. -/
@[simp] theorem join_beside (i j : Inventory) (op : Operator) :
    (i.join op).beside j = (i.beside j).join op := by
  simp [beside, join, Nat.add_right_comm]

/-- An operator on the right is one of the whole. -/
@[simp] theorem beside_join (i j : Inventory) (op : Operator) :
    i.beside (j.join op) = (i.beside j).join op := by
  simp [beside, join, Nat.add_assoc]

end Inventory

/-- The inventory of an expression. -/
def Expr.inventory : Expr → Inventory
  | .number value => ⟨[value], 0, 0⟩
  | .negate operand => operand.inventory.negate 1
  | .binary op left right => (left.inventory.beside right.inventory).join op

/-- The leaves of the inventory are those of the expression. -/
theorem Expr.leaves_inventory (e : Expr) : e.inventory.leaves = e.leaves := by
  induction e with
  | number => rfl
  | negate operand ih => exact ih
  | binary op left right ihl ihr => rw [leaves, ← ihl, ← ihr]; rfl

/-- The inventory of a waiting operand and its operator. -/
def Pending.inventory : Option Pending → Inventory
  | none => .empty
  | some pending => pending.left.inventory.join pending.operator

/-- The inventory of what stands before an operand. -/
def Context.inventory (context : Context) : Inventory :=
  ((Pending.inventory context.sum).beside (Pending.inventory context.product)).negate context.signs

/-- The inventory of the beginnings of open groups, the innermost of which comes
first. -/
def OpenGroup.inventory : List OpenGroup → Inventory
  | [] => .empty
  | group :: groups => (inventory groups).beside group.context.inventory

/-- The inventory of a complete operand. A literal that may go on is not in it. -/
def Phase.inventory : Phase → Inventory
  | .awaiting | .literal _ => .empty
  | .complete operand => operand.inventory

/-- The inventory of what has been read. -/
def State.inventory (state : State) : Inventory :=
  ((OpenGroup.inventory state.groups).beside state.context.inventory).beside state.phase.inventory

/-- Joining an operand with what waits for it puts it on the right. -/
theorem Pending.inventory_join (pending : Option Pending) (e : Expr) :
    (join pending e).inventory = (inventory pending).beside e.inventory := by
  cases pending with
  | none => exact (Inventory.empty_beside _).symm
  | some pending => exact (Inventory.join_beside ..).symm

/-- Signs are negations. -/
theorem Expr.inventory_negated (e : Expr) (count : Nat) :
    (e.negated count).inventory = e.inventory.negate count := by
  induction count with
  | zero => rfl
  | succ count ih => rw [negated, inventory, ih]; rfl

/-- The inventory of the term that an operand completes. -/
theorem Context.inventory_term (context : Context) (operand : Expr) :
    (context.term operand).inventory =
      ((Pending.inventory context.product).beside operand.inventory).negate context.signs := by
  unfold term factor
  rw [Pending.inventory_join, Expr.inventory_negated, Inventory.beside_negate]

/-- The inventory of the expression that an operand completes. -/
theorem Context.inventory_expression (context : Context) (operand : Expr) :
    (context.expression operand).inventory = context.inventory.beside operand.inventory := by
  unfold expression
  rw [Pending.inventory_join, inventory_term, inventory, Inventory.beside_negate,
    Inventory.negate_beside, Inventory.beside_assoc]

/-- The inventory of what stands before the operand behind an operator. -/
theorem Context.inventory_extend (context : Context) (operand : Expr) (op : Operator) :
    (context.extend operand op).inventory =
      (context.inventory.beside operand.inventory).join op := by
  rw [← inventory_expression]
  unfold extend
  split
  · have product : (context.expression operand).inventory =
        (Pending.inventory context.sum).beside (context.term operand).inventory :=
      Pending.inventory_join ..
    rw [product]
    exact Inventory.beside_join ..
  · exact Inventory.beside_empty _

/-- The number that an event reports. -/
def Event.number? : Event → Option Float
  | .number value => some value
  | _ => none

/-- Whether an event enters a rule. -/
def Event.enters (rule : Rule) : Event → Bool
  | .entered rule' _ => rule' == rule
  | _ => false

/-- How many factors are begun: the leaves, the one that is read or awaited, and
the negations. -/
def State.factors (state : State) : Nat :=
  state.inventory.leaves.length + state.inventory.negations +
    match state.phase with
    | .complete _ => 0
    | _ => 1

/-- Events are in balance with a state and a number of groups opened so far. -/
structure State.Balanced (state : State) (opened : Nat) (events : List Event) : Prop where
  /-- The numbers are the leaves. -/
  numbers : events.filterMap Event.number? = state.inventory.leaves
  /-- There is one expression more than groups. -/
  expressions : events.countP (Event.enters .expression) = 1 + opened
  /-- There is a term for every expression and every sum. -/
  terms : events.countP (Event.enters .term) = 1 + opened + state.inventory.sums
  /-- There is a factor for every leaf, negation and group. -/
  factors : events.countP (Event.enters .factor) = opened + state.factors

/-- States with the same inventory and the same factors are in the same balance. -/
theorem State.Balanced.congr {state next : State} {opened : Nat} {events : List Event}
    (h : state.Balanced opened events) (same : next.inventory = state.inventory)
    (factors : next.factors = state.factors) : next.Balanced opened events :=
  ⟨same ▸ h.numbers, h.expressions, same ▸ h.terms, factors ▸ h.factors⟩

/-- The first events are in balance with the start. -/
theorem State.balanced_start (text : String) :
    start.Balanced 0
      [.started text, .entered .expression 0, .entered .term 0, .entered .factor 0] :=
  ⟨rfl, rfl, rfl, rfl⟩

/-- Completing the operand keeps the balance, with the event of a literal that ends
there. -/
theorem State.Balanced.settled {groups : List OpenGroup} {context : Context} {phase : Phase}
    {opened : Nat} {events : List Event} (h : Balanced ⟨groups, context, phase⟩ opened events)
    {operand : Expr} (read : phase.operand? = some operand) :
    Balanced ⟨groups, context, .complete operand⟩ opened
      (events ++ completed ⟨groups, context, phase⟩) := by
  cases phase with
  | awaiting => contradiction
  | complete e =>
    obtain rfl : e = operand := Option.some.inj read
    exact (List.append_nil events).symm ▸ h
  | literal l =>
    obtain rfl : .number l.value = operand := Option.some.inj read
    obtain ⟨numbers, expressions, terms, factors⟩ := h
    have before : inventory ⟨groups, context, .literal l⟩ =
        (OpenGroup.inventory groups).beside context.inventory := Inventory.beside_empty _
    have behind : inventory ⟨groups, context, .complete (.number l.value)⟩ =
        (inventory ⟨groups, context, .literal l⟩).beside ⟨[l.value], 0, 0⟩ := by
      rw [before]
      rfl
    refine ⟨?_, ?_, ?_, ?_⟩
    · rw [List.filterMap_append, numbers, behind]
      rfl
    · rw [List.countP_append, expressions]
      rfl
    · rw [List.countP_append, terms, behind]
      rfl
    · have none : (completed ⟨groups, context, .literal l⟩).countP (Event.enters .factor) = 0 := rfl
      have one : [l.value].length = 1 := rfl
      rw [List.countP_append, factors, none]
      simp only [State.factors, behind, Inventory.beside, List.length_append, one]
      omega

/-- Further events keep the balance if they make up for what the state and the
number of groups change by. -/
theorem State.Balanced.append {state next : State} {opened opened' : Nat}
    {events more : List Event} (h : state.Balanced opened events)
    (numbers : more.filterMap Event.number? = [])
    (leaves : next.inventory.leaves = state.inventory.leaves)
    (expressions : opened + more.countP (Event.enters .expression) = opened')
    (terms : opened + state.inventory.sums + more.countP (Event.enters .term) =
      opened' + next.inventory.sums)
    (factors : opened + state.factors + more.countP (Event.enters .factor) =
      opened' + next.factors) :
    next.Balanced opened' (events ++ more) := by
  obtain ⟨numbers', expressions', terms', factors'⟩ := h
  refine ⟨?_, ?_, ?_, ?_⟩
  · rw [List.filterMap_append, numbers, List.append_nil, numbers', leaves]
  · rw [List.countP_append, expressions']
    omega
  · rw [List.countP_append, terms']
    omega
  · rw [List.countP_append, factors']
    omega

/-- The inventory where an operand is missing. -/
theorem State.inventory_awaiting (groups : List OpenGroup) (context : Context) :
    inventory ⟨groups, context, .awaiting⟩ =
      (OpenGroup.inventory groups).beside context.inventory :=
  Inventory.beside_empty _

/-- A sign is a negation. -/
theorem State.inventory_sign (groups : List OpenGroup) (context : Context) :
    inventory ⟨groups, context.negate, .awaiting⟩ =
      (inventory ⟨groups, context, .awaiting⟩).negate 1 := by
  rw [inventory_awaiting, inventory_awaiting, ← Inventory.beside_negate]
  rfl

/-- A group contains nothing when it is opened. -/
theorem State.inventory_opening (place : Nat) (groups : List OpenGroup) (context : Context) :
    inventory ⟨⟨place, context⟩ :: groups, .empty, .awaiting⟩ =
      inventory ⟨groups, context, .awaiting⟩ := by
  rw [inventory_awaiting, inventory_awaiting]
  exact Inventory.beside_empty _

/-- A group that is closed is an operand and keeps what it contains. -/
theorem State.inventory_closing (group : OpenGroup) (groups : List OpenGroup) (context : Context)
    (operand : Expr) :
    inventory ⟨groups, group.context, .complete (context.expression operand)⟩ =
      inventory ⟨group :: groups, context, .complete operand⟩ := by
  simp only [inventory, Phase.inventory, Context.inventory_expression, OpenGroup.inventory,
    Inventory.beside_assoc]

/-- An operator joins what stands before it with what follows. -/
theorem State.inventory_operator (groups : List OpenGroup) (context : Context) (operand : Expr)
    (op : Operator) :
    inventory ⟨groups, context.extend operand op, .awaiting⟩ =
      (inventory ⟨groups, context, .complete operand⟩).join op := by
  rw [inventory_awaiting, Context.inventory_extend, Inventory.beside_join,
    ← Inventory.beside_assoc]
  rfl

/-- One character keeps the balance, with the events of its step. -/
theorem State.Balanced.advance {state next : State} {opened behind : Nat} {events : List Event}
    (h : state.Balanced opened events) {c : Char} {step : Step} (stands : state.step? c = some step)
    (advance : Advance behind state c next) :
    next.Balanced (opened + if c = '(' then 1 else 0) (events ++ state.events step behind) := by
  cases advance with
  | firstDigit d =>
    obtain ⟨opening, -, sign, -, -⟩ := d.toChar_ne
    obtain rfl : .digit d = step := by simpa [step?, operandStep?, opening, sign] using stands
    rw [if_neg opening]
    exact h.append rfl rfl rfl rfl rfl
  | digit l d =>
    obtain rfl : .digit d = step := by simpa [step?, literalStep?] using stands
    rw [if_neg d.toChar_ne.1]
    exact h.append rfl rfl rfl rfl rfl
  | point first =>
    obtain rfl : .point = step := by simpa [step?, literalStep?, Digit.ofChar?, first] using stands
    exact h.append rfl rfl rfl rfl rfl
  | @sign groups context =>
    obtain rfl : .sign = step := by simpa [step?, operandStep?] using stands
    have more := inventory_sign groups context
    refine h.append rfl (by rw [more]; rfl) rfl (by rw [more]; rfl) ?_
    simp only [State.factors, more]
    rfl
  | @opening groups context =>
    obtain rfl : .opening = step := by simpa [step?, operandStep?] using stands
    have same := inventory_opening (behind - 1) groups context
    refine h.append rfl (congrArg _ same) rfl ?_ ?_
    · rw [same]
      exact Nat.add_right_comm ..
    · simp only [State.factors, same]
      exact Nat.add_right_comm ..
  | @closing group groups context phase operand read =>
    obtain rfl : .closing = step := Option.some.inj ((step?_closing read).symm.trans stands)
    have same := inventory_closing group groups context operand
    exact (h.settled read).congr same (by simp only [State.factors, same])
  | @operator groups context phase operand op read =>
    obtain rfl : .operator op = step := Option.some.inj ((step?_symbol read op).symm.trans stands)
    have more := inventory_operator groups context operand op
    have settled := h.settled read
    rw [if_neg op.symbol_ne.2.1]
    unfold State.events
    dsimp only
    rw [← List.append_assoc]
    -- an operator that binds tight begins a factor only, any other one a term as well
    cases binds : op.bindsTight with
    | true =>
      refine settled.append rfl (by rw [more]; rfl) rfl ?_ ?_
      · simp only [more, Inventory.join, binds]
        rfl
      · simp only [State.factors, more, Inventory.join]
        rfl
    | false =>
      refine settled.append rfl (by rw [more]; rfl) rfl ?_ ?_
      · simp only [more, Inventory.join, binds]
        rfl
      · simp only [State.factors, more, Inventory.join]
        rfl

/-- Passing over blanks passes over no parenthesis. -/
theorem Cursor.count_skipBlanks (cursor : Cursor) :
    cursor.skipBlanks.rest.count '(' = cursor.rest.count '(' := by
  have split : cursor.rest = cursor.rest.takeWhile (· == ' ') ++ cursor.skipBlanks.rest :=
    List.takeWhile_append_dropWhile.symm
  have blanks : (cursor.rest.takeWhile (· == ' ')).count '(' = 0 := by
    apply List.count_eq_zero.mpr
    intro member
    have blank := List.all_eq_true.mp List.all_takeWhile _ member
    contradiction
  have total := congrArg (List.count '(') split
  rw [List.count_append, blanks, Nat.zero_add] at total
  exact total.symm

/-- A run keeps the balance, and opens a group at every parenthesis that it reads. -/
theorem State.Balanced.run {state : State} {opened : Nat} {events : List Event}
    (h : state.Balanced opened events) (cursor : Cursor) :
    ∃ opened', (state.run cursor).state.Balanced opened' (events ++ (state.run cursor).events) ∧
      opened' + (state.run cursor).cursor.rest.count '(' = opened + cursor.rest.count '(' := by
  fun_induction State.run state cursor generalizing opened events with
  | case1 state cursor c place taken refused =>
    -- the look takes only what the state accepts
    have found : (cursor.take? state.accepts).1 = some c := by rw [taken]
    have accepted := (Cursor.take?_some found).1
    simp [State.accepts, refused] at accepted
  | case2 state cursor c place taken step stands run =>
    rename_i ih
    have found : (cursor.take? state.accepts).1 = some c := by rw [taken]
    obtain ⟨-, split, -⟩ := Cursor.take?_some found
    rw [taken] at split
    have total := cursor.count_skipBlanks
    rw [split, List.count_cons] at total
    obtain ⟨opened', balanced, count⟩ := ih (h.advance stands (.of_step? stands place.offset))
    refine ⟨opened', by rwa [List.append_assoc] at balanced, count.trans ?_⟩
    rw [← total]
    simp only [beq_iff_eq]
    omega
  | case3 state cursor place taken =>
    have refused : (cursor.take? state.accepts).1 = none := by rw [taken]
    have same := Cursor.take?_none refused
    rw [taken] at same
    refine ⟨opened, (List.append_nil events).symm ▸ h, ?_⟩
    rw [show place = cursor.skipBlanks from same, cursor.count_skipBlanks]

/-- The records with a certain message. -/
def Record.saying (message : String) (records : List Record) : List Record :=
  records.filter fun record => record.message == message

/-- At the level of greatest detail every record is kept. -/
theorem Record.upTo_trace (records : List Record) : upTo Level.trace.detail records = records := by
  apply List.filter_eq_self.mpr
  intro record _
  cases record.level <;> rfl

/-- The records that name a rule are those of the events that enter it. -/
theorem Event.record_says_rule (event : Event) (rule : Rule) :
    (event.record.message == rule.name) = event.enters rule := by
  cases event with
  | started | number | parsed => cases rule <;> rfl
  | entered rule' => cases rule <;> cases rule' <;> rfl
  | failed error =>
    apply beq_eq_false_iff_ne.mpr
    intro same
    have first := congrArg (fun s => s.toList.head?) same
    cases rule <;> simp [record, Rule.name] at first

/-- The records of numbers show the numbers, and no other record names one. -/
theorem Event.records_saying_number (events : List Event) :
    (Record.saying "number" (events.map record)).flatMap Record.fields =
      (events.filterMap number?).map fun x => ("value", .value x) := by
  have other (event : Event) (none : event.number? = none) :
      (event.record.message == "number") = false := by
    cases event with
    | started | parsed => rfl
    | entered rule => cases rule <;> rfl
    | number => contradiction
    | failed error =>
      apply beq_eq_false_iff_ne.mpr
      intro same
      have first := congrArg (fun s => s.toList.head?) same
      simp [record] at first
  induction events with
  | nil => rfl
  | cons event events ih =>
    cases reported : event.number? with
    | none =>
      rw [List.filterMap_cons_none reported, ← ih]
      simp [Record.saying, other event reported]
    | some x =>
      obtain rfl : event = .number x := by
        cases event <;> simp_all [number?]
      rw [List.filterMap_cons_some reported, List.map_cons, List.map_cons, ← ih]
      rfl

/-- The number of records that name a rule is that of the events that enter it. -/
theorem Event.length_records_saying_rule (events : List Event) (rule : Rule) :
    (Record.saying rule.name (events.map record)).length = events.countP (enters rule) := by
  unfold Record.saying
  rw [← List.countP_eq_length_filter, List.countP_map]
  congr 1
  funext event
  exact event.record_says_rule rule

/-- Where a text is an expression, its run ends behind it, outside all groups. -/
theorem Source.run_of_parse {source : Source} {tree : Expr} (parsed : source.parse = .ok tree) :
    source.run.outcome = .ok tree ∧ ∃ context phase operand,
      source.run.state = ⟨[], context, phase⟩ ∧ phase.operand? = some operand ∧
        source.run.cursor.rest = [] ∧ context.expression operand = tree := by
  unfold parse at parsed
  cases outcome : source.run.outcome with
  | error fault => simp [outcome] at parsed
  | ok tree' =>
    obtain rfl : tree' = tree := by simpa [outcome] using parsed
    rw [Run.outcome_eq] at outcome
    obtain ⟨operand, read, closed, ended, whole⟩ := State.verdict_eq_ok.mp outcome
    generalize source.run.state = state at read closed whole ⊢
    obtain ⟨groups, context, phase⟩ := state
    obtain rfl : groups = [] := closed
    exact ⟨rfl, context, phase, operand, rfl, read, List.head?_eq_none_iff.mp ended, whole⟩

/-- The events of a text that is an expression are in balance with the inventory of
the expression, and the last one tells it. -/
theorem Source.balanced_trail {source : Source} {tree : Expr} (parsed : source.parse = .ok tree) :
    ∃ events, source.trail = events ++ [.parsed tree] ∧
      State.Balanced ⟨[], .empty, .complete tree⟩ (source.text.toList.count '(') events := by
  obtain ⟨outcome, context, phase, operand, state, read, ended, whole⟩ := run_of_parse parsed
  obtain ⟨opened, balanced, count⟩ :=
    (State.balanced_start source.text).run (.ofSource source)
  change source.run.state.Balanced _ (_ ++ source.run.events) at balanced
  change opened + source.run.cursor.rest.count '(' = _ at count
  obtain rfl : opened = source.text.toList.count '(' := by
    rw [ended] at count
    simpa using count
  rw [state] at balanced
  have settled := balanced.settled read
  have same : State.inventory ⟨[], .empty, .complete tree⟩ =
      State.inventory ⟨[], context, .complete operand⟩ := by
    rw [← whole]
    simp only [State.inventory, Phase.inventory, Context.inventory_expression]
    exact (Inventory.beside_assoc ..).symm
  have factor : State.factors ⟨[], .empty, .complete tree⟩ =
      State.factors ⟨[], context, .complete operand⟩ := by
    simp only [State.factors, same]
  refine ⟨_, ?_, settled.congr same factor⟩
  unfold trail
  dsimp only
  rw [outcome, state]
  rfl

/-- The log of a text that is an expression accounts for the whole of it: for every
leaf by a number, for every group, sum and negation by the rules entered, and for
the tree by the last record. -/
theorem Source.log_accounts_for_tree {source : Source} {tree : Expr}
    (parsed : source.parse = .ok tree) :
    let log := Record.upTo Level.trace.detail (source.trail.map Event.record)
    let opened := source.text.toList.count '('
    (Record.saying "number" log).flatMap Record.fields =
        tree.leaves.map (fun x => ("value", FieldValue.value x)) ∧
      (Record.saying "expression" log).length = 1 + opened ∧
      (Record.saying "term" log).length =
        (Record.saying "expression" log).length + tree.inventory.sums ∧
      (Record.saying "factor" log).length =
        tree.leaves.length + tree.inventory.negations + opened ∧
      log.getLast? = some ⟨.debug, "arith::parse", "parsed expression", [("tree", .tree tree)]⟩ ∧
      (FieldValue.tree tree).characters = tree.render.toList := by
  obtain ⟨events, trail, numbers, expressions, terms, factors⟩ := balanced_trail parsed
  have whole : State.inventory ⟨[], .empty, .complete tree⟩ = tree.inventory :=
    Inventory.empty_beside _
  have factor : State.factors ⟨[], .empty, .complete tree⟩ =
      tree.leaves.length + tree.inventory.negations := by
    rw [State.factors, whole, Expr.leaves_inventory]
    rfl
  rw [whole] at numbers terms
  rw [factor] at factors
  have entered (rule : Rule) :
      (Record.saying rule.name ((events ++ [Event.parsed tree]).map Event.record)).length =
        events.countP (Event.enters rule) := by
    rw [Event.length_records_saying_rule, List.countP_append]
    rfl
  have expression := (entered .expression).trans expressions
  dsimp only
  rw [Record.upTo_trace, trail]
  refine ⟨?_, ?_, ?_, ?_, ?_, tree.toList_render.symm⟩
  · rw [Event.records_saying_number, List.filterMap_append, numbers, Expr.leaves_inventory]
    exact congrArg _ (List.append_nil _)
  · exact expression
  · exact ((entered .term).trans terms).trans (congrArg (· + _) expression.symm)
  · exact ((entered .factor).trans factors).trans (Nat.add_comm ..)
  · simp [Event.record, Event.target]

/-- Three numbers, a negation and a group make five factors, and two sums in two
expressions make four terms. -/
theorem Source.log_accounts_for_negated_group :
    ∃ tree, Source.parse ⟨none, "-(1.5 + 2) - 3"⟩ = .ok tree ∧
      let trail := Source.trail ⟨none, "-(1.5 + 2) - 3"⟩
      let log := Record.upTo Level.trace.detail (trail.map Event.record)
      (Record.saying "expression" log).length = 2 ∧ (Record.saying "term" log).length = 4 ∧
        (Record.saying "factor" log).length = 5 := by
  let half : Literal := ⟨#[1], some #[5]⟩
  let tree : Expr := .binary .subtract
    (.negate (.binary .add (.number half.value) (.number (Literal.ofDigit 2).value)))
    (.number (Literal.ofDigit 3).value)
  have parsed : Source.parse ⟨none, "-(1.5 + 2) - 3"⟩ = .ok tree :=
    (parse_eq_ok_iff_walk _ _).mpr ⟨_, .literal (.ofDigit 3), _, rfl, rfl, rfl⟩
  obtain ⟨-, expressions, terms, factors, -⟩ := log_accounts_for_tree parsed
  have opened : "-(1.5 + 2) - 3".toList.count '(' = 1 := by decide
  rw [opened] at expressions factors
  exact ⟨tree, parsed, expressions, terms.trans (congrArg (· + 2) expressions), factors⟩

end Calculator
