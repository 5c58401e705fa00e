import Calculator.Proofs.Reading.Agreement
import Calculator.Proofs.Reading.Trail

/-!
# The order of a log

A descent enters rules at places that never go back, and at one place in the order
expression, term, factor. So the events of a part of the descent have growing ranks,
which lie between those of its own entry and of the place that it comes back from.
What holds of two parts holds of one behind the other, and so of a whole reading: its
log starts with the text, goes through the rules in order, and ends with the outcome.
-/

namespace Calculator

/-- The order of the rules that are entered at one place. -/
def Rule.depth : Rule → Nat
  | .expression => 0
  | .term => 1
  | .factor => 2

/-- The rank of an entry: by its place first, then by the rule. -/
def Event.rank? : Event → Option Nat
  | .entered rule offset => some (3 * offset + rule.depth)
  | _ => none

/-- The event that follows an event at once, where only one can. -/
def Event.follower? : Event → Option Event
  | .entered .expression offset => some (.entered .term offset)
  | .entered .term offset => some (.entered .factor offset)
  | _ => none

/-- Every event is followed by the one that has to follow it. -/
def Event.Nested : List Event → Prop
  | [] => True
  | event :: rest => (∀ next, event.follower? = some next → rest.head? = some next) ∧ Nested rest

/-- An event between the first and the last: a number, or a rule entered at a place of
the source. -/
def Event.IsStep (source : Source) : Event → Prop
  | .number _ => True
  | .entered _ offset => ∃ cursor : Cursor, cursor.source = source ∧ cursor.offset = offset
  | .started _ | .parsed _ | .failed _ => False

/-- The events between the first and the last are recorded as single steps. -/
theorem Event.IsStep.level_record {source : Source} {event : Event} (step : event.IsStep source) :
    event.record.level = .trace := by
  cases event with
  | entered | number => rfl
  | started | parsed | failed => contradiction

/-- Nesting is a matter of neighbours, so two nested lists make one. -/
theorem Event.Nested.append {a b : List Event} (first : Nested a) (second : Nested b) :
    Nested (a ++ b) := by
  induction a with
  | nil => exact second
  | cons event a ih =>
    obtain ⟨follows, rest⟩ := first
    refine ⟨fun next has => ?_, ih rest⟩
    show (a ++ b).head? = some next
    rw [List.head?_append, follows next has]
    rfl

/-- Events of a source in order, with ranks from a lowest one on and below a highest one,
and with at most so many factors among them. -/
structure Steps (source : Source) (low high factors : Nat) (events : List Event) : Prop where
  /-- The ranks grow. -/
  ascending : events.Pairwise fun a b =>
    ∀ m n, a.rank? = some m → b.rank? = some n → m < n
  /-- The ranks are within the bounds. -/
  bounded : ∀ event ∈ events, ∀ rank, event.rank? = some rank → low ≤ rank ∧ rank < high
  /-- What has to follow follows at once. -/
  nested : Event.Nested events
  /-- The factors are as many as allowed. -/
  factors_le : events.countP (Event.enters .factor) ≤ factors
  /-- Neither the start nor the end of the reading is among them. -/
  steps : ∀ event ∈ events, event.IsStep source

namespace Steps

variable {source : Source} {low high : Nat}

/-- No events are in order. -/
theorem nil (source : Source) (low high factors : Nat) : Steps source low high factors [] :=
  ⟨.nil, nofun, trivial, Nat.zero_le _, nofun⟩

/-- A number is in order anywhere. -/
theorem number (source : Source) (low high factors : Nat) (value : Float) :
    Steps source low high factors [.number value] := by
  refine ⟨List.pairwise_singleton .., ?_, ⟨nofun, trivial⟩, Nat.zero_le _, ?_⟩
  · intro event member rank has
    obtain rfl := List.mem_singleton.mp member
    contradiction
  · intro event member
    obtain rfl := List.mem_singleton.mp member
    trivial

/-- The bounds may be wider. -/
theorem widen {low' high' factors factors' : Nat} {events : List Event}
    (h : Steps source low high factors events) (lower : low' ≤ low) (higher : high ≤ high')
    (more : factors ≤ factors') : Steps source low' high' factors' events := by
  obtain ⟨ascending, bounded, nested, count, steps⟩ := h
  refine ⟨ascending, ?_, nested, Nat.le_trans count more, steps⟩
  intro event member rank has
  obtain ⟨atLeast, below⟩ := bounded event member rank has
  omega

/-- Events in order behind events in order are in order. -/
theorem append {middle middle' m n : Nat} {a b : List Event} (first : Steps source low middle m a)
    (second : Steps source middle' high n b) (between : middle ≤ middle') (lower : low ≤ middle')
    (higher : middle ≤ high) : Steps source low high (m + n) (a ++ b) := by
  refine ⟨?_, ?_, first.nested.append second.nested, ?_, ?_⟩
  · refine List.pairwise_append.mpr ⟨first.ascending, second.ascending, ?_⟩
    intro x inFirst y inSecond i j hasFirst hasSecond
    have below := (first.bounded x inFirst i hasFirst).2
    have above := (second.bounded y inSecond j hasSecond).1
    omega
  · intro event member rank has
    rcases List.mem_append.mp member with inFirst | inSecond
    · have bounds := first.bounded event inFirst rank has
      omega
    · have bounds := second.bounded event inSecond rank has
      omega
  · rw [List.countP_append]
    exact Nat.add_le_add first.factors_le second.factors_le
  · intro event member
    rcases List.mem_append.mp member with inFirst | inSecond
    · exact first.steps event inFirst
    · exact second.steps event inSecond

/-- A rule that is entered before events in order is in order with them, if what has to
follow it is the first of them. -/
theorem enter {factors : Nat} {rule : Rule} {cursor : Cursor} {events : List Event}
    (h : Steps cursor.source low high factors events)
    (below : 3 * cursor.offset + rule.depth < low) (wide : low ≤ high)
    (follows : ∀ next, Event.follower? (.entered rule cursor.offset) = some next →
      events.head? = some next) :
    Steps cursor.source (3 * cursor.offset + rule.depth) high
      ((if rule = .factor then 1 else 0) + factors) (.entered rule cursor.offset :: events) := by
  refine ⟨List.pairwise_cons.mpr ⟨?_, h.ascending⟩, ?_, ⟨follows, h.nested⟩, ?_, ?_⟩
  · rintro event member _ n ⟨⟩ has
    exact Nat.lt_of_lt_of_le below (h.bounded event member n has).1
  · intro event member rank has
    rcases List.mem_cons.mp member with rfl | later
    · obtain rfl := Option.some.inj has
      omega
    · have bounds := h.bounded event later rank has
      omega
  · have count := h.factors_le
    rw [List.countP_cons]
    simp only [Event.enters, beq_iff_eq]
    omega
  · intro event member
    rcases List.mem_cons.mp member with rfl | later
    · exact ⟨cursor, rfl, rfl⟩
    · exact h.steps event later

end Steps

/-- The lowest rank that an event of a part of the descent can have. -/
def Task.lowest (task : Task) (offset : Nat) : Nat :=
  match task with
  | .chain tight => 3 * offset + (Rule.joining tight).depth
  | .factor => 3 * offset + Rule.factor.depth
  | .rest .. | .digits _ => 3 * offset

/-- No part of the descent has an event of a rank below its place. -/
theorem Task.le_lowest (task : Task) (offset : Nat) : 3 * offset ≤ task.lowest offset := by
  cases task <;> simp only [lowest] <;> omega

/-- A part of the descent that is faulty may have entered one factor in vain. -/
def Back.vain (back : Back) : Nat := if back.result.isOk then 0 else 1

/-- With an expression nothing is in vain. -/
@[simp] theorem Back.vain_ok (e : Expr) (place : Cursor) (events : List Event) :
    vain ⟨.ok e, place, events⟩ = 0 := rfl

/-- With a fault one factor may be in vain. -/
@[simp] theorem Back.vain_error (fault : Fault) (place : Cursor) (events : List Event) :
    vain ⟨.error fault, place, events⟩ = 1 := rfl

/-- The rule of what is joined tightly, or loosely. -/
def Rule.joined (tight : Bool) : Rule := if tight then .factor else .term

/-- The rule of an operand is the part of the descent for it. -/
theorem Task.ofRule_joined (tight : Bool) : ofRule (.joined tight) = operand tight := by
  cases tight <;> rfl

/-- A rule ranks below that of its operands at the same place. -/
theorem Task.lowest_operand (tight : Bool) (offset : Nat) :
    (operand tight).lowest offset = 3 * offset + (Rule.joining tight).depth + 1 := by
  cases tight <;> rfl

/-- Operands at a place rank below what is at the next one. -/
theorem Task.lowest_operand_lt (tight : Bool) (offset : Nat) :
    (operand tight).lowest offset < 3 * (offset + 1) := by
  have depth : (Rule.joining tight).depth < 2 := by cases tight <;> decide
  rw [lowest_operand]
  omega

/-- A rule is entered before everything else in it. -/
theorem Returns.head?_events {rule : Rule} {cursor : Cursor} {back : Back}
    (h : Returns (.ofRule rule) cursor back) :
    back.events.head? = some (.entered rule cursor.offset) := by
  cases rule with
  | expression =>
    change Returns (.chain false) cursor back at h
    cases h <;> rfl
  | term =>
    change Returns (.chain true) cursor back at h
    cases h <;> rfl
  | factor =>
    change Returns .factor cursor back at h
    cases h <;> rfl

/-- An operand starts with its rule. -/
theorem Returns.head?_operand {tight : Bool} {cursor : Cursor} {back : Back}
    (h : Returns (.operand tight) cursor back) :
    back.events.head? = some (.entered (.joined tight) cursor.offset) := by
  rw [← Task.ofRule_joined] at h
  exact h.head?_events

namespace Steps

/-- What a part of the descent does at a place reached over visible characters is in order
behind them. -/
theorem behind {task : Task} {cursor next place : Cursor} {passed high vain : Nat}
    {events : List Event}
    (h : Steps next.source (task.lowest next.offset) high
      (next.visibleLeft + vain - place.visibleLeft) events)
    (passes : cursor.Passes passed next) :
    Steps cursor.source (3 * (cursor.offset + passed)) high
      (cursor.visibleLeft + vain - place.visibleLeft - passed) events := by
  have later := passes.offset_le
  have left := passes.left_eq
  have lowest := task.le_lowest next.offset
  rw [passes.source_eq] at h
  exact h.widen (by omega) (Nat.le_refl _) (by omega)

/-- In the same way it is in order behind the place from which it was reached. -/
theorem later {task : Task} {cursor next place : Cursor} {passed high vain : Nat}
    {events : List Event}
    (h : Steps next.source (task.lowest next.offset) high
      (next.visibleLeft + vain - place.visibleLeft) events)
    (passes : cursor.Passes passed next) :
    Steps cursor.source (3 * cursor.offset) high
      (cursor.visibleLeft + vain - place.visibleLeft) events :=
  (h.behind passes).widen (Nat.mul_le_mul_left 3 (Nat.le_add_right ..)) (Nat.le_refl _)
    (Nat.sub_le ..)

/-- What a loop does behind an operand is in order behind what the operand does. -/
theorem loop {cursor middle : Cursor} {passed : Nat} {tight : Bool} {left : Expr}
    {events : List Event} {back : Back}
    (first : Steps cursor.source low (3 * middle.offset)
      (cursor.visibleLeft - middle.visibleLeft) events)
    (h : Steps middle.source (3 * middle.offset) (3 * (back.place.offset + back.vain))
      (middle.visibleLeft + back.vain - back.place.visibleLeft) back.events)
    (rest : Returns (.rest tight left) middle back) (passes : cursor.Passes passed middle)
    (lower : low ≤ 3 * middle.offset) :
    Steps cursor.source low (3 * (back.place.offset + back.vain))
      (cursor.visibleLeft + back.vain - back.place.visibleLeft) (events ++ back.events) := by
  obtain ⟨source, offset, left⟩ := passes
  obtain ⟨count, ⟨-, offset', left'⟩, -⟩ := rest.passes
  rw [source] at h
  exact (first.append h (Nat.le_refl _) lower (by omega)).widen (Nat.le_refl _) (Nat.le_refl _)
    (by omega)

/-- The rule that joins operands is in order before the first of them. -/
theorem chain {tight : Bool} {cursor : Cursor} {high factors : Nat} {events : List Event}
    (h : Steps cursor.source ((Task.operand tight).lowest cursor.offset) high factors events)
    (wide : (Task.operand tight).lowest cursor.offset ≤ high)
    (first : events.head? = some (.entered (.joined tight) cursor.offset)) :
    Steps cursor.source ((Task.chain tight).lowest cursor.offset) high factors
      (.entered (.joining tight) cursor.offset :: events) := by
  have below := Task.lowest_operand tight cursor.offset
  have follows : ∀ next, Event.follower? (.entered (.joining tight) cursor.offset) = some next →
      events.head? = some next := by
    intro next has
    rw [first, ← has]
    cases tight <;> rfl
  have other : Rule.joining tight ≠ .factor := by cases tight <;> decide
  exact (h.enter (by omega) wide follows).widen (Nat.le_refl _) (Nat.le_refl _)
    (by rw [if_neg other]; omega)

/-- The rule of factors is in order before what happens behind its first character, up to
the place that the factor comes back from. -/
theorem factor {task : Task} {cursor next place : Cursor} {c : Char} {back : Back}
    {passed vain : Nat}
    (h : Steps next.source (task.lowest next.offset) (3 * (back.place.offset + back.vain))
      (next.visibleLeft + back.vain - back.place.visibleLeft) back.events)
    (inner : Returns task next back) (taken : cursor.take? startsFactor = (some c, next))
    (passes : back.place.Passes passed place) (more : back.vain ≤ vain) :
    Steps cursor.source (Task.factor.lowest cursor.offset) (3 * (place.offset + vain))
      (cursor.visibleLeft + vain - place.visibleLeft)
      (.entered .factor cursor.offset :: back.events) := by
  have first := Cursor.passes_of_taken taken
  obtain ⟨count, within, -⟩ := inner.passes
  obtain ⟨-, offset, left⟩ := (first.trans within).trans passes
  obtain ⟨-, offset', left'⟩ := passes
  have behind := (h.behind first).widen (Nat.le_refl _)
    (show _ ≤ 3 * (place.offset + vain) by omega) (Nat.le_refl _)
  have entered : Steps cursor.source (Task.factor.lowest cursor.offset) _ _
      (.entered .factor cursor.offset :: back.events) :=
    behind.enter (by simp only [Rule.depth]; omega) (by omega) nofun
  refine entered.widen (Nat.le_refl _) (Nat.le_refl _) ?_
  rw [if_pos rfl]
  omega

end Steps

/-- Negating what comes back makes no factor vain. -/
@[simp] theorem Back.vain_negate (back : Back) : back.negate.vain = back.vain := by
  obtain ⟨result, place, events⟩ := back
  cases result <;> rfl

/-- The events of a part of the descent are in order, from its entry to the place that it
comes back from, and every factor among them that is not in vain has a visible character
of its own. -/
theorem Returns.steps {task : Task} {cursor : Cursor} {back : Back}
    (h : Returns task cursor back) :
    Steps cursor.source (task.lowest cursor.offset) (3 * (back.place.offset + back.vain))
      (cursor.visibleLeft + back.vain - back.place.visibleLeft) back.events := by
  induction h with
  | @chain tight cursor middle left events back operand rest first loop =>
    obtain ⟨count, passes, moves⟩ := operand.passes
    have positive := moves (Task.isRule_operand tight) rfl
    have lowest := Task.lowest_operand_lt tight cursor.offset
    have wide : (Task.operand tight).lowest cursor.offset ≤ 3 * middle.offset := by
      have offset := passes.offset_le
      dsimp only at offset
      omega
    have head : (events ++ back.events).head? =
        some (.entered (.joined tight) cursor.offset) := by
      rw [List.head?_append, operand.head?_operand]
      rfl
    obtain ⟨more, passes', -⟩ := rest.passes
    have offset := passes'.offset_le
    exact (first.loop loop rest passes wide).chain (by omega) head
  | @chainFails tight cursor place fault events operand first =>
    obtain ⟨count, passes, -⟩ := operand.passes
    have lowest := Task.lowest_operand_lt tight cursor.offset
    have offset := passes.offset_le
    simp only [Back.vain_error] at first offset ⊢
    exact first.chain (by omega) operand.head?_operand
  | done => exact .nil ..
  | again taken operand rest first loop =>
    have passes := Cursor.passes_of_taken taken
    obtain ⟨count, passes', -⟩ := operand.passes
    have both := passes.trans passes'
    have lower := both.offset_le
    exact (first.later passes).loop loop rest both (by omega)
  | againFails taken _ operand => exact operand.later (Cursor.passes_of_taken taken)
  | group taken content closed inner =>
    exact inner.factor content taken (Cursor.passes_of_taken closed) (Nat.le_refl _)
  | unclosed taken content none inner =>
    exact inner.factor content taken (Cursor.passes_of_none none) (Nat.zero_le _)
  | groupFails taken content inner =>
    exact inner.factor content taken (Cursor.Passes.refl _) (Nat.le_refl _)
  | @sign _ _ back taken operand inner =>
    have steps := inner.factor operand taken (Cursor.Passes.refl _) (Nat.le_refl _)
    rw [← back.vain_negate] at steps
    exact steps
  | literal taken digits loop =>
    exact loop.factor digits taken (Cursor.Passes.refl _) (Nat.le_refl _)
  | @missing cursor place none =>
    obtain ⟨-, offset, left⟩ := Cursor.passes_of_none none
    have nothing : Steps cursor.source (3 * (cursor.offset + 1)) (3 * (place.offset + 1)) 0 [] :=
      .nil ..
    have entered : Steps cursor.source (Task.factor.lowest cursor.offset) _ _
        [.entered .factor cursor.offset] :=
      nothing.enter (by simp only [Rule.depth]; omega) (by omega) nofun
    exact entered.widen (Nat.le_refl _) (Nat.le_refl _) (by
      show 1 ≤ cursor.visibleLeft + 1 - place.visibleLeft
      omega)
  | digit taken _ loop => exact loop.later (Cursor.passes_of_taken taken)
  | point _ none taken _ loop =>
    exact loop.later ((Cursor.passes_of_none none).trans (Cursor.passes_of_taken taken))
  | integer => exact .number ..
  | decimal => exact .number ..

/-- A nested list shows behind every event what has to follow it. -/
theorem Event.Nested.follows {before after : List Event} {event next : Event}
    (h : Nested (before ++ event :: after)) (has : event.follower? = some next) :
    after.head? = some next := by
  induction before with
  | nil => exact h.1 next has
  | cons _ before ih => exact ih h.2

/-- A record says that a rule is entered at a place. -/
def Record.Enters (record : Record) (rule : Rule) (offset : Nat) : Prop :=
  record = ⟨.trace, "arith::parse", rule.name, [("offset", .count offset)]⟩

/-- An event that enters a rule enters it at a place. -/
theorem Event.eq_entered_of_enters {event : Event} {rule : Rule}
    (enters : event.enters rule = true) : ∃ offset, event = .entered rule offset := by
  cases event with
  | entered rule' offset =>
    obtain rfl : rule' = rule := by simpa [Event.enters] using enters
    exact ⟨offset, rfl⟩
  | _ => contradiction

/-- Only the record of an entry says that a rule is entered, and it says where. -/
theorem Event.record_enters_iff {event : Event} {rule : Rule} {offset : Nat} :
    event.record.Enters rule offset ↔ event = .entered rule offset := by
  constructor
  · intro same
    have named : event.enters rule = true := by
      rw [← record_says_rule, same]
      exact beq_self_eq_true _
    obtain ⟨offset', rfl⟩ := eq_entered_of_enters named
    have fields := congrArg Record.fields same
    obtain rfl : offset' = offset := by simpa [record] using fields
    rfl
  · rintro rfl
    rfl

/-- The log of a reading in order: from the text at hand, through the rules, to the
outcome. -/
structure Source.LogInOrder (source : Source) (log : List Record) : Prop where
  /-- The first record shows the whole text and the last one the outcome, which are of
  general interest, and those between them are not. -/
  framed : ∃ steps last,
    log = ⟨.debug, "arith::parse", "parsing expression", [("input", .text source.text)]⟩ ::
      steps ++ [last] ∧
    (∀ record ∈ steps, record.level = .trace) ∧
    (∀ tree, source.parse = .ok tree →
      last = ⟨.debug, "arith::parse", "parsed expression", [("tree", .tree tree)]⟩) ∧
    (∀ error, source.parse = .error error →
      last = ⟨.debug, "arith::parse", "parse failed: " ++ error.fault.message,
        [("offset", .count error.offset)]⟩)
  /-- A record that names a rule shows a place between two characters of the text. -/
  located : ∀ record ∈ log, ∀ rule : Rule, record.message = rule.name →
    ∃ offset, record.Enters rule offset ∧ offset ≤ source.size ∧
      (String.Pos.Raw.mk offset).IsValid source.text
  /-- The places never go back, and those of one rule go on. -/
  ascending : log.Pairwise fun a b => ∀ rule rule' offset offset',
    a.Enters rule offset → b.Enters rule' offset' →
      offset ≤ offset' ∧ (rule = rule' → offset < offset')
  /-- An expression starts with a term at the same place. -/
  term_follows : ∀ before record after offset, log = before ++ record :: after →
    record.Enters .expression offset → ∃ next, after.head? = some next ∧ next.Enters .term offset
  /-- A term starts with a factor at the same place. -/
  factor_follows : ∀ before record after offset, log = before ++ record :: after →
    record.Enters .term offset → ∃ next, after.head? = some next ∧ next.Enters .factor offset
  /-- There is at most one factor more than there are visible characters. -/
  factors_le : (Record.saying "factor" log).length ≤ (visible source.text.toList).length + 1

/-- What follows in a trail follows in its log. -/
theorem Event.Nested.record_follows {events : List Event} (nested : Nested events)
    {before after : List Record} {record : Record} {rule rule' : Rule} {offset : Nat}
    (split : events.map Event.record = before ++ record :: after)
    (enters : record.Enters rule offset)
    (has : Event.follower? (.entered rule offset) = some (.entered rule' offset)) :
    ∃ next, after.head? = some next ∧ next.Enters rule' offset := by
  obtain ⟨front, back, rfl, -, split'⟩ := List.map_eq_append_iff.mp split
  obtain ⟨event, rest, rfl, rfl, rfl⟩ := List.map_eq_cons_iff.mp split'
  obtain rfl := record_enters_iff.mp enters
  have follows := nested.follows has
  exact ⟨_, by rw [List.head?_map, follows]; rfl, rfl⟩

/-- A reading ends with an expression or with an error. -/
theorem Source.ending_cases (source : Source) :
    (∃ tree, source.parse = .ok tree ∧ source.ending = .parsed tree) ∨
      ∃ error, source.parse = .error error ∧ source.ending = .failed error := by
  unfold ending
  cases source.parse with
  | ok tree => exact .inl ⟨tree, rfl, rfl⟩
  | error error => exact .inr ⟨error, rfl, rfl⟩

/-- The last event of a reading enters no rule. -/
theorem Source.rank?_ending (source : Source) : source.ending.rank? = none := by
  obtain ⟨_, -, same⟩ | ⟨_, -, same⟩ := source.ending_cases <;> rw [same] <;> rfl

/-- No entry of a rule is the last event of a reading. -/
theorem Source.entered_ne_ending (source : Source) (rule : Rule) (offset : Nat) :
    Event.entered rule offset ≠ source.ending := by
  obtain ⟨_, -, same⟩ | ⟨_, -, same⟩ := source.ending_cases <;> rw [same] <;> nofun

/-- Nothing follows the last event of a reading. -/
theorem Source.follower?_ending (source : Source) : source.ending.follower? = none := by
  obtain ⟨_, -, same⟩ | ⟨_, -, same⟩ := source.ending_cases <;> rw [same] <;> rfl

/-- A place in a source lies between two characters of its text. -/
theorem Cursor.isValid_offset (cursor : Cursor) :
    cursor.offset ≤ cursor.source.size ∧
      (String.Pos.Raw.mk cursor.offset).IsValid cursor.source.text := by
  obtain ⟨before, split, offset⟩ := cursor.placed
  refine ⟨?_, offset ▸ isValid_byteLength split⟩
  rw [Source.size, ← byteLength_toList, split, byteLength_append, ← offset]
  exact Nat.le_add_right ..

/-- The ranks of entries order their places, strictly for one rule. -/
theorem offset_of_rank_lt {rule rule' : Rule} {offset offset' : Nat}
    (h : 3 * offset + rule.depth < 3 * offset' + rule'.depth) :
    offset ≤ offset' ∧ (rule = rule' → offset < offset') := by
  have depth : rule'.depth ≤ 2 := by cases rule' <;> decide
  refine ⟨by omega, ?_⟩
  rintro rfl
  omega

/-- Between its first and its last event a reading has those of its descent, which are in
order, with at most one factor more than there are visible characters. -/
theorem Source.exists_steps (source : Source) :
    ∃ low high events, Steps source low high ((visible source.text.toList).length + 1) events ∧
      source.trail = .started source.text :: events ++ [source.ending] := by
  obtain ⟨back, descent⟩ := exists_returns (.chain false) (.ofSource source)
  have vain : back.vain ≤ 1 := by
    unfold Back.vain
    split <;> decide
  have left : (Cursor.ofSource source).visibleLeft = (visible source.text.toList).length := rfl
  have order := descent.steps.widen (Nat.le_refl _) (Nat.le_refl _)
    (show _ ≤ (visible source.text.toList).length + 1 by omega)
  exact ⟨_, _, back.events, order, (parse_of_returns descent).2⟩

section

variable {source : Source} {low high factors : Nat} {events : List Event}
  (order : Steps source low high factors events)
  (trail : source.trail = .started source.text :: events ++ [source.ending])

include order trail

/-- What has to follow an event of a reading follows at once. -/
theorem Steps.nested_trail : Event.Nested source.trail := by
  have last : Event.Nested [source.ending] := by
    refine ⟨fun next has => ?_, trivial⟩
    rw [source.follower?_ending] at has
    contradiction
  rw [trail]
  exact ⟨nofun, order.nested.append last⟩

/-- The ranks of the entries in a reading grow. -/
theorem Steps.ascending_trail : source.trail.Pairwise fun a b =>
    ∀ m n, a.rank? = some m → b.rank? = some n → m < n := by
  rw [trail]
  refine List.pairwise_cons.mpr ⟨nofun, ?_⟩
  refine List.pairwise_append.mpr ⟨order.ascending, List.pairwise_singleton .., ?_⟩
  intro event _ last member m n _ has
  rw [List.mem_singleton.mp member, source.rank?_ending] at has
  contradiction

/-- A rule that a reading enters is entered at a place of the source. -/
theorem Steps.isStep_of_entered {rule : Rule} {offset : Nat}
    (member : .entered rule offset ∈ source.trail) : (Event.entered rule offset).IsStep source := by
  apply order.steps
  rw [trail] at member
  simpa [source.entered_ne_ending] using member

/-- The factors of a reading are as many as allowed. -/
theorem Steps.factors_trail_le : source.trail.countP (Event.enters .factor) ≤ factors := by
  have last : [source.ending].countP (Event.enters .factor) = 0 := by
    refine List.countP_eq_zero.mpr fun event member enters => ?_
    obtain ⟨offset, same⟩ := Event.eq_entered_of_enters enters
    exact source.entered_ne_ending _ _ (same.symm.trans (List.mem_singleton.mp member))
  rw [trail, List.cons_append, List.countP_cons, List.countP_append, last]
  exact order.factors_le

end

/-- The log of every reading is in order. -/
theorem Source.logInOrder (source : Source) :
    source.LogInOrder (Record.upTo Level.trace.detail (source.trail.map Event.record)) := by
  obtain ⟨low, high, events, order, trail⟩ := source.exists_steps
  have nested := order.nested_trail trail
  rw [Record.upTo_trace]
  refine ⟨?framed, ?located, ?ascending, ?term, ?factor, ?count⟩
  case framed =>
    refine ⟨events.map Event.record, source.ending.record, ?_, ?_, ?_, ?_⟩
    · rw [trail]
      simp [Event.record, Event.target]
    · intro record member
      obtain ⟨event, inside, rfl⟩ := List.mem_map.mp member
      exact (order.steps event inside).level_record
    · intro tree parsed
      simp only [ending, parsed]
      rfl
    · intro error failed
      simp only [ending, failed]
      rfl
  case located =>
    intro record member rule named
    obtain ⟨event, inside, rfl⟩ := List.mem_map.mp member
    have enters : event.enters rule = true := by
      rw [← Event.record_says_rule, named]
      exact beq_self_eq_true _
    obtain ⟨offset, rfl⟩ := Event.eq_entered_of_enters enters
    obtain ⟨cursor, rfl, rfl⟩ := order.isStep_of_entered trail inside
    exact ⟨cursor.offset, rfl, cursor.isValid_offset⟩
  case ascending =>
    refine List.pairwise_map.mpr ((order.ascending_trail trail).imp ?_)
    intro a b less rule rule' offset offset' enters enters'
    obtain rfl := Event.record_enters_iff.mp enters
    obtain rfl := Event.record_enters_iff.mp enters'
    exact offset_of_rank_lt (less _ _ rfl rfl)
  case term => exact fun _ _ _ _ split enters => nested.record_follows split enters rfl
  case factor => exact fun _ _ _ _ split enters => nested.record_follows split enters rfl
  case count =>
    rw [show "factor" = Rule.factor.name from rfl, Event.length_records_saying_rule]
    exact order.factors_trail_le trail

/-- The reading of every text is a descent through the rules that ends. Every part of a
descent comes back, with one thing only; a rule that reads an expression comes back from a
later place than it was entered at; and where one part leads to another over a parenthesis
or a sign, or one round of a loop to the next, the other starts later. What the descent
through the whole text comes back with is what the text is parsed to, and its events are
those of the log, which is in order. -/
theorem Source.reading_progresses (source : Source) :
    (∀ task cursor, ∃ back, Returns task cursor back ∧
      ∀ other, Returns task cursor other → other = back) ∧
    (∀ rule cursor back, Returns (.ofRule rule) cursor back → back.result.isOk = true →
      cursor.offset < back.place.offset) ∧
    (∀ task cursor next place, LeadsTo task cursor next place → cursor.offset < place.offset) ∧
    (∃ back, Returns (.ofRule .expression) (.ofSource source) back ∧
      source.parse = back.whole.mapError (⟨source, ·⟩) ∧
      source.trail = .started source.text :: back.events ++ [source.ending]) ∧
    source.LogInOrder (Record.upTo Level.trace.detail (source.trail.map Event.record)) := by
  refine ⟨?returns, ?rules, ?rounds, ?whole, source.logInOrder⟩
  case returns =>
    intro task cursor
    obtain ⟨back, descent⟩ := exists_returns task cursor
    exact ⟨back, descent, fun _ other => other.unique descent⟩
  case rules => exact fun _ _ _ descent => descent.offset_lt
  case rounds => exact fun _ _ _ _ leads => leads.offset_lt
  case whole =>
    obtain ⟨back, descent⟩ := exists_returns (.chain false) (.ofSource source)
    exact ⟨back, descent, parse_of_returns descent⟩

end Calculator
