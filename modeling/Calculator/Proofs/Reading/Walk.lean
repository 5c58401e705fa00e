import Calculator.Reading
import Mathlib.Data.List.Forall2

/-!
# Walks over a text

The reading of a text is a walk: every visible character, with the place behind
it, takes one state to the next. `Advance` lists what a single character can do,
and `WalksUpTo` says where the walk over a whole text ends: behind the longest
part of the text that it can go over. What a text amounts to is then a function
of the state that is reached there and of the character that stands next.
-/

namespace Calculator

/-- The visible characters of a text, each with the place behind it, if the text
starts at the given place. -/
def placed (offset : Nat) : List Char → List (Char × Nat)
  | [] => []
  | c :: cs =>
    if c = ' ' then placed (offset + c.utf8Size) cs
    else (c, offset + c.utf8Size) :: placed (offset + c.utf8Size) cs

/-- Placing leaves out the blanks and nothing else. -/
@[simp] theorem map_fst_placed (offset : Nat) (cs : List Char) :
    (placed offset cs).map Prod.fst = visible cs := by
  induction cs generalizing offset with
  | nil => rfl
  | cons c cs ih =>
    by_cases blank : c = ' '
    · simp [placed, blank, ih, visible]
    · simp [placed, blank, ih, visible]

/-- The places of a second text begin where the first one ends. -/
theorem placed_append (offset : Nat) (a b : List Char) :
    placed offset (a ++ b) = placed offset a ++ placed (offset + byteLength a) b := by
  induction a generalizing offset with
  | nil => rfl
  | cons c a ih =>
    by_cases blank : c = ' '
    · simp [placed, blank, ih, Nat.add_assoc]
    · simp [placed, blank, ih, Nat.add_assoc]

/-- One character takes a state to the next. There is one case for everything
that a character can do, and no other. -/
inductive State.Advance (behind : Nat) : State → Char → State → Prop where
  /-- A digit starts a literal. -/
  | firstDigit {groups : List OpenGroup} {context : Context} (d : Digit) :
    Advance behind ⟨groups, context, .awaiting⟩ d.toChar ⟨groups, context, .literal (.ofDigit d)⟩
  /-- A digit extends a literal. -/
  | digit {groups : List OpenGroup} {context : Context} (l : Literal) (d : Digit) :
    Advance behind ⟨groups, context, .literal l⟩ d.toChar ⟨groups, context, .literal (l.push d)⟩
  /-- The first point of a literal. -/
  | point {groups : List OpenGroup} {context : Context} {l : Literal}
    (first : l.hasPoint = false) :
    Advance behind ⟨groups, context, .literal l⟩ '.' ⟨groups, context, .literal l.withPoint⟩
  /-- A minus sign before an operand. -/
  | sign {groups : List OpenGroup} {context : Context} :
    Advance behind ⟨groups, context, .awaiting⟩ '-' ⟨groups, context.negate, .awaiting⟩
  /-- The parenthesis that opens a group. -/
  | opening {groups : List OpenGroup} {context : Context} :
    Advance behind ⟨groups, context, .awaiting⟩ '('
      ⟨⟨behind - 1, context⟩ :: groups, .empty, .awaiting⟩
  /-- The parenthesis that closes the innermost group. -/
  | closing {group : OpenGroup} {groups : List OpenGroup} {context : Context} {phase : Phase}
    {operand : Expr} (read : phase.operand? = some operand) :
    Advance behind ⟨group :: groups, context, phase⟩ ')'
      ⟨groups, group.context, .complete (context.expression operand)⟩
  /-- An operator behind an operand. -/
  | operator {groups : List OpenGroup} {context : Context} {phase : Phase} {operand : Expr}
    (op : Operator) (read : phase.operand? = some operand) :
    Advance behind ⟨groups, context, phase⟩ op.symbol
      ⟨groups, context.extend operand op, .awaiting⟩

/-- The state behind a character that ends at the given place, if the character
can stand there. -/
def State.advance? (state : State) (c : Char) (behind : Nat) : Option State :=
  (state.step? c).map fun step => state.after step behind

/-- Operators are neither digits nor parentheses, points or blanks. -/
theorem Operator.symbol_ne (op : Operator) :
    Digit.ofChar? op.symbol = none ∧ op.symbol ≠ '(' ∧ op.symbol ≠ ')' ∧ op.symbol ≠ '.' ∧
      op.symbol ≠ ' ' := by
  cases op <;> decide

/-- The symbol of an operator settles it. -/
theorem Operator.symbol_injective {op op' : Operator} (same : op.symbol = op'.symbol) :
    op = op' := by
  have read := ofSymbol?_symbol op
  rw [same, ofSymbol?_symbol] at read
  exact (Option.some.inj read).symm

/-- Behind an operand stands the end of its group or an operator. -/
theorem State.Advance.of_followingStep? {groups : List OpenGroup} {context : Context}
    {phase : Phase} {operand : Expr} (read : phase.operand? = some operand) {c : Char}
    {step : Step} (stands : followingStep? ⟨groups, context, phase⟩ c = some step)
    (behind : Nat) :
    Advance behind ⟨groups, context, phase⟩ c (after ⟨groups, context, phase⟩ step behind) := by
  unfold followingStep? at stands
  split at stands
  · rename_i closing
    subst closing
    cases groups with
    | nil => simp at stands
    | cons group groups =>
      obtain rfl : Step.closing = step := by simpa using stands
      simp only [after, read]
      exact .closing read
  · obtain ⟨op, symbol, rfl⟩ := Option.map_eq_some_iff.mp stands
    obtain rfl := Operator.ofSymbol?_eq_some symbol
    simp only [after, read]
    exact .operator op read

/-- Whatever a state allows is a case of `Advance`. -/
theorem State.Advance.of_step? {state : State} {c : Char} {step : Step}
    (stands : state.step? c = some step) (behind : Nat) :
    Advance behind state c (state.after step behind) := by
  obtain ⟨groups, context, phase⟩ := state
  cases phase with
  | awaiting =>
    simp only [step?, operandStep?] at stands
    split at stands
    · rename_i opening
      obtain rfl := Option.some.inj stands
      subst opening
      exact .opening
    · split at stands
      · rename_i sign
        obtain rfl := Option.some.inj stands
        subst sign
        exact .sign
      · obtain ⟨d, digit, rfl⟩ := Option.map_eq_some_iff.mp stands
        obtain rfl := Digit.toChar_of_ofChar? digit
        exact .firstDigit d
  | literal l =>
    simp only [step?, literalStep?] at stands
    split at stands
    · rename_i d digit
      obtain rfl := Option.some.inj stands
      obtain rfl := Digit.toChar_of_ofChar? digit
      exact .digit l d
    · split at stands
      · rename_i point
        obtain ⟨rfl, first⟩ := point
        obtain rfl := Option.some.inj stands
        exact .point (by simpa using first)
      · exact of_followingStep? rfl stands behind
  | complete operand => exact of_followingStep? rfl stands behind

/-- The end of a group can stand behind an operand in it. -/
theorem State.step?_closing {group : OpenGroup} {groups : List OpenGroup} {context : Context}
    {phase : Phase} {operand : Expr} (read : phase.operand? = some operand) :
    step? ⟨group :: groups, context, phase⟩ ')' = some .closing := by
  cases phase with
  | awaiting => simp [Phase.operand?] at read
  | literal l => simp [step?, literalStep?, followingStep?, Digit.ofChar?]
  | complete e => simp [step?, followingStep?]

/-- An operator can stand behind an operand. -/
theorem State.step?_symbol {groups : List OpenGroup} {context : Context} {phase : Phase}
    {operand : Expr} (read : phase.operand? = some operand) (op : Operator) :
    step? ⟨groups, context, phase⟩ op.symbol = some (.operator op) := by
  obtain ⟨digit, -, closing, point, -⟩ := op.symbol_ne
  cases phase with
  | awaiting => simp [Phase.operand?] at read
  | literal l => simp [step?, literalStep?, followingStep?, digit, closing, point]
  | complete e => simp [step?, followingStep?, closing]

/-- What a single character does is one of the cases of `Advance`. -/
theorem State.advance?_eq_some {state next : State} {c : Char} {behind : Nat} :
    state.advance? c behind = some next ↔ Advance behind state c next := by
  unfold advance?
  constructor
  · intro h
    obtain ⟨step, stands, rfl⟩ := Option.map_eq_some_iff.mp h
    exact .of_step? stands behind
  · intro h
    cases h with
    | firstDigit d =>
      obtain ⟨opening, -, sign, -, -⟩ := d.toChar_ne
      simp [step?, operandStep?, opening, sign, after, Phase.withDigit]
    | digit l d => simp [step?, literalStep?, after, Phase.withDigit]
    | point first => simp [step?, literalStep?, Digit.ofChar?, first, after, Phase.withPoint]
    | sign => simp [step?, operandStep?, after]
    | opening => simp [step?, operandStep?, after]
    | closing read => simp [step?_closing read, after, read]
    | operator op read => simp [step?_symbol read, after, read]

/-- The state behind placed characters, if every one of them can stand where it
is. -/
def State.walk? : State → List (Char × Nat) → Option State
  | state, [] => some state
  | state, (c, behind) :: rest => (state.advance? c behind).bind fun next => next.walk? rest

/-- Two walks in a row are one. -/
theorem State.walk?_append (state : State) (a b : List (Char × Nat)) :
    state.walk? (a ++ b) = (state.walk? a).bind fun next => next.walk? b := by
  induction a generalizing state with
  | nil => rfl
  | cons place a ih => simp [walk?, ih, Option.bind_assoc]

/-- Two walks run side by side if single characters do: from related states, over places
that correspond, they lead to related states. -/
theorem State.walk?_of_forall₂ {R : State → State → Prop} {P : Char × Nat → Char × Nat → Prop}
    (step : ∀ {s t next : State} {x y : Char × Nat}, R s t → P x y → Advance x.2 s x.1 next →
      ∃ next', Advance y.2 t y.1 next' ∧ R next next')
    {s t next : State} {xs ys : List (Char × Nat)} (related : R s t)
    (places : List.Forall₂ P xs ys) (walked : s.walk? xs = some next) :
    ∃ next', t.walk? ys = some next' ∧ R next next' := by
  induction places generalizing s t with
  | nil =>
    obtain rfl := Option.some.inj walked
    exact ⟨t, rfl, related⟩
  | cons place _ ih =>
    obtain ⟨middle, first, walked⟩ := Option.bind_eq_some_iff.mp walked
    obtain ⟨middle', advance, related⟩ := step related place (advance?_eq_some.mp first)
    obtain ⟨next', walked, related⟩ := ih related walked
    refine ⟨next', ?_, related⟩
    rw [walk?, advance?_eq_some.mpr advance]
    exact walked

/-- A walk over a text passes over a first blank, and goes over any other first
character as one that can stand there. -/
theorem State.walk?_placed_cons {start state : State} {offset : Nat} {c : Char} {cs : List Char}
    (walked : start.walk? (placed offset (c :: cs)) = some state) :
    c = ' ' ∧ start.walk? (placed (offset + c.utf8Size) cs) = some state ∨
      ∃ step, start.step? c = some step ∧
        (start.after step (offset + c.utf8Size)).walk? (placed (offset + c.utf8Size) cs) =
          some state := by
  by_cases blank : c = ' '
  · exact .inl ⟨blank, by simpa [placed, blank] using walked⟩
  · simp only [placed, blank, if_false, walk?] at walked
    obtain ⟨next, first, rest⟩ := Option.bind_eq_some_iff.mp walked
    obtain ⟨step, stands, rfl⟩ := Option.map_eq_some_iff.mp first
    exact .inr ⟨step, stands, rest⟩

/-- Wherever characters stand, the walk over them leads from one state to
another. -/
def State.Reaches (state : State) (cs : List Char) (next : State) : Prop :=
  ∀ places : List (Char × Nat), places.map Prod.fst = cs → state.walk? places = some next

/-- No characters lead nowhere else. -/
theorem State.Reaches.refl (state : State) : state.Reaches [] state := by
  intro places none
  obtain rfl := List.map_eq_nil_iff.mp none
  rfl

/-- Two walks in a row lead to where the second one does. -/
theorem State.Reaches.append {state middle next : State} {a b : List Char}
    (first : state.Reaches a middle) (second : middle.Reaches b next) :
    state.Reaches (a ++ b) next := by
  intro places text
  obtain ⟨before, after, rfl, ha, hb⟩ := List.map_eq_append_iff.mp text
  rw [walk?_append, first before ha]
  exact second after hb

/-- A character that does the same wherever it stands leads to what it does. -/
theorem State.Reaches.of_advance {state next : State} {c : Char}
    (advance : ∀ behind, Advance behind state c next) : state.Reaches [c] next := by
  intro places text
  obtain ⟨place, rfl, rfl⟩ := List.map_eq_singleton_iff.mp text
  simp [walk?, advance?_eq_some.mpr (advance place.2)]

/-- A walk with a first character goes over that first. -/
theorem State.Reaches.cons {state middle next : State} {c : Char} {cs : List Char}
    (first : ∀ behind, Advance behind state c middle) (rest : middle.Reaches cs next) :
    state.Reaches (c :: cs) next :=
  (of_advance first).append rest

/-- Whether a walk stops in a state before the given characters: nothing is left,
or a visible character that cannot stand there. -/
def State.StopsAt (state : State) (left : List Char) : Prop :=
  ∀ c, left.head? = some c → c ≠ ' ' ∧ state.step? c = none

/-- A walk stops at the end of a text. -/
@[simp] theorem State.stopsAt_nil (state : State) : state.StopsAt [] := by
  intro c next
  simp at next

/-- A text is read up to a place: the walk goes over everything before it, and
over nothing behind it. -/
structure State.WalksUpTo (start : State) (offset : Nat) (read left : List Char)
    (state : State) : Prop where
  /-- What is read takes the walk to the state. -/
  walked : start.walk? (placed offset read) = some state
  /-- The walk stops there. -/
  stops : state.StopsAt left

/-- Every walk over a text ends somewhere in it. -/
theorem State.exists_walksUpTo (start : State) (offset : Nat) (text : List Char) :
    ∃ read left state, text = read ++ left ∧ start.WalksUpTo offset read left state := by
  induction text generalizing start offset with
  | nil => exact ⟨[], [], start, rfl, rfl, start.stopsAt_nil⟩
  | cons c text ih =>
    by_cases blank : c = ' '
    · obtain ⟨read, left, state, rfl, walk⟩ := ih start (offset + c.utf8Size)
      exact ⟨c :: read, left, state, rfl, by simpa [placed, blank] using walk.walked, walk.stops⟩
    · cases stands : start.step? c with
      | none =>
        refine ⟨[], c :: text, start, rfl, rfl, ?_⟩
        intro d first
        obtain rfl : c = d := by simpa using first
        exact ⟨blank, stands⟩
      | some step =>
        let next := start.after step (offset + c.utf8Size)
        obtain ⟨read, left, state, rfl, walk⟩ := ih next (offset + c.utf8Size)
        have first : start.advance? c (offset + c.utf8Size) = some next := by
          simp [advance?, stands, next]
        refine ⟨c :: read, left, state, rfl, ?_, walk.stops⟩
        simp [placed, blank, walk?, first, walk.walked]

/-- Where no blank follows there is none to pass over. -/
theorem Cursor.skipBlanks_eq_self (cursor : Cursor) (visible : cursor.rest.head? ≠ some ' ') :
    cursor.skipBlanks = cursor := by
  apply ext_rest
  · rfl
  · show List.dropWhile (· == ' ') cursor.rest = cursor.rest
    cases rest : cursor.rest with
    | nil => rfl
    | cons c cs =>
      have hc : c ≠ ' ' := by simpa [rest] using visible
      simp [hc]

/-- Passing over a blank first makes no difference. -/
theorem Cursor.skipBlanks_advance {cursor : Cursor} {rest : List Char}
    (blank : cursor.rest = ' ' :: rest) :
    (cursor.advance ' ' rest blank).skipBlanks = cursor.skipBlanks := by
  apply ext_rest
  · rfl
  · show List.dropWhile (· == ' ') rest = List.dropWhile (· == ' ') cursor.rest
    simp [blank]

/-- A run from a place with blanks behind it is one from behind the blanks. -/
theorem State.run_skipBlanks (state : State) (cursor : Cursor) :
    state.run cursor.skipBlanks = state.run cursor := by
  have same := cursor.skipBlanks_skipBlanks
  cases rest : cursor.skipBlanks.rest with
  | nil =>
    have ended : ∀ c, cursor.skipBlanks.current = some c → state.step? c = none := by
      simp [Cursor.current, rest]
    rw [run_of_refuses ended, run_of_refuses (by rwa [same]), same]
  | cons c cs =>
    cases stands : state.step? c with
    | none =>
      have refused : ∀ d, cursor.skipBlanks.current = some d → state.step? d = none := by
        intro d current
        obtain rfl : c = d := by simpa [Cursor.current, rest] using current
        exact stands
      rw [run_of_refuses refused, run_of_refuses (by rwa [same]), same]
    | some step =>
      have rest' : cursor.skipBlanks.skipBlanks.rest = c :: cs := by rw [same, rest]
      have place : cursor.skipBlanks.skipBlanks.advance c cs rest' =
          cursor.skipBlanks.advance c cs rest := by
        apply Cursor.ext_rest
        · rfl
        · rfl
      rw [run_of_step rest stands, run_of_step rest' stands, place]

/-- A run goes on behind a blank. -/
theorem State.run_of_blank (state : State) {cursor : Cursor} {rest : List Char}
    (text : cursor.rest = ' ' :: rest) :
    state.run cursor = state.run (cursor.advance ' ' rest text) := by
  rw [← state.run_skipBlanks (cursor.advance ' ' rest text), Cursor.skipBlanks_advance,
    run_skipBlanks]

/-- A run reads a character that can stand next, and goes on behind it. -/
theorem State.run_of_stands {state : State} {cursor : Cursor} {c : Char} {rest : List Char}
    {step : Step} (text : cursor.rest = c :: rest) (stands : state.step? c = some step) :
    state.run cursor =
      let next := cursor.advance c rest text
      let run := (state.after step next.offset).run next
      { run with events := state.events step next.offset ++ run.events } := by
  have here := cursor.skipBlanks_eq_self (by simp [text, ne_blank_of_step? stands])
  have text' : cursor.skipBlanks.rest = c :: rest := by rw [here, text]
  have place : cursor.skipBlanks.advance c rest text' = cursor.advance c rest text := by
    simp only [here]
  rw [run_of_step text' stands, place]

/-- A run ends where the walk stops. -/
theorem State.run_of_stopsAt {state : State} {cursor : Cursor}
    (stops : state.StopsAt cursor.rest) : state.run cursor = ⟨[], state, cursor⟩ := by
  have visible : cursor.rest.head? ≠ some ' ' := fun blank => (stops ' ' blank).1 rfl
  have here := cursor.skipBlanks_eq_self visible
  have refused : ∀ c, cursor.skipBlanks.current = some c → state.step? c = none := by
    rw [here]
    exact fun c current => (stops c current).2
  rw [run_of_refuses refused, here]

/-- A run goes as far as a walk, to the same state. -/
theorem State.run_of_walksUpTo {start state : State} (cursor : Cursor) {read left : List Char}
    (text : cursor.rest = read ++ left) (walk : start.WalksUpTo cursor.offset read left state) :
    (start.run cursor).state = state ∧ (start.run cursor).cursor.rest = left ∧
      (start.run cursor).cursor.offset = cursor.offset + byteLength read := by
  induction read generalizing start cursor with
  | nil =>
    obtain rfl : start = state := by simpa [placed, walk?] using walk.walked
    rw [run_of_stopsAt (by rw [text]; exact walk.stops)]
    exact ⟨rfl, text, rfl⟩
  | cons c read ih =>
    rw [byteLength_cons, ← Nat.add_assoc]
    rcases walk?_placed_cons walk.walked with ⟨rfl, walked⟩ | ⟨step, stands, walked⟩
    · rw [run_of_blank start text]
      exact ih _ rfl ⟨walked, walk.stops⟩
    · rw [run_of_stands text stands]
      exact ih (cursor.advance c _ text) rfl ⟨walked, walk.stops⟩

/-- What a text amounts to if its walk stops in a state, at a place, before a
character or the end. -/
def State.verdict (state : State) (offset : Nat) (next : Option Char) : Except Fault Expr :=
  match state.phase.operand?, state.groups, next with
  | none, _, some c => .error (.unexpectedCharacter c offset)
  | none, _, none => .error .unexpectedEnd
  | some _, group :: _, _ => .error (.unclosedGroup group.opening)
  | some _, [], some c => .error (.unexpectedCharacter c offset)
  | some operand, [], none => .ok (state.context.expression operand)

/-- A text is an expression if the walk over it ends with a complete operand
outside all groups. -/
theorem State.verdict_eq_ok {state : State} {offset : Nat} {next : Option Char} {tree : Expr} :
    state.verdict offset next = .ok tree ↔
      ∃ operand, state.phase.operand? = some operand ∧ state.groups = [] ∧ next = none ∧
        state.context.expression operand = tree := by
  unfold verdict
  constructor
  · intro h
    split at h
    case h_5 operand read closed => exact ⟨operand, read, closed, rfl, Except.ok.inj h⟩
    all_goals contradiction
  · rintro ⟨operand, read, closed, rfl, rfl⟩
    rw [read, closed]

/-- The outcome of a run depends on its state, its place and the character
there. -/
theorem Run.outcome_eq (run : Run) :
    run.outcome = run.state.verdict run.cursor.offset run.cursor.rest.head? := by
  unfold outcome State.verdict Cursor.fault Cursor.hasRemaining Cursor.current
  cases run.state.phase.operand? <;> cases run.state.groups <;> cases run.cursor.rest <;> rfl

/-- A text is what the walk over it amounts to. -/
theorem Source.parse_of_walksUpTo {source : Source} {read left : List Char} {state : State}
    (text : source.text.toList = read ++ left)
    (walk : State.start.WalksUpTo 0 read left state) :
    source.parse = (state.verdict (byteLength read) left.head?).mapError (⟨source, ·⟩) := by
  obtain ⟨reached, rest, offset⟩ := State.run_of_walksUpTo (.ofSource source) text walk
  unfold parse run
  rw [Run.outcome_eq, reached, rest, offset, Cursor.offset_ofSource, Nat.zero_add]
  cases state.verdict (byteLength read) left.head? <;> rfl

/-- A text is the tree that its walk amounts to. -/
theorem Source.parse_eq_ok {source : Source} {read left : List Char} {state : State}
    (text : source.text.toList = read ++ left) (walk : State.start.WalksUpTo 0 read left state)
    (tree : Expr) :
    source.parse = .ok tree ↔ state.verdict (byteLength read) left.head? = .ok tree := by
  rw [parse_of_walksUpTo text walk]
  cases state.verdict (byteLength read) left.head? with
  | ok read =>
    show Except.ok read = .ok tree ↔ _
    rw [Except.ok.injEq, Except.ok.injEq]
  | error fault =>
    show Except.error _ = .ok tree ↔ _
    simp

/-- A text has the fault that its walk amounts to. -/
theorem Source.parse_eq_error {source : Source} {read left : List Char} {state : State}
    (text : source.text.toList = read ++ left) (walk : State.start.WalksUpTo 0 read left state)
    (error : SyntaxError) :
    source.parse = .error error ↔
      error.source = source ∧ state.verdict (byteLength read) left.head? = .error error.fault := by
  obtain ⟨origin, fault⟩ := error
  rw [parse_of_walksUpTo text walk]
  cases state.verdict (byteLength read) left.head? with
  | ok tree =>
    show Except.ok tree = .error _ ↔ _
    simp
  | error cause =>
    show Except.error (SyntaxError.mk source cause) = .error ⟨origin, fault⟩ ↔ _
    simp [eq_comm]

/-- A text is an expression exactly if a walk goes over the whole of it, to a
complete operand outside all groups. -/
theorem parse_eq_ok_iff_walk (text : String) (tree : Expr) :
    parse text = .ok tree ↔
      ∃ context phase operand, phase.operand? = some operand ∧
        context.expression operand = tree ∧
        State.start.walk? (placed 0 text.toList) = some ⟨[], context, phase⟩ := by
  constructor
  · intro h
    obtain ⟨read, left, ⟨groups, context, phase⟩, split, walk⟩ :=
      State.start.exists_walksUpTo 0 text.toList
    obtain ⟨operand, complete, closed, ended, tree_eq⟩ :=
      State.verdict_eq_ok.mp ((Source.parse_eq_ok split walk tree).mp h)
    obtain rfl := List.head?_eq_none_iff.mp ended
    obtain rfl : groups = [] := closed
    rw [List.append_nil] at split
    exact ⟨context, phase, operand, complete, tree_eq, split ▸ walk.walked⟩
  · rintro ⟨context, phase, operand, complete, rfl, walked⟩
    have walk : State.start.WalksUpTo 0 text.toList [] ⟨[], context, phase⟩ :=
      ⟨walked, State.stopsAt_nil _⟩
    apply (Source.parse_eq_ok (List.append_nil _).symm walk _).mpr
    exact State.verdict_eq_ok.mpr ⟨operand, complete, rfl, rfl, rfl⟩

end Calculator
