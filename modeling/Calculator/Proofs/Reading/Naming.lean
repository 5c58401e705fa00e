import Calculator.Proofs.Reading.Walk

/-!
# The name of a source

A source is read without a look at its name. The events of its run are those along
the walk over its text, so the trail is settled by the text but for the source of
an error, and an error names the source and is otherwise settled by the text.
-/

namespace Calculator

/-- The events along a walk, up to the first character that cannot stand where it
is. -/
def State.eventsAlong : State → List (Char × Nat) → List Event
  | _, [] => []
  | state, (c, behind) :: rest =>
    match state.step? c with
    | none => []
    | some step => state.events step behind ++ (state.after step behind).eventsAlong rest

/-- A run has the events along the walk that goes as far. -/
theorem State.events_run_of_walksUpTo {start state : State} (cursor : Cursor)
    {read left : List Char} (text : cursor.rest = read ++ left)
    (walk : start.WalksUpTo cursor.offset read left state) :
    (start.run cursor).events = start.eventsAlong (placed cursor.offset read) := by
  induction read generalizing start cursor with
  | nil =>
    obtain rfl : start = state := by simpa [placed, walk?] using walk.walked
    rw [run_of_stopsAt (by rw [text]; exact walk.stops)]
    rfl
  | cons c read ih =>
    rcases walk?_placed_cons walk.walked with ⟨rfl, walked⟩ | ⟨step, stands, walked⟩
    · rw [run_of_blank start text, ih _ rfl ⟨walked, walk.stops⟩]
      simp [placed, Cursor.advance]
    · let place := cursor.advance c _ text
      have behind : (start.after step place.offset).WalksUpTo place.offset read left state :=
        ⟨walked, walk.stops⟩
      rw [run_of_stands text stands]
      dsimp only
      rw [ih place rfl behind]
      simp [place, placed, ne_blank_of_step? stands, eventsAlong, stands, Cursor.advance]

/-- The trail of a source follows the walk over its text. -/
theorem Source.trail_of_walksUpTo {source : Source} {read left : List Char} {state : State}
    (text : source.text.toList = read ++ left)
    (walk : State.start.WalksUpTo 0 read left state) :
    source.trail =
      .started source.text :: .entered .expression 0 :: .entered .term 0 :: .entered .factor 0 ::
        State.start.eventsAlong (placed 0 read) ++ state.completed ++
          [match state.verdict (byteLength read) left.head? with
            | .ok tree => .parsed tree
            | .error fault => .failed ⟨source, fault⟩] := by
  obtain ⟨reached, rest, offset⟩ := State.run_of_walksUpTo (.ofSource source) text walk
  have along := State.events_run_of_walksUpTo (.ofSource source) text walk
  have outcome : (State.start.run (.ofSource source)).outcome =
      state.verdict (byteLength read) left.head? := by
    rw [Run.outcome_eq, reached, rest, offset, Cursor.offset_ofSource, Nat.zero_add]
  unfold trail run
  dsimp only
  rw [reached, along, Cursor.offset_ofSource]
  cases verdict : state.verdict (byteLength read) left.head? with
  | ok tree => rw [outcome, verdict]
  | error fault => rw [outcome, verdict]

/-- What is recorded of a source is settled by its text. -/
theorem Source.records_congr {a b : Source} (same : a.text = b.text) :
    a.trail.map Event.record = b.trail.map Event.record := by
  obtain ⟨name, text⟩ := a
  obtain ⟨name', text'⟩ := b
  obtain rfl : text = text' := same
  obtain ⟨read, left, state, split, walk⟩ := State.start.exists_walksUpTo 0 text.toList
  have trails : ∀ label, Source.trail ⟨label, text⟩ = _ := fun _ => trail_of_walksUpTo split walk
  rw [trails name, trails name']
  cases state.verdict (byteLength read) left.head? with
  | ok tree => rfl
  | error fault =>
    -- a record shows the place of an error, which lies in the text alone
    cases fault <;> simp [Event.record, SyntaxError.offset, size]

/-- A source is the expression that its text is, or has the fault of its text. -/
theorem Source.parse_eq (source : Source) :
    source.parse = (Calculator.parse source.text).mapError fun error => ⟨source, error.fault⟩ := by
  obtain ⟨read, left, state, split, walk⟩ := State.start.exists_walksUpTo 0 source.text.toList
  unfold Calculator.parse
  have unnamed : Source.parse ⟨none, source.text⟩ = _ := parse_of_walksUpTo split walk
  rw [parse_of_walksUpTo split walk, unnamed]
  cases state.verdict (byteLength read) left.head? <;> rfl

/-- A source whose text is an expression is that expression. -/
theorem Source.parse_eq_ok_of_text {source : Source} {tree : Expr}
    (parsed : Calculator.parse source.text = .ok tree) : source.parse = .ok tree := by
  rw [parse_eq, parsed]
  rfl

/-- A source whose text is no expression has the fault of its text. -/
theorem Source.parse_eq_error_of_text {source : Source} {error : SyntaxError}
    (failed : Calculator.parse source.text = .error error) :
    source.parse = .error ⟨source, error.fault⟩ := by
  rw [parse_eq, failed]
  rfl

end Calculator
