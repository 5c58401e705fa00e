import Calculator.Proofs.Reading.Walk

/-!
# Viable texts and the place of a fault

A text is viable if some continuation of it is an expression. The walk over a
text goes over exactly its longest viable part: any state can be led to an
expression, by a digit where an operand is missing and by closing the open
groups. The fault of a text is therefore settled by its longest viable part and
the character behind that. `openings` counts parentheses without reading
anything else, and the groups of a state are what it counts.
-/

namespace Calculator

/-- Whether some continuation of the characters is an expression. -/
def Viable (cs : List Char) : Prop :=
  ∃ rest tree, parse (.ofList (cs ++ rest)) = .ok tree

/-- The longest viable part at the beginning of a text. -/
structure LongestViable (part text : List Char) : Prop where
  /-- The text begins with it. -/
  leading : part <+: text
  /-- It is viable. -/
  viable : Viable part
  /-- No longer beginning of the text is. -/
  longest : ∀ other, other <+: text → Viable other → other <+: part

/-- The places of the parentheses that characters leave open, innermost first, if
the characters start at a place and some parentheses are open there. -/
def openings (offset : Nat) (opened : List Nat) : List Char → List Nat
  | [] => opened
  | c :: cs =>
    openings (offset + c.utf8Size)
      (if c = '(' then offset :: opened else if c = ')' then opened.tail else opened) cs

/-- Whether closing all open parentheses, and there are some, makes an
expression. -/
def Closable (cs : List Char) : Prop :=
  openings 0 [] cs ≠ [] ∧
    ∃ tree, parse (.ofList (cs ++ List.replicate (openings 0 [] cs).length ')')) = .ok tree

/-- The places of open groups. -/
def OpenGroup.places (groups : List OpenGroup) : List Nat := groups.map OpenGroup.opening

/-- One character opens and closes the groups that its parenthesis does. -/
theorem State.Advance.places {offset : Nat} {state next : State} {c : Char}
    (advance : Advance (offset + c.utf8Size) state c next) :
    OpenGroup.places next.groups =
      if c = '(' then offset :: OpenGroup.places state.groups
      else if c = ')' then (OpenGroup.places state.groups).tail
      else OpenGroup.places state.groups := by
  cases advance with
  | firstDigit d => simp [d.toChar_ne]
  | digit l d => simp [d.toChar_ne]
  | point => simp
  | sign => simp
  | opening =>
    have size : '('.utf8Size = 1 := by decide
    simp [OpenGroup.places, size]
  | closing => simp [OpenGroup.places]
  | operator op => simp [op.symbol_ne]

/-- A walk leaves open the groups whose parentheses it has not closed. -/
theorem State.places_walk {start state : State} {offset : Nat} {cs : List Char}
    (walked : start.walk? (placed offset cs) = some state) :
    OpenGroup.places state.groups = openings offset (OpenGroup.places start.groups) cs := by
  induction cs generalizing start offset with
  | nil =>
    obtain rfl : start = state := by simpa [placed, walk?] using walked
    rfl
  | cons c cs ih =>
    rcases walk?_placed_cons walked with ⟨rfl, rest⟩ | ⟨step, stands, rest⟩
    · rw [ih rest, openings, if_neg (by decide), if_neg (by decide)]
    · rw [ih rest, (Advance.of_step? stands _).places, openings]

/-- Behind an operand all open groups can be closed, and an operand stands there
then. -/
theorem State.reaches_closed (groups : List OpenGroup) (context : Context) {phase : Phase}
    {operand : Expr} (read : phase.operand? = some operand) :
    ∃ context' phase' operand', phase'.operand? = some operand' ∧
      Reaches ⟨groups, context, phase⟩ (List.replicate groups.length ')')
        ⟨[], context', phase'⟩ := by
  induction groups generalizing context phase operand with
  | nil => exact ⟨context, phase, operand, read, .refl _⟩
  | cons group groups ih =>
    have complete : (Phase.complete (context.expression operand)).operand? =
        some (context.expression operand) := rfl
    obtain ⟨context', phase', operand', read', closed⟩ := ih group.context complete
    exact ⟨context', phase', operand', read', .cons (fun _ => .closing read) closed⟩

/-- No group can be closed where an operand is missing. -/
theorem State.advance?_closing_of_awaiting (groups : List OpenGroup) (context : Context)
    (behind : Nat) : advance? ⟨groups, context, .awaiting⟩ ')' behind = none := rfl

/-- A text goes on as a walk does that reaches its end. -/
theorem State.walk?_placed_append {start state next : State} {cs rest : List Char}
    (walked : start.walk? (placed 0 cs) = some state)
    (reaches : state.Reaches (visible rest) next) :
    start.walk? (placed 0 (cs ++ rest)) = some next := by
  rw [placed_append, walk?_append, walked]
  exact reaches _ (map_fst_placed _ rest)

/-- Parentheses are visible. -/
theorem visible_replicate_closing (count : Nat) :
    visible (List.replicate count ')') = List.replicate count ')' := by
  simp [visible]

/-- Where an operand is complete, closing the open groups makes an expression. -/
theorem parse_of_closed {cs : List Char} {groups : List OpenGroup} {context : Context}
    {phase : Phase} {operand : Expr}
    (walked : State.start.walk? (placed 0 cs) = some ⟨groups, context, phase⟩)
    (complete : phase.operand? = some operand) :
    ∃ tree, parse (.ofList (cs ++ List.replicate groups.length ')')) = .ok tree := by
  obtain ⟨context', phase', operand', complete', closed⟩ :=
    State.reaches_closed groups context complete
  rw [← visible_replicate_closing] at closed
  have walked' := State.walk?_placed_append walked closed
  refine ⟨context'.expression operand', (parse_eq_ok_iff_walk _ _).mpr ?_⟩
  rw [String.toList_ofList]
  exact ⟨context', phase', operand', complete', rfl, walked'⟩

/-- A walk goes over what an expression begins with. -/
theorem walk_of_parse_append {cs rest : List Char} {tree : Expr}
    (h : parse (.ofList (cs ++ rest)) = .ok tree) :
    ∃ state next, State.start.walk? (placed 0 cs) = some state ∧
      state.walk? (placed (0 + byteLength cs) rest) = some next := by
  obtain ⟨context, phase, operand, -, -, walked⟩ := (parse_eq_ok_iff_walk _ _).mp h
  rw [String.toList_ofList, placed_append, State.walk?_append] at walked
  obtain ⟨state, first, second⟩ := Option.bind_eq_some_iff.mp walked
  exact ⟨state, _, first, second⟩

/-- Characters are viable exactly if a walk goes over all of them. -/
theorem viable_iff_walk (cs : List Char) :
    Viable cs ↔ ∃ state, State.start.walk? (placed 0 cs) = some state := by
  constructor
  · rintro ⟨rest, tree, h⟩
    obtain ⟨state, next, walked, -⟩ := walk_of_parse_append h
    exact ⟨state, walked⟩
  · rintro ⟨⟨groups, context, phase⟩, walked⟩
    cases complete : phase.operand? with
    | some operand => exact ⟨_, parse_of_closed walked complete⟩
    | none =>
      obtain rfl : phase = .awaiting := by
        cases phase with
        | awaiting => rfl
        | literal | complete => contradiction
      -- the missing operand is supplied by a digit
      have digit : State.Reaches ⟨groups, context, .awaiting⟩ (visible ['0'])
          ⟨groups, context, .literal (.ofDigit 0)⟩ := .of_advance fun _ => .firstDigit 0
      have walked' := State.walk?_placed_append walked digit
      obtain ⟨tree, parsed⟩ := parse_of_closed walked' rfl
      exact ⟨['0'] ++ List.replicate groups.length ')', tree, by rw [← List.append_assoc, parsed]⟩

/-- Behind a viable text the open groups can be closed, to an expression, if there
are some and an operand is complete. -/
theorem closable_iff {cs : List Char} {groups : List OpenGroup} {context : Context}
    {phase : Phase} (walked : State.start.walk? (placed 0 cs) = some ⟨groups, context, phase⟩) :
    Closable cs ↔ groups ≠ [] ∧ ∃ operand, phase.operand? = some operand := by
  have places : groups.map OpenGroup.opening = openings 0 [] cs := State.places_walk walked
  have length : (openings 0 [] cs).length = groups.length := by rw [← places, List.length_map]
  unfold Closable
  rw [length, ← places, Ne, List.map_eq_nil_iff]
  constructor
  · rintro ⟨opened, tree, parsed⟩
    refine ⟨opened, ?_⟩
    obtain ⟨state, next, walked', rest⟩ := walk_of_parse_append parsed
    obtain rfl : ⟨groups, context, phase⟩ = state := Option.some.inj (walked.symm.trans walked')
    cases phase with
    | awaiting =>
      cases groups with
      | nil => contradiction
      | cons group groups =>
        simp [List.replicate_succ, placed, State.walk?, State.advance?_closing_of_awaiting] at rest
    | literal l => exact ⟨_, rfl⟩
    | complete operand => exact ⟨operand, rfl⟩
  · rintro ⟨opened, operand, complete⟩
    exact ⟨opened, parse_of_closed walked complete⟩

/-- A walk goes over the longest viable part of a text. -/
theorem State.WalksUpTo.longestViable {read left : List Char} {state : State}
    (walk : State.start.WalksUpTo 0 read left state) : LongestViable read (read ++ left) := by
  refine ⟨List.prefix_append read left, (viable_iff_walk read).mpr ⟨state, walk.walked⟩, ?_⟩
  intro other leading viable
  obtain ⟨state', walked⟩ := (viable_iff_walk other).mp viable
  rcases List.prefix_or_prefix_of_prefix leading (List.prefix_append read left) with short | long
  · exact short
  · obtain ⟨more, rfl⟩ := long
    cases more with
    | nil => simp
    | cons c more =>
      -- the walk would have gone over the character before which it stops
      obtain ⟨rest, split⟩ := leading
      have next : left = c :: (more ++ rest) := by simpa using split.symm
      obtain ⟨visible, refused⟩ := walk.stops c (by simp [next])
      rw [placed_append, walk?_append, walk.walked] at walked
      simp [placed, visible, walk?, advance?, refused] at walked

/-- An open group behind an operand is the fault, whatever is next. -/
theorem State.verdict_of_open {group : OpenGroup} {groups : List OpenGroup} {context : Context}
    {phase : Phase} {operand : Expr} (complete : phase.operand? = some operand) (offset : Nat)
    (next : Option Char) :
    verdict ⟨group :: groups, context, phase⟩ offset next =
      .error (.unclosedGroup group.opening) := by
  unfold verdict
  rw [complete]

/-- Where no open group is the fault, it is what comes next. -/
theorem State.fault_of_not_open {state : State} {offset : Nat} {next : Option Char} {fault : Fault}
    (other : ¬ (state.groups ≠ [] ∧ ∃ operand, state.phase.operand? = some operand))
    (failed : state.verdict offset next = .error fault) :
    fault = next.elim .unexpectedEnd fun c => .unexpectedCharacter c offset := by
  unfold verdict at failed
  split at failed
  case h_3 operand group groups complete opened =>
    exact absurd ⟨by simp [opened], operand, complete⟩ other
  case h_5 => contradiction
  all_goals exact (Except.error.inj failed).symm

/-- Before a character the end of the input is not the fault. -/
theorem State.verdict_ne_unexpectedEnd (state : State) (offset : Nat) (c : Char) :
    state.verdict offset (some c) ≠ .error .unexpectedEnd := by
  unfold verdict
  cases state.phase.operand? <;> cases state.groups <;> simp

/-- Only the end of the input has a place that depends on the source. -/
theorem SyntaxError.offset_eq_of_fault_eq {a b : SyntaxError} (same : a.fault = b.fault)
    (inside : b.fault ≠ .unexpectedEnd) : a.offset = b.offset := by
  obtain ⟨source, fault⟩ := a
  obtain ⟨source', fault'⟩ := b
  obtain rfl : fault = fault' := same
  cases fault with
  | unexpectedCharacter | unclosedGroup => rfl
  | unexpectedEnd => exact absurd rfl inside

/-- An error is settled by a part of its text and what is left behind it. -/
structure SyntaxError.SettledBy (error : SyntaxError) (part left : List Char) : Prop where
  /-- If closing the open parentheses of the part, and there are some, makes an
  expression, the error is the innermost one. -/
  unclosed : Closable part → ∃ opening outer, openings 0 [] part = opening :: outer ∧
    error.fault = .unclosedGroup opening ∧ error.offset = opening
  /-- Else it is the end of the text if nothing is left. -/
  ended : ¬ Closable part → left = [] →
    error.fault = .unexpectedEnd ∧ error.offset = error.source.size
  /-- Else it is the first character that is left. -/
  unexpected : ¬ Closable part → ∀ c rest, left = c :: rest →
    error.fault = .unexpectedCharacter c (byteLength part) ∧ error.offset = byteLength part
  /-- What is behind the first character that is left has no influence. -/
  independent : ∀ c rest other, left = c :: rest → ∃ error',
    parse (.ofList (part ++ c :: other)) = .error error' ∧ error'.fault = error.fault ∧
      error'.offset = error.offset

/-- The error of a text is settled by its longest viable part and what is left
behind that. -/
theorem error_settledBy_longestViable {text : String} {error : SyntaxError}
    (failed : parse text = .error error) :
    error.source = ⟨none, text⟩ ∧ ∃ part left, text.toList = part ++ left ∧
      LongestViable part text.toList ∧ error.SettledBy part left := by
  obtain ⟨part, left, ⟨groups, context, phase⟩, split, walk⟩ :=
    State.start.exists_walksUpTo 0 text.toList
  obtain ⟨source, fault⟩ := error
  obtain ⟨rfl, verdict⟩ := (Source.parse_eq_error split walk _).mp failed
  have closable := closable_iff walk.walked
  have places : groups.map OpenGroup.opening = openings 0 [] part := State.places_walk walk.walked
  refine ⟨rfl, part, left, split, split ▸ walk.longestViable, ?_, ?_, ?_, ?_⟩
  · intro closes
    obtain ⟨opened, operand, complete⟩ := closable.mp closes
    obtain ⟨group, groups, rfl⟩ := List.exists_cons_of_ne_nil opened
    rw [State.verdict_of_open complete] at verdict
    obtain rfl : Fault.unclosedGroup group.opening = fault := Except.error.inj verdict
    exact ⟨group.opening, groups.map OpenGroup.opening, places.symm, rfl, rfl⟩
  · rintro stuck rfl
    obtain rfl := State.fault_of_not_open (fun closes => stuck (closable.mpr closes)) verdict
    exact ⟨rfl, rfl⟩
  · rintro stuck c rest rfl
    obtain rfl := State.fault_of_not_open (fun closes => stuck (closable.mpr closes)) verdict
    exact ⟨rfl, rfl⟩
  · rintro c rest other rfl
    have walk' : State.start.WalksUpTo 0 part (c :: other) ⟨groups, context, phase⟩ :=
      ⟨walk.walked, walk.stops⟩
    let source : Source := ⟨none, .ofList (part ++ c :: other)⟩
    have split' : source.text.toList = part ++ c :: other := by simp [source]
    have failed' := (Source.parse_eq_error split' walk' ⟨source, fault⟩).mpr ⟨rfl, verdict⟩
    refine ⟨⟨source, fault⟩, failed', rfl, SyntaxError.offset_eq_of_fault_eq rfl ?_⟩
    rintro (rfl : fault = .unexpectedEnd)
    exact State.verdict_ne_unexpectedEnd _ _ _ verdict

/-- In this text an outer group is left open before a character that cannot stand
there. -/
theorem error_settledBy_longestViable_of_open_group :
    parse "2*(1+(3) @" = .error ⟨⟨none, "2*(1+(3) @"⟩, .unclosedGroup 2⟩ ∧
      ∃ part left, "2*(1+(3) @".toList = part ++ left ∧
        LongestViable part "2*(1+(3) @".toList ∧
          SyntaxError.SettledBy ⟨⟨none, "2*(1+(3) @"⟩, .unclosedGroup 2⟩ part left := by
  have failed : parse "2*(1+(3) @" = .error ⟨⟨none, "2*(1+(3) @"⟩, .unclosedGroup 2⟩ := by
    let part := ['2', '*', '(', '1', '+', '(', '3', ')', ' ']
    obtain ⟨state, walked, stops, verdict⟩ : ∃ state,
        State.start.walk? (placed 0 part) = some state ∧ state.StopsAt ['@'] ∧
          state.verdict 9 (some '@') = .error (.unclosedGroup 2) := by
      refine ⟨_, rfl, ?_, rfl⟩
      rintro c ⟨⟩
      exact ⟨by decide, rfl⟩
    have text : "2*(1+(3) @".toList = part ++ ['@'] := by decide
    exact (Source.parse_eq_error text ⟨walked, stops⟩ _).mpr ⟨rfl, verdict⟩
  exact ⟨failed, (error_settledBy_longestViable failed).2⟩

end Calculator
