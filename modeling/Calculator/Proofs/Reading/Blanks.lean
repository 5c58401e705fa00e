import Calculator.Proofs.Reading.Walk

/-!
# Blanks make no difference

Two texts with the same visible characters are read alike: both are the same
expression, or both have the same fault at the same visible character. Their
walks go over the same characters at different places, so the states they pass
through differ in the places of the open groups only, and these are places of
the same visible characters.
-/

namespace Calculator

/-- A visible character stands at a place of a text, and so many visible
characters are before it. -/
def StandsAt (text : List Char) (c : Char) (offset index : Nat) : Prop :=
  ∃ before after, text = before ++ c :: after ∧ c ≠ ' ' ∧ byteLength before = offset ∧
    (visible before).length = index

/-- A place of one text and a place of another show the same visible character:
it has equally many visible characters before it in both. -/
def SamePlace (a b : List Char) (c : Char) (i j : Nat) : Prop :=
  ∃ index, StandsAt a c i index ∧ StandsAt b c j index

/-- Placed characters stand in a text one behind the other, and so many visible
characters are before the first. -/
def Numbered (text : List Char) : Nat → List (Char × Nat) → Prop
  | _, [] => True
  | index, (c, behind) :: rest =>
    StandsAt text c (behind - c.utf8Size) index ∧ Numbered text (index + 1) rest

/-- The visible characters of a part of a text stand in it where they are placed. -/
theorem numbered_placed {text cs after : List Char} (before : List Char)
    (split : text = before ++ (cs ++ after)) :
    Numbered text (visible before).length (placed (byteLength before) cs) := by
  induction cs generalizing before with
  | nil => trivial
  | cons c cs ih =>
    have rest := ih (before ++ [c]) (by simp [split])
    rw [byteLength_append, byteLength_cons, byteLength_nil, Nat.add_zero] at rest
    by_cases blank : c = ' '
    · have count : (visible (before ++ [c])).length = (visible before).length := by
        simp [visible, blank]
      rw [count] at rest
      rwa [placed, if_pos blank]
    · have count : (visible (before ++ [c])).length = (visible before).length + 1 := by
        simp [visible, blank]
      rw [count] at rest
      rw [placed, if_neg blank]
      refine ⟨⟨before, cs ++ after, split, blank, ?_, rfl⟩, rest⟩
      omega

/-- A text can be cut where its visible characters can, before a visible
character or at the end. -/
theorem exists_split_of_visible {text front back : List Char}
    (split : visible text = front ++ back) :
    ∃ read left, text = read ++ left ∧ visible read = front ∧ left.head? = back.head? := by
  induction text generalizing front with
  | nil =>
    obtain ⟨rfl, rfl⟩ := List.append_eq_nil_iff.mp split.symm
    exact ⟨[], [], rfl, rfl, rfl⟩
  | cons c text ih =>
    by_cases blank : c = ' '
    · obtain ⟨read, left, rfl, shown, head⟩ := ih (by simpa [visible, blank] using split)
      refine ⟨c :: read, left, rfl, ?_, head⟩
      rw [← shown]
      simp [visible, blank]
    · have shown : visible (c :: text) = c :: visible text := by simp [visible, blank]
      rw [shown] at split
      cases front with
      | nil => exact ⟨[], c :: text, rfl, rfl, by rw [← List.nil_append back, ← split]; rfl⟩
      | cons d front =>
        obtain ⟨rfl, behind⟩ := List.cons_eq_cons.mp split
        obtain ⟨read, left, rfl, shown, head⟩ := ih behind
        refine ⟨c :: read, left, rfl, ?_, head⟩
        rw [← shown]
        simp [visible, blank]

section

variable {a b : List Char}

/-- Two open groups stand behind the same and open at the same character. -/
def OpenGroup.Alike (a b : List Char) (g h : OpenGroup) : Prop :=
  g.context = h.context ∧ SamePlace a b '(' g.opening h.opening

/-- Two states differ in the places of their open groups only. -/
structure State.Alike (a b : List Char) (s t : State) : Prop where
  /-- The groups open at the same characters. -/
  groups : List.Forall₂ (OpenGroup.Alike a b) s.groups t.groups
  /-- The same stands before the current operand. -/
  context : s.context = t.context
  /-- The current operand has been read as far. -/
  phase : s.phase = t.phase

/-- What can stand next in one state can in the other. -/
theorem State.Alike.step?_eq {s t : State} (alike : State.Alike a b s t) (c : Char) :
    s.step? c = t.step? c := by
  obtain ⟨groups, context, phase⟩ := s
  obtain ⟨groups', context', phase'⟩ := t
  obtain ⟨opened, -, rfl⟩ := alike
  have empty : groups.isEmpty = groups'.isEmpty := by cases opened <;> rfl
  cases phase with
  | awaiting => rfl
  | literal l => simp only [step?, literalStep?, followingStep?, empty]
  | complete e => simp only [step?, followingStep?, empty]

/-- The same character at the same place leads from like states to like states. -/
theorem State.Advance.alike {behind behind' : Nat} {s t next : State} {c : Char}
    (advance : Advance behind s c next) (alike : State.Alike a b s t)
    (place : SamePlace a b c (behind - c.utf8Size) (behind' - c.utf8Size)) :
    ∃ next', Advance behind' t c next' ∧ State.Alike a b next next' := by
  obtain ⟨groups, context, phase⟩ := s
  obtain ⟨groups', context', phase'⟩ := t
  obtain ⟨opened, rfl, rfl⟩ := alike
  cases advance with
  | firstDigit d => exact ⟨_, .firstDigit d, opened, rfl, rfl⟩
  | digit l d => exact ⟨_, .digit l d, opened, rfl, rfl⟩
  | point first => exact ⟨_, .point first, opened, rfl, rfl⟩
  | sign => exact ⟨_, .sign, opened, rfl, rfl⟩
  | opening => exact ⟨_, .opening, .cons ⟨rfl, place⟩ opened, rfl, rfl⟩
  | closing read =>
    -- the context behind the group is that of the group, which is the same in both
    cases opened with
    | cons outer opened => exact ⟨_, .closing read, opened, outer.1, rfl⟩
  | operator op read => exact ⟨_, .operator op read, opened, rfl, rfl⟩

/-- The same characters numbered alike stand at the same places of two texts. -/
theorem Numbered.forall₂_samePlace {index : Nat} {xs ys : List (Char × Nat)}
    (chars : xs.map Prod.fst = ys.map Prod.fst) (first : Numbered a index xs)
    (second : Numbered b index ys) :
    List.Forall₂ (fun x y => x.1 = y.1 ∧
      SamePlace a b x.1 (x.2 - x.1.utf8Size) (y.2 - x.1.utf8Size)) xs ys := by
  induction xs generalizing index ys with
  | nil =>
    obtain rfl := List.map_eq_nil_iff.mp chars.symm
    exact .nil
  | cons x xs ih =>
    obtain ⟨⟨c, behind'⟩, ys, rfl, rfl, others⟩ := List.map_eq_cons_iff.mp chars.symm
    obtain ⟨c, behind⟩ := x
    obtain ⟨here, first⟩ := first
    obtain ⟨there, second⟩ := second
    exact .cons ⟨rfl, index, here, there⟩ (ih others.symm first second)

/-- Walks over the same characters lead from like states to like states. -/
theorem State.Alike.walk {s t next : State} (alike : State.Alike a b s t) {index : Nat}
    {xs ys : List (Char × Nat)} (chars : xs.map Prod.fst = ys.map Prod.fst)
    (first : Numbered a index xs) (second : Numbered b index ys)
    (walked : s.walk? xs = some next) :
    ∃ next', t.walk? ys = some next' ∧ State.Alike a b next next' := by
  refine walk?_of_forall₂ ?_ alike (first.forall₂_samePlace chars second) walked
  rintro s t next ⟨c, behind⟩ ⟨_, behind'⟩ alike ⟨rfl, place⟩ advance
  exact advance.alike alike place

/-- Two faults are of one kind, with the same token, at the same character. -/
inductive Fault.Alike (a b : List Char) : Fault → Fault → Prop where
  /-- The same unexpected character. -/
  | unexpectedCharacter {c : Char} {i j : Nat} (place : SamePlace a b c i j) :
    Alike a b (.unexpectedCharacter c i) (.unexpectedCharacter c j)
  /-- Both texts end too early. -/
  | unexpectedEnd : Alike a b .unexpectedEnd .unexpectedEnd
  /-- The same group is left open. -/
  | unclosedGroup {i j : Nat} (place : SamePlace a b '(' i j) :
    Alike a b (.unclosedGroup i) (.unclosedGroup j)

/-- Walks that stop in like states before the same character, or both at the end,
amount to the same. -/
theorem State.Alike.verdict {s t : State} (alike : State.Alike a b s t) {i j : Nat}
    {next : Option Char} (place : ∀ c, next = some c → SamePlace a b c i j) :
    (∃ tree, s.verdict i next = .ok tree ∧ t.verdict j next = .ok tree) ∨
      ∃ f g, s.verdict i next = .error f ∧ t.verdict j next = .error g ∧ f.Alike a b g := by
  obtain ⟨groups, context, phase⟩ := s
  obtain ⟨groups', context', phase'⟩ := t
  obtain ⟨opened, rfl, rfl⟩ := alike
  unfold State.verdict
  dsimp only
  cases phase.operand? with
  | none =>
    right
    cases next with
    | none => exact ⟨_, _, rfl, rfl, .unexpectedEnd⟩
    | some c => exact ⟨_, _, rfl, rfl, .unexpectedCharacter (place c rfl)⟩
  | some operand =>
    cases opened with
    | cons outer => exact .inr ⟨_, _, rfl, rfl, .unclosedGroup outer.2⟩
    | nil =>
      cases next with
      | none => exact .inl ⟨_, rfl, rfl⟩
      | some c => exact .inr ⟨_, _, rfl, rfl, .unexpectedCharacter (place c rfl)⟩

end

/-- Two errors are of one kind and point at the same visible character, which is
the token if there is one, or both at the end of their texts. -/
inductive SyntaxError.Alike (x y : SyntaxError) : Prop where
  /-- The same unexpected character. -/
  | unexpectedCharacter {c : Char} (first : x.fault = .unexpectedCharacter c x.offset)
    (second : y.fault = .unexpectedCharacter c y.offset)
    (place : SamePlace x.source.text.toList y.source.text.toList c x.offset y.offset)
  /-- The ends of both texts. -/
  | unexpectedEnd (first : x.fault = .unexpectedEnd) (second : y.fault = .unexpectedEnd)
    (ends : x.offset = x.source.text.utf8ByteSize ∧ y.offset = y.source.text.utf8ByteSize)
  /-- The same parenthesis. -/
  | unclosedGroup (first : x.fault = .unclosedGroup x.offset)
    (second : y.fault = .unclosedGroup y.offset)
    (place : SamePlace x.source.text.toList y.source.text.toList '(' x.offset y.offset)

/-- Like faults in their sources are like errors. -/
theorem Fault.Alike.error {a b : Source} {f g : Fault}
    (alike : f.Alike a.text.toList b.text.toList g) :
    SyntaxError.Alike ⟨a, f⟩ ⟨b, g⟩ := by
  cases alike with
  | unexpectedCharacter place => exact .unexpectedCharacter rfl rfl place
  | unexpectedEnd => exact .unexpectedEnd rfl rfl ⟨rfl, rfl⟩
  | unclosedGroup place => exact .unclosedGroup rfl rfl place

/-- Sources with the same visible characters are the same expression, or none for
like errors. -/
theorem Source.parse_alike_of_visible_eq {a b : Source}
    (same : visible a.text.toList = visible b.text.toList) :
    (∃ tree, a.parse = .ok tree ∧ b.parse = .ok tree) ∨
      ∃ x y, a.parse = .error x ∧ b.parse = .error y ∧ x.source = a ∧ y.source = b ∧
        x.Alike y := by
  obtain ⟨read, left, state, split, walk⟩ := State.start.exists_walksUpTo 0 a.text.toList
  have shown : visible b.text.toList = visible read ++ visible left := by
    rw [← same, split, visible_append]
  obtain ⟨read', left', split', chars, head⟩ := exists_split_of_visible shown
  -- the walk over the first text stops at a visible character, if it does not reach the end
  have head' : left'.head? = left.head? := by
    rw [head]
    cases left with
    | nil => rfl
    | cons c left => simp [visible, (walk.stops c rfl).1]
  have start : State.Alike a.text.toList b.text.toList .start .start := ⟨.nil, rfl, rfl⟩
  have read_alike : (placed 0 read).map Prod.fst = (placed 0 read').map Prod.fst := by
    rw [map_fst_placed, map_fst_placed, chars]
  obtain ⟨state', walked, alike⟩ := start.walk read_alike (numbered_placed [] split)
    (numbered_placed [] split') walk.walked
  have walk' : State.start.WalksUpTo 0 read' left' state' := by
    refine ⟨walked, fun c next => ?_⟩
    rw [head'] at next
    rw [← alike.step?_eq]
    exact walk.stops c next
  have place : ∀ c, left.head? = some c →
      SamePlace a.text.toList b.text.toList c (byteLength read) (byteLength read') := by
    intro c next
    obtain ⟨after, rfl⟩ := List.head?_eq_some_iff.mp next
    obtain ⟨after', rfl⟩ := List.head?_eq_some_iff.mp (head'.trans next)
    have visible_c := (walk.stops c next).1
    exact ⟨_, ⟨read, after, split, visible_c, rfl, rfl⟩,
      ⟨read', after', split', visible_c, rfl, by rw [chars]⟩⟩
  rw [parse_of_walksUpTo split walk, parse_of_walksUpTo split' walk', head']
  rcases alike.verdict place with ⟨tree, first, second⟩ | ⟨f, g, first, second, faults⟩
  · rw [first, second]
    exact .inl ⟨tree, rfl, rfl⟩
  · rw [first, second]
    exact .inr ⟨_, _, rfl, rfl, rfl, rfl, faults.error⟩

/-- Moving the blanks of a text with an open group moves the place of its error with
the parenthesis. -/
theorem parse_alike_of_open_group :
    visible "(1 2 @".toList = visible " ( 12@".toList ∧
      ∃ x y, Source.parse ⟨none, "(1 2 @"⟩ = .error x ∧
        Source.parse ⟨none, " ( 12@"⟩ = .error y ∧ x.fault = .unclosedGroup 0 ∧ x.Alike y := by
  let source : Source := ⟨none, "(1 2 @"⟩
  have same : visible source.text.toList = visible " ( 12@".toList := by decide
  have failed : source.parse = .error ⟨source, .unclosedGroup 0⟩ := by
    let part := ['(', '1', ' ', '2', ' ']
    obtain ⟨state, walked, stops, verdict⟩ : ∃ state,
        State.start.walk? (placed 0 part) = some state ∧ state.StopsAt ['@'] ∧
          state.verdict 5 (some '@') = .error (.unclosedGroup 0) := by
      refine ⟨_, rfl, ?_, rfl⟩
      rintro c ⟨⟩
      exact ⟨by decide, rfl⟩
    have text : source.text.toList = part ++ ['@'] := by decide
    exact (Source.parse_eq_error text ⟨walked, stops⟩ _).mpr ⟨rfl, verdict⟩
  refine ⟨same, ?_⟩
  rcases Source.parse_alike_of_visible_eq (a := source) (b := ⟨none, " ( 12@"⟩) same with
    ⟨tree, first, -⟩ | ⟨x, y, first, second, -, -, alike⟩
  · rw [failed] at first
    contradiction
  · obtain rfl := Except.error.inj (failed.symm.trans first)
    exact ⟨_, y, failed, second, rfl, alike⟩

end Calculator
