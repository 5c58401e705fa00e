import Calculator.Source

/-!
# Cursors

A cursor is a place between two characters of a source. It moves by one
operation, `take?`: blanks are passed over, and the character after them is
taken if the caller accepts it. A character that is refused stays, the blanks
before it do not. Only the plain blank U+0020 is passed over.
-/

namespace Calculator

/-- A place between two characters of a source. -/
structure Cursor where
  /-- What is being read. -/
  source : Source
  /-- The bytes before the place. -/
  offset : Nat
  /-- The characters behind the place. -/
  rest : List Char
  /-- The offset counts the characters before the place, and no others are
  missing from the rest. -/
  placed : ∃ before, source.text.toList = before ++ rest ∧ offset = byteLength before

namespace Cursor

/-- The start of a source. -/
def ofSource (source : Source) : Cursor :=
  ⟨source, 0, source.text.toList, [], rfl, rfl⟩

/-- The whole text, whatever the place. -/
def whole (cursor : Cursor) : String := cursor.source.text

/-- Whether any character, be it a blank, is behind the place. -/
def hasRemaining (cursor : Cursor) : Bool := !cursor.rest.isEmpty

/-- The character directly behind the place. -/
def current (cursor : Cursor) : Option Char := cursor.rest.head?

/-- The place behind the next character. -/
def advance (cursor : Cursor) (c : Char) (rest : List Char) (h : cursor.rest = c :: rest) :
    Cursor where
  source := cursor.source
  offset := cursor.offset + c.utf8Size
  rest := rest
  placed := by
    obtain ⟨before, text, offset⟩ := cursor.placed
    exact ⟨before ++ [c], by simp [text, h], by simp [offset]⟩

/-- The first place from here on that has no blank behind it. -/
def skipBlanks (cursor : Cursor) : Cursor where
  source := cursor.source
  offset := cursor.offset + byteLength (cursor.rest.takeWhile (· == ' '))
  rest := cursor.rest.dropWhile (· == ' ')
  placed := by
    obtain ⟨before, text, offset⟩ := cursor.placed
    exact ⟨before ++ cursor.rest.takeWhile (· == ' '), by simp [text], by simp [offset]⟩

/-- Passes over blanks, then takes the next character if it is accepted. -/
def take? (accepts : Char → Bool) (cursor : Cursor) : Option Char × Cursor :=
  let cursor := cursor.skipBlanks
  match h : cursor.rest with
  | c :: rest => if accepts c then (some c, cursor.advance c rest h) else (none, cursor)
  | [] => (none, cursor)

@[simp] theorem offset_ofSource (source : Source) : (ofSource source).offset = 0 := rfl

@[simp] theorem rest_ofSource (source : Source) :
    (ofSource source).rest = source.text.toList := rfl

/-- A character remains exactly if there is a current one. -/
theorem hasRemaining_eq_isSome_current (cursor : Cursor) :
    cursor.hasRemaining = cursor.current.isSome := by
  unfold hasRemaining current
  cases cursor.rest <;> rfl

/-- Two cursors of one source with the same rest are at the same place. -/
theorem ext_rest {a b : Cursor} (source : a.source = b.source) (rest : a.rest = b.rest) :
    a = b := by
  obtain ⟨s, m, r, before, hb, hm⟩ := a
  obtain ⟨s', n, r', before', hb', hn⟩ := b
  simp only at source rest
  subst source rest
  have : before = before' := List.append_cancel_right (hb.symm.trans hb')
  simp [hm, hn, this]

/-- Passing over blanks leaves none in front. -/
theorem head?_rest_skipBlanks (cursor : Cursor) : cursor.skipBlanks.rest.head? ≠ some ' ' := by
  intro h
  have := List.head?_dropWhile_not (· == ' ') cursor.rest
  unfold skipBlanks at h
  simp_all

/-- Passing over blanks twice is passing over them once. -/
@[simp] theorem skipBlanks_skipBlanks (cursor : Cursor) :
    cursor.skipBlanks.skipBlanks = cursor.skipBlanks := by
  apply ext_rest
  · rfl
  · show List.dropWhile _ (List.dropWhile _ _) = List.dropWhile _ _
    induction cursor.rest with
    | nil => rfl
    | cons c rest ih =>
      by_cases h : (c == ' ') = true
      · simpa only [List.dropWhile_cons, h, if_true] using ih
      · simp [h]

/-- No place is behind more characters than an earlier one. -/
theorem length_rest_skipBlanks_le (cursor : Cursor) :
    cursor.skipBlanks.rest.length ≤ cursor.rest.length :=
  (List.dropWhile_sublist _).length_le

/-- The offset never falls when blanks are passed over. -/
theorem offset_le_skipBlanks (cursor : Cursor) : cursor.offset ≤ cursor.skipBlanks.offset :=
  Nat.le_add_right _ _

/-- An accepted character behind the blanks is taken. -/
theorem take?_of_accepts {accepts : Char → Bool} {cursor : Cursor} {c : Char} {rest : List Char}
    (h : cursor.skipBlanks.rest = c :: rest) (accepted : accepts c = true) :
    cursor.take? accepts = (some c, cursor.skipBlanks.advance c rest h) := by
  unfold take?
  dsimp only
  split
  next d rest' h' =>
    obtain ⟨rfl, rfl⟩ : d = c ∧ rest' = rest := by simpa [h'] using h
    simp [accepted]
  next h' => simp [h'] at h

/-- If the character behind the blanks is refused, or there is none, the place
moves over the blanks and no further. -/
theorem take?_of_refuses {accepts : Char → Bool} {cursor : Cursor}
    (refused : ∀ c, cursor.skipBlanks.current = some c → accepts c = false) :
    cursor.take? accepts = (none, cursor.skipBlanks) := by
  unfold take?
  dsimp only
  split
  next c rest h => simp [refused c (by simp [current, h])]
  next => rfl

/-- A look either takes the character behind the blanks or stops before it. -/
theorem take?_cases (accepts : Char → Bool) (cursor : Cursor) :
    (∃ c rest h, accepts c = true ∧
      cursor.take? accepts = (some c, cursor.skipBlanks.advance c rest h)) ∨
    ((∀ c, cursor.skipBlanks.current = some c → accepts c = false) ∧
      cursor.take? accepts = (none, cursor.skipBlanks)) := by
  by_cases accepted : ∃ c, cursor.skipBlanks.current = some c ∧ accepts c = true
  · obtain ⟨c, hc, accepted⟩ := accepted
    obtain ⟨rest, h⟩ := List.head?_eq_some_iff.mp hc
    exact .inl ⟨c, rest, h, accepted, take?_of_accepts h accepted⟩
  · have refused : ∀ c, cursor.skipBlanks.current = some c → accepts c = false := by
      intro c hc
      cases h : accepts c with
      | false => rfl
      | true => exact absurd ⟨c, hc, h⟩ accepted
    exact .inr ⟨refused, take?_of_refuses refused⟩

/-- Taking a character stays in the source. -/
@[simp] theorem source_take? (accepts : Char → Bool) (cursor : Cursor) :
    (cursor.take? accepts).2.source = cursor.source := by
  obtain ⟨c, rest, h, _, taken⟩ | ⟨_, refused⟩ := take?_cases accepts cursor
  · rw [taken]; rfl
  · rw [refused]; rfl

/-- A refusal moves the place over the blanks and no further. -/
theorem take?_none {accepts : Char → Bool} {cursor : Cursor}
    (h : (cursor.take? accepts).1 = none) : (cursor.take? accepts).2 = cursor.skipBlanks := by
  obtain ⟨c, rest, _, _, taken⟩ | ⟨_, refused⟩ := take?_cases accepts cursor
  · simp [taken] at h
  · rw [refused]

/-- A taken character is accepted, is the first one behind the blanks, and is
followed by the new place. -/
theorem take?_some {accepts : Char → Bool} {cursor : Cursor} {c : Char}
    (h : (cursor.take? accepts).1 = some c) :
    accepts c = true ∧ cursor.skipBlanks.rest = c :: (cursor.take? accepts).2.rest ∧
      (cursor.take? accepts).2.offset = cursor.skipBlanks.offset + c.utf8Size := by
  obtain ⟨d, rest, hr, accepted, taken⟩ | ⟨_, refused⟩ := take?_cases accepts cursor
  · rw [taken] at h ⊢
    obtain rfl : d = c := by simpa using h
    exact ⟨accepted, hr, rfl⟩
  · simp [refused] at h

/-- Every taken character shortens what is left. -/
theorem length_rest_take?_lt {accepts : Char → Bool} {cursor : Cursor} {c : Char}
    (h : (cursor.take? accepts).1 = some c) :
    (cursor.take? accepts).2.rest.length < cursor.rest.length := by
  have shorter := cursor.length_rest_skipBlanks_le
  rw [(take?_some h).2.1] at shorter
  exact shorter

end Cursor

end Calculator
