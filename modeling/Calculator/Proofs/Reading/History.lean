import Calculator.Cursor
import Calculator.Grammar

/-!
# Histories of a cursor

A cursor can be moved by looks with any conditions, copied at any point, and
replaced by any copy made before. Whatever was done, it stands between two
characters of its text, and the characters taken on the way to its place are the
visible ones before it. What one move does to that is said once, and a history
of moves keeps it.
-/

namespace Calculator

/-- A cursor and the characters taken on the way to it. -/
structure Track where
  /-- The place reached. -/
  cursor : Cursor
  /-- The characters taken, the first one first. -/
  taken : List Char

/-- What can be done next with a cursor. -/
inductive Move where
  /-- Look for a character that meets a condition. -/
  | look (accepts : Char → Bool)
  /-- Copy the cursor. -/
  | copy
  /-- Go back to a copy, the latest of which is number zero. -/
  | restore (index : Nat)

/-- The current cursor and the copies made so far, the latest one first. -/
structure History where
  /-- The current cursor. -/
  current : Track
  /-- The copies. -/
  copies : List Track

namespace Track

/-- The start of a source. -/
def start (source : Source) : Track := ⟨.ofSource source, []⟩

/-- A look, which takes a character if the next one meets the condition. -/
def look (track : Track) (accepts : Char → Bool) : Track :=
  let (found, cursor) := track.cursor.take? accepts
  ⟨cursor, track.taken ++ found.toList⟩

/-- The cursor stands in the source, and the characters taken are the visible ones
before it. -/
structure Sound (source : Source) (track : Track) : Prop where
  /-- The cursor is one of the source. -/
  source_eq : track.cursor.source = source
  /-- Nothing is lost, repeated or out of order. -/
  split : ∃ before, source.text.toList = before ++ track.cursor.rest ∧
    track.cursor.offset = byteLength before ∧ track.taken = visible before

/-- At the start nothing is taken. -/
theorem sound_start (source : Source) : (start source).Sound source := ⟨rfl, [], rfl, rfl, rfl⟩

end Track

/-- Leading blanks are not visible. -/
theorem visible_takeWhile_blank (cs : List Char) : visible (cs.takeWhile (· == ' ')) = [] := by
  apply List.filter_eq_nil_iff.mpr
  intro c member
  have blank := List.all_eq_true.mp List.all_takeWhile c member
  simpa using blank

/-- Passing over blanks leaves the visible characters before the place as they
are. -/
theorem Cursor.split_skipBlanks {cursor : Cursor} {text before : List Char}
    (split : text = before ++ cursor.rest) (offset : cursor.offset = byteLength before) :
    ∃ before', text = before' ++ cursor.skipBlanks.rest ∧
      cursor.skipBlanks.offset = byteLength before' ∧ visible before' = visible before := by
  let blanks := cursor.rest.takeWhile (· == ' ')
  have hidden : visible blanks = [] := visible_takeWhile_blank cursor.rest
  refine ⟨before ++ blanks, ?_, ?_, ?_⟩
  · rw [List.append_assoc, split]
    exact congrArg _ List.takeWhile_append_dropWhile.symm
  · rw [byteLength_append, ← offset]
    rfl
  · rw [visible_append, hidden, List.append_nil]

/-- A taken character is visible. -/
theorem Cursor.ne_blank_of_take? {cursor : Cursor} {accepts : Char → Bool} {c : Char}
    (taken : (cursor.take? accepts).1 = some c) : c ≠ ' ' := by
  rintro rfl
  apply cursor.head?_rest_skipBlanks
  rw [(take?_some taken).2.1]
  rfl

/-- A look keeps a track sound. -/
theorem Track.Sound.look {source : Source} {track : Track} (h : track.Sound source)
    (accepts : Char → Bool) : (track.look accepts).Sound source := by
  obtain ⟨source_eq, before, split, offset, taken⟩ := h
  obtain ⟨before', split', offset', same⟩ := track.cursor.split_skipBlanks split offset
  refine ⟨(Cursor.source_take? accepts _).trans source_eq, ?_⟩
  unfold Track.look
  dsimp only
  cases found : (track.cursor.take? accepts).1 with
  | none =>
    rw [Cursor.take?_none found]
    exact ⟨before', split', offset', by rw [same, taken]; exact List.append_nil _⟩
  | some c =>
    obtain ⟨-, rest, behind⟩ := Cursor.take?_some found
    have shown : visible [c] = [c] := by simp [visible, Cursor.ne_blank_of_take? found]
    refine ⟨before' ++ [c], ?_, ?_, ?_⟩
    · rw [List.append_assoc, split', rest]
      rfl
    · rw [behind, offset', byteLength_append]
      rfl
    · rw [visible_append, shown, same, taken]
      rfl

namespace History

/-- The start of a source, with no copies. -/
def start (source : Source) : History := ⟨.start source, []⟩

/-- What a move makes of a history. Where there is no such copy, nothing happens. -/
def move (history : History) : Move → History
  | .look accepts => { history with current := history.current.look accepts }
  | .copy => { history with copies := history.current :: history.copies }
  | .restore index => { history with current := history.copies[index]?.getD history.current }

/-- The history of moves from the start of a source. -/
def ofMoves (source : Source) (moves : List Move) : History := moves.foldl move (start source)

/-- The current track and all copies are sound. -/
def Sound (source : Source) (history : History) : Prop :=
  history.current.Sound source ∧ ∀ track ∈ history.copies, track.Sound source

/-- A move keeps a history sound. -/
theorem Sound.move {source : Source} {history : History} (h : history.Sound source) (m : Move) :
    (history.move m).Sound source := by
  obtain ⟨current, copies⟩ := h
  cases m with
  | look accepts => exact ⟨current.look accepts, copies⟩
  | copy => exact ⟨current, List.forall_mem_cons.mpr ⟨current, copies⟩⟩
  | restore index =>
    refine ⟨?_, copies⟩
    show (history.copies[index]?.getD history.current).Sound source
    cases found : history.copies[index]? with
    | none => exact current
    | some track => exact copies track (List.mem_of_getElem? found)

/-- Moves in a row keep a history sound. -/
theorem Sound.moves {source : Source} {history : History} (h : history.Sound source)
    (moves : List Move) : (moves.foldl History.move history).Sound source := by
  induction moves generalizing history with
  | nil => exact h
  | cons m moves ih => exact ih (h.move m)

/-- A history is sound at the start, where it has no copies. -/
theorem sound_start (source : Source) : (start source).Sound source :=
  ⟨Track.sound_start source, List.forall_mem_nil _⟩

/-- Every history is sound. -/
theorem sound_ofMoves (source : Source) (moves : List Move) :
    (ofMoves source moves).Sound source :=
  (sound_start source).moves moves

end History

/-- The end of the text is where nothing is behind a sound cursor. -/
theorem Track.Sound.size_eq {source : Source} {track : Track} (h : track.Sound source) :
    source.size = track.cursor.offset + byteLength track.cursor.rest := by
  obtain ⟨-, before, split, offset, -⟩ := h
  rw [Source.size, ← byteLength_toList, split, byteLength_append, offset]

/-- A sound cursor has something behind it exactly if its offset is below the size
of the text. -/
theorem Track.Sound.hasRemaining_iff {source : Source} {track : Track} (h : track.Sound source) :
    track.cursor.hasRemaining = true ↔ track.cursor.offset < source.size := by
  have size := h.size_eq
  unfold Cursor.hasRemaining
  cases rest : track.cursor.rest with
  | nil =>
    rw [rest, byteLength_nil] at size
    simp [size]
  | cons c cs =>
    have width := c.utf8Size_pos
    rw [rest, byteLength_cons] at size
    simp
    omega

/-- A look that takes nothing leaves the cursor at the end, or before a visible
character that does not meet the condition. -/
theorem Track.Sound.refused {source : Source} {track : Track} (h : track.Sound source)
    {accepts : Char → Bool} (none : (track.cursor.take? accepts).1 = none) :
    (track.cursor.take? accepts).2.offset = source.size ∨
      ∃ c, (track.cursor.take? accepts).2.current = some c ∧ c ≠ ' ' ∧ accepts c = false := by
  have size := (h.look accepts).size_eq
  obtain ⟨c, rest, _, -, taken⟩ | ⟨refused, taken⟩ := Cursor.take?_cases accepts track.cursor
  · simp [taken] at none
  · have visible := track.cursor.head?_rest_skipBlanks
    unfold Track.look at size
    rw [taken] at size ⊢
    cases current : track.cursor.skipBlanks.current with
    | none =>
      have ended : track.cursor.skipBlanks.rest = [] := List.head?_eq_none_iff.mp current
      rw [ended] at size
      exact .inl size.symm
    | some c =>
      refine .inr ⟨c, rfl, ?_, refused c current⟩
      rintro rfl
      exact visible current

/-- A look that takes nothing takes nothing when repeated, and moves no further. -/
theorem Cursor.take?_take?_of_none {cursor : Cursor} {accepts : Char → Bool}
    (refused : (cursor.take? accepts).1 = none) :
    (cursor.take? accepts).2.take? accepts = (none, (cursor.take? accepts).2) := by
  obtain ⟨c, rest, h, -, taken⟩ | ⟨none, taken⟩ := take?_cases accepts cursor
  · simp [taken] at refused
  · rw [taken]
    have again : cursor.skipBlanks.take? accepts = (Option.none, cursor.skipBlanks.skipBlanks) :=
      take?_of_refuses (by rwa [skipBlanks_skipBlanks])
    rwa [skipBlanks_skipBlanks] at again

/-- No look moves a cursor back. -/
theorem Cursor.offset_le_take? (cursor : Cursor) (accepts : Char → Bool) :
    cursor.offset ≤ (cursor.take? accepts).2.offset := by
  have blanks := cursor.offset_le_skipBlanks
  obtain ⟨c, rest, h, -, taken⟩ | ⟨-, taken⟩ := take?_cases accepts cursor
  · rw [taken]
    exact Nat.le_trans blanks (Nat.le_add_right _ _)
  · rw [taken]
    exact blanks

/-- What is true of a cursor of a source, and what a further look does. -/
structure Track.Invariant (source : Source) (track : Track) : Prop where
  /-- The offset lies between two characters of the text. -/
  boundary : (String.Pos.Raw.mk track.cursor.offset).IsValid source.text
  /-- The offset does not exceed the size of the text. -/
  bounded : track.cursor.offset ≤ source.size
  /-- The characters taken are the visible ones before the offset. -/
  taken : ∃ before, source.text.toList = before ++ track.cursor.rest ∧
    track.cursor.offset = byteLength before ∧ track.taken = visible before
  /-- Something is behind the cursor exactly if its offset is not the size. -/
  remaining : track.cursor.hasRemaining = true ↔ track.cursor.offset < source.size
  /-- Something is behind the cursor exactly if there is a current character. -/
  current : track.cursor.hasRemaining = true ↔ ∃ c, track.cursor.current = some c
  /-- A look does not move the cursor back. -/
  forward : ∀ accepts, track.cursor.offset ≤ (track.cursor.take? accepts).2.offset
  /-- A look takes a visible character that meets its condition. -/
  found : ∀ accepts c, (track.cursor.take? accepts).1 = some c → c ≠ ' ' ∧ accepts c = true
  /-- A look that takes nothing stops at the end or before a visible character that
  does not meet its condition. -/
  refused : ∀ accepts, (track.cursor.take? accepts).1 = none →
    (track.cursor.take? accepts).2.offset = source.size ∨
      ∃ c, (track.cursor.take? accepts).2.current = some c ∧ c ≠ ' ' ∧ accepts c = false
  /-- The same look again takes nothing either and does not move. -/
  again : ∀ accepts, (track.cursor.take? accepts).1 = none →
    (track.cursor.take? accepts).2.take? accepts = (none, (track.cursor.take? accepts).2)

/-- Whatever was done with a cursor, it lies in its text, and what was taken on the
way to it is what is visible before it. -/
theorem History.invariant_ofMoves (source : Source) (moves : List Move) :
    (ofMoves source moves).current.Invariant source := by
  have sound := (sound_ofMoves source moves).1
  have size := sound.size_eq
  obtain ⟨before, split, offset, taken⟩ := sound.split
  exact {
    boundary := offset ▸ isValid_byteLength split
    bounded := by omega
    taken := ⟨before, split, offset, taken⟩
    remaining := sound.hasRemaining_iff
    current := by rw [Cursor.hasRemaining_eq_isSome_current, Option.isSome_iff_exists]
    forward := Cursor.offset_le_take? _
    found := fun accepts c found => ⟨Cursor.ne_blank_of_take? found, (Cursor.take?_some found).1⟩
    refused := fun accepts none => sound.refused none
    again := fun accepts none => Cursor.take?_take?_of_none none }

end Calculator
