import Calculator.Proofs.Reading.Derivation
import Calculator.Proofs.Rendering.Numeral

/-!
# Reading the written form of an expression

The written form of an expression with finite leaves derives, as a factor, the
same tree with every leaf read anew: a magnitude as the literal that shows it,
under a negation if the sign bit is set. A leaf that is not finite is where the
reading stops, since everything written before the first such leaf leaves an
operand missing and its letter starts none.
-/

namespace Calculator

/-- A double as it is read from its numeral. -/
def rereadLeaf (x : Float) : Expr :=
  if signBit x then .negate (.number (Literal.ofMagnitude x).value)
  else .number (Literal.ofMagnitude x).value

/-- An expression with every leaf read anew. -/
def Expr.reread : Expr → Expr
  | .number value => rereadLeaf value
  | .negate operand => .negate operand.reread
  | .binary operator left right => .binary operator left.reread right.reread

/-- The numeral of a finite double derives the double read anew. -/
theorem derives_plainNumeral {x : Float} (finite : x.isFinite = true) :
    Derives Literal.value .factor (visible (plainNumeral x)) (rereadLeaf x) := by
  obtain ⟨filled, -, shown⟩ := Literal.ofMagnitude_spec finite
  have magnitude : Derives Literal.value .factor _ _ :=
    .number (Literal.ofMagnitude x) filled.whole
  rw [shown, visible_append, Literal.visible_spelling]
  unfold numeralSign rereadLeaf
  rw [(isNaN_isInf_of_isFinite finite).1]
  cases signBit x with
  | true => exact .negate magnitude
  | false => exact magnitude

/-- Two factors around an operator, in parentheses, are a factor. -/
theorem Derives.binary {a b : List Char} {left right : Expr} (op : Operator)
    (first : Derives Literal.value .factor a left) (last : Derives Literal.value .factor b right) :
    Derives Literal.value .factor ('(' :: (a ++ op.symbol :: b) ++ [')'])
      (.binary op left right) := by
  apply Derives.group
  cases binds : op.bindsTight with
  | true => exact .term (.product binds (.factor first) last)
  | false => exact .sum binds (.term (.factor first)) (.factor last)

/-- The visible characters of the written form of an operation. -/
theorem Expr.visible_characters_binary (op : Operator) (left right : Expr) :
    visible (binary op left right).characters =
      '(' :: (visible left.characters ++ op.symbol :: visible right.characters) ++ [')'] := by
  have symbol : visible (' ' :: op.symbol :: ' ' :: right.characters) =
      op.symbol :: visible right.characters := by
    simp [visible, op.symbol_ne]
  have opening : visible ['('] = ['('] := rfl
  have closing : visible [')'] = [')'] := rfl
  have pieces : (binary op left right).characters =
      ['('] ++ left.characters ++ (' ' :: op.symbol :: ' ' :: right.characters) ++ [')'] := by
    simp [characters]
  rw [pieces, visible_append, visible_append, visible_append, symbol, opening, closing]
  simp

/-- What an expression with finite leaves is written as derives it, read anew. -/
theorem Expr.derives_characters (e : Expr) (finite : ∀ x ∈ e.leaves, x.isFinite = true) :
    Derives Literal.value .factor (visible e.characters) e.reread := by
  induction e with
  | number value => exact derives_plainNumeral (finite value List.mem_cons_self)
  | negate operand ih => exact .negate (ih finite)
  | binary op left right ihl ihr =>
    obtain ⟨first, last⟩ := List.forall_mem_append.mp finite
    rw [visible_characters_binary]
    exact .binary op (ihl first) (ihr last)

/-- The written form of an expression with finite leaves is read as the expression, read
anew. -/
theorem Expr.parse_render_of_isFinite {e : Expr} (finite : ∀ x ∈ e.leaves, x.isFinite = true) :
    parse e.render = .ok e.reread := by
  apply parse_of_derives
  rw [toList_render]
  exact .term (.factor (e.derives_characters finite))

/-- A leaf of an expression where it is written. -/
structure WrittenLeaf where
  /-- The characters before its numeral. -/
  before : List Char
  /-- The leaf. -/
  value : Float

/-- The leaf behind further characters. -/
def WrittenLeaf.behind (cs : List Char) (leaf : WrittenLeaf) : WrittenLeaf :=
  { leaf with before := cs ++ leaf.before }

/-- The leaves of an expression from left to right, where its written form has
them. -/
def Expr.writtenLeaves : Expr → List WrittenLeaf
  | .number value => [⟨[], value⟩]
  | .negate operand => operand.writtenLeaves.map (.behind ['-'])
  | .binary operator left right =>
    left.writtenLeaves.map (.behind ['(']) ++
      right.writtenLeaves.map (.behind ('(' :: left.characters ++ [' ', operator.symbol, ' ']))

/-- The written leaves are the leaves. -/
theorem Expr.writtenLeaves_values (e : Expr) :
    e.writtenLeaves.map WrittenLeaf.value = e.leaves := by
  have kept (cs : List Char) : WrittenLeaf.value ∘ WrittenLeaf.behind cs = WrittenLeaf.value := rfl
  induction e with
  | number value => rfl
  | negate operand ih => rw [writtenLeaves, List.map_map, kept, ih, leaves]
  | binary op left right ihl ihr =>
    rw [writtenLeaves, List.map_append, List.map_map, List.map_map, kept, kept, ihl, ihr, leaves]

/-- The numeral of a written leaf stands behind the characters before it. -/
theorem Expr.characters_of_mem_writtenLeaves {e : Expr} {leaf : WrittenLeaf}
    (member : leaf ∈ e.writtenLeaves) :
    ∃ after, e.characters = leaf.before ++ plainNumeral leaf.value ++ after := by
  induction e generalizing leaf with
  | number value =>
    obtain rfl := List.mem_singleton.mp member
    exact ⟨[], by simp [characters]⟩
  | negate operand ih =>
    obtain ⟨inner, inside, rfl⟩ := List.mem_map.mp member
    obtain ⟨after, split⟩ := ih inside
    exact ⟨after, by simp [characters, split, WrittenLeaf.behind]⟩
  | binary op left right ihl ihr =>
    rcases List.mem_append.mp member with first | last
    · obtain ⟨inner, inside, rfl⟩ := List.mem_map.mp first
      obtain ⟨after, split⟩ := ihl inside
      exact ⟨after ++ ' ' :: op.symbol :: ' ' :: right.characters ++ [')'],
        by simp [characters, split, WrittenLeaf.behind]⟩
    · obtain ⟨inner, inside, rfl⟩ := List.mem_map.mp last
      obtain ⟨after, split⟩ := ihr inside
      exact ⟨after ++ [')'], by simp [characters, split, WrittenLeaf.behind]⟩

/-- Behind characters that stand where an operand may start, one is missing
again. -/
def AwaitsBehind (cs : List Char) : Prop :=
  ∀ (groups : List OpenGroup) (context : Context) (offset : Nat),
    ∃ groups' context', State.walk? ⟨groups, context, .awaiting⟩ (placed offset cs) =
      some ⟨groups', context', .awaiting⟩

/-- Without any characters the operand is still missing. -/
theorem awaitsBehind_nil : AwaitsBehind [] := fun groups context _ => ⟨groups, context, rfl⟩

/-- An operand is missing behind two such parts. -/
theorem AwaitsBehind.append {a b : List Char} (first : AwaitsBehind a) (last : AwaitsBehind b) :
    AwaitsBehind (a ++ b) := by
  intro groups context offset
  obtain ⟨groups', context', walked⟩ := first groups context offset
  obtain ⟨groups'', context'', walked'⟩ := last groups' context' (offset + byteLength a)
  refine ⟨groups'', context'', ?_⟩
  rw [placed_append, State.walk?_append, walked]
  exact walked'

/-- An operand is missing behind a sign. -/
theorem awaitsBehind_sign : AwaitsBehind ['-'] := by
  intro groups context offset
  refine ⟨groups, context.negate, ?_⟩
  exact State.Reaches.of_advance (fun _ => .sign) _ (map_fst_placed offset ['-'])

/-- An operand is missing behind the parenthesis that opens a group. -/
theorem awaitsBehind_opening : AwaitsBehind ['('] := fun groups context offset =>
  ⟨⟨offset + '('.utf8Size - 1, context⟩ :: groups, .empty, rfl⟩

/-- An operand is missing behind an operator and the factor before it. -/
theorem Derives.awaitsBehind {cs : List Char} {e : Expr}
    (factor : Derives Literal.value .factor (visible cs) e)
    (op : Operator) : AwaitsBehind (cs ++ [' ', op.symbol, ' ']) := by
  intro groups context offset
  obtain ⟨signs, phase, operand, complete, reaches, -⟩ := factor.completes groups context
  let behind : Context := { context with signs := context.signs + signs }
  have symbol : State.Reaches ⟨groups, behind, phase⟩ [op.symbol]
      ⟨groups, behind.extend operand op, .awaiting⟩ := .of_advance fun _ => .operator op complete
  have shown : visible (cs ++ [' ', op.symbol, ' ']) = visible cs ++ [op.symbol] := by
    rw [visible_append]
    simp [visible, op.symbol_ne]
  refine ⟨groups, behind.extend operand op, ?_⟩
  exact reaches.append symbol _ ((map_fst_placed offset _).trans shown)

/-- Where the written form has its first leaf that is not finite, an operand is
missing. -/
theorem Expr.awaitsBehind_first {e : Expr} {leaf : WrittenLeaf}
    (first : e.writtenLeaves.find? (fun leaf => !leaf.value.isFinite) = some leaf) :
    AwaitsBehind leaf.before := by
  have kept (cs : List Char) : (fun leaf : WrittenLeaf => !leaf.value.isFinite) ∘ .behind cs =
      fun leaf => !leaf.value.isFinite := rfl
  induction e generalizing leaf with
  | number value =>
    obtain rfl := List.mem_singleton.mp (List.mem_of_find?_eq_some first)
    exact awaitsBehind_nil
  | negate operand ih =>
    rw [writtenLeaves, List.find?_map, kept] at first
    obtain ⟨inner, found, rfl⟩ := Option.map_eq_some_iff.mp first
    exact awaitsBehind_sign.append (ih found)
  | binary op left right ihl ihr =>
    rw [writtenLeaves, List.find?_append, List.find?_map, List.find?_map, kept, kept] at first
    cases found : left.writtenLeaves.find? (fun leaf => !leaf.value.isFinite) with
    | some inner =>
      rw [found] at first
      obtain rfl := Option.some.inj first
      exact awaitsBehind_opening.append (ihl found)
    | none =>
      rw [found] at first
      obtain ⟨inner, found', rfl⟩ := Option.map_eq_some_iff.mp first
      -- no leaf on the left stops the reading, so the left operand is read as a factor
      have finite : ∀ x ∈ left.leaves, x.isFinite = true := by
        intro x member
        rw [← writtenLeaves_values] at member
        obtain ⟨leaf, written, rfl⟩ := List.mem_map.mp member
        simpa using List.find?_eq_none.mp found leaf written
      have operand := (left.derives_characters finite).awaitsBehind op
      exact (awaitsBehind_opening.append operand).append (ihr found')

/-- The sign of a numeral is none or a minus sign. -/
theorem awaitsBehind_numeralSign (x : Float) : AwaitsBehind (numeralSign x) := by
  unfold numeralSign
  split
  · exact awaitsBehind_sign
  · exact awaitsBehind_nil

/-- No operand starts with the letter of a numeral. -/
theorem State.stopsAt_numeralLetter (groups : List OpenGroup) (context : Context) (x : Float)
    (rest : List Char) : StopsAt ⟨groups, context, .awaiting⟩ (numeralLetter x :: rest) := by
  intro c next
  obtain rfl := Option.some.inj next
  unfold numeralLetter
  split
  · exact ⟨by decide, rfl⟩
  · exact ⟨by decide, rfl⟩

/-- A text is refused at the letter of a numeral that stands where an operand is
missing. -/
theorem parse_of_numeralLetter {text : String} {before rest : List Char} {x : Float}
    (split : text.toList = before ++ numeralLetter x :: rest) (awaits : AwaitsBehind before) :
    parse text =
      .error ⟨⟨none, text⟩, .unexpectedCharacter (numeralLetter x) (byteLength before)⟩ := by
  obtain ⟨groups, context, walked⟩ := awaits [] .empty 0
  have walk : State.start.WalksUpTo 0 before (numeralLetter x :: rest)
      ⟨groups, context, .awaiting⟩ := ⟨walked, State.stopsAt_numeralLetter groups context x rest⟩
  let source : Source := ⟨none, text⟩
  have text_eq : source.text.toList = before ++ numeralLetter x :: rest := split
  exact (Source.parse_eq_error text_eq walk _).mpr ⟨rfl, rfl⟩

/-- The written form of an expression reads as the expression with every leaf
read anew, if all leaves are finite. Else it is refused at the letter of the
first leaf that is not. -/
theorem Expr.parse_render (e : Expr) :
    ((∀ x ∈ e.leaves, x.isFinite = true) →
      parse e.render = .ok e.reread ∧
        ∀ x ∈ e.leaves, (Literal.ofMagnitude x).spelling = plainNumeral x.abs) ∧
    ((∃ x ∈ e.leaves, x.isFinite = false) →
      ∃ leaf after, e.writtenLeaves.find? (fun leaf => !leaf.value.isFinite) = some leaf ∧
        e.render.toList =
          leaf.before ++ numeralSign leaf.value ++ numeralLetter leaf.value :: after ∧
        parse e.render = .error ⟨⟨none, e.render⟩, .unexpectedCharacter
          (numeralLetter leaf.value) (byteLength (leaf.before ++ numeralSign leaf.value))⟩) := by
  constructor
  · intro finite
    exact ⟨parse_render_of_isFinite finite,
      fun x member => (Literal.ofMagnitude_spec (finite x member)).2.1⟩
  · rintro ⟨x, member, special⟩
    rw [← writtenLeaves_values] at member
    obtain ⟨leaf, written, rfl⟩ := List.mem_map.mp member
    have some := List.find?_isSome (p := fun leaf => !leaf.value.isFinite) |>.mpr
      ⟨leaf, written, by rw [special]; rfl⟩
    obtain ⟨first, found⟩ := Option.isSome_iff_exists.mp some
    obtain ⟨after, split⟩ := characters_of_mem_writtenLeaves (List.mem_of_find?_eq_some found)
    have special' : first.value.isFinite = false := by simpa using List.find?_some found
    obtain ⟨rest, numeral⟩ := plainNumeral_of_not_isFinite special'
    have letter : e.render.toList = first.before ++ numeralSign first.value ++
        numeralLetter first.value :: (rest ++ after) := by
      rw [toList_render, split, numeral]
      simp
    refine ⟨first, rest ++ after, found, letter, ?_⟩
    exact parse_of_numeralLetter letter
      ((awaitsBehind_first found).append (awaitsBehind_numeralSign first.value))

end Calculator
