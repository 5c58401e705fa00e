import Calculator.Proofs.Reading.Walk

/-!
# Reading and the grammar

A state stands for what has been read: every part of it was written by the
grammar, and `State.Written` says how the parts make up the text. One character
keeps that relation, so a text that is read as an expression is derived as it.
In the other direction whatever the grammar derives can be walked over from any
state in which an operand may start, and leaves there the expression it writes.
Together the two say that a text is read as a tree exactly if the grammar derives
the tree from its visible characters.
-/

namespace Calculator

/-- The characters that write a waiting operand and the operator behind it. -/
inductive Pending.Written (tight : Bool) (rule : Rule) : Option Pending → List Char → Prop where
  /-- Nothing waits. -/
  | none : Written tight rule none []
  /-- An operand of the rule and an operator. -/
  | some {cs : List Char} {left : Expr} {op : Operator} (binds : op.bindsTight = tight)
    (operand : Derives Literal.value rule cs left) :
    Written tight rule (some ⟨left, op⟩) (cs ++ [op.symbol])

/-- The characters that write what stands before an operand. -/
inductive Context.Written : Context → List Char → Prop where
  /-- A waiting sum, a waiting product, and signs. -/
  | intro {sum product : Option Pending} {signs : Nat} {a b : List Char}
    (loose : Pending.Written false .expression sum a)
    (tight : Pending.Written true .term product b) :
    Written ⟨sum, product, signs⟩ (a ++ b ++ List.replicate signs '-')

/-- The characters that write the current operand as far as it is read. -/
inductive Phase.Written : Phase → List Char → Prop where
  /-- Nothing of it. -/
  | awaiting : Written .awaiting []
  /-- A literal. -/
  | literal {l : Literal} (nonempty : l.whole.toList ≠ []) : Written (.literal l) l.spelling
  /-- A complete operand. -/
  | complete {cs : List Char} {operand : Expr} (factor : Derives Literal.value .factor cs operand) :
    Written (.complete operand) cs

/-- The characters that write the beginnings of open groups. -/
inductive OpenGroup.Written : List OpenGroup → List Char → Prop where
  /-- No group is open. -/
  | nil : Written [] []
  /-- A group inside the others. -/
  | cons {context : Context} {groups : List OpenGroup} {a b : List Char}
    (outer : Written groups a) (opening : Nat) (before : context.Written b) :
    Written (⟨opening, context⟩ :: groups) (a ++ b ++ ['('])

/-- The characters that a state stands for. -/
inductive State.Written : State → List Char → Prop where
  /-- The open groups, what stands before the operand, and the operand. -/
  | intro {groups : List OpenGroup} {context : Context} {phase : Phase} {a b c : List Char}
    (outer : OpenGroup.Written groups a) (before : context.Written b) (operand : phase.Written c) :
    Written ⟨groups, context, phase⟩ (a ++ b ++ c)

/-- Behind a waiting product nothing stands before the operand. -/
theorem Context.Written.withoutSigns {sum product : Option Pending} {a b : List Char}
    (loose : Pending.Written false .expression sum a)
    (tight : Pending.Written true .term product b) :
    Context.Written ⟨sum, product, 0⟩ (a ++ b) := by
  have written : Context.Written ⟨sum, product, 0⟩ (a ++ b ++ List.replicate 0 '-') :=
    .intro loose tight
  rwa [List.replicate_zero, List.append_nil] at written

/-- Nothing stands before the operand at the start of a group. -/
theorem Context.written_empty : Context.empty.Written [] := .withoutSigns .none .none

/-- Nothing has been read at the start. -/
theorem State.written_start : State.start.Written [] :=
  .intro .nil Context.written_empty .awaiting

/-- Signs before a factor negate it as often. -/
theorem Derives.negated {cs : List Char} {e : Expr} (h : Derives Literal.value .factor cs e)
    (signs : Nat) :
    Derives Literal.value .factor (List.replicate signs '-' ++ cs) (e.negated signs) := by
  induction signs with
  | zero => exact h
  | succ signs ih => exact .negate ih

/-- An operand that is read is a factor. -/
theorem Phase.Written.factor {phase : Phase} {cs : List Char} {operand : Expr}
    (h : phase.Written cs) (read : phase.operand? = some operand) :
    Derives Literal.value .factor cs operand := by
  cases h with
  | awaiting => simp [operand?] at read
  | literal nonempty =>
    obtain rfl := Option.some.inj read
    exact .number _ nonempty
  | complete factor =>
    obtain rfl := Option.some.inj read
    exact factor

/-- A factor behind a waiting product completes a term. -/
theorem Pending.Written.term {product : Option Pending} {b c : List Char} {e : Expr}
    (h : Written true .term product b) (factor : Derives Literal.value .factor c e) :
    Derives Literal.value .term (b ++ c) (Pending.join product e) := by
  cases h with
  | none => exact .factor factor
  | some binds operand =>
    rw [List.append_assoc]
    exact .product binds operand factor

/-- A term behind a waiting sum completes an expression. -/
theorem Pending.Written.expression {sum : Option Pending} {a c : List Char} {e : Expr}
    (h : Written false .expression sum a) (term : Derives Literal.value .term c e) :
    Derives Literal.value .expression (a ++ c) (Pending.join sum e) := by
  cases h with
  | none => exact .term term
  | some binds operand =>
    rw [List.append_assoc]
    exact .sum binds operand term

/-- An operand behind its context completes an expression. -/
theorem Context.Written.expression {context : Context} {b c : List Char} {operand : Expr}
    (h : context.Written b) (factor : Derives Literal.value .factor c operand) :
    Derives Literal.value .expression (b ++ c) (context.expression operand) := by
  cases h with
  | @intro sum product signs a b loose tight =>
    have complete := loose.expression (tight.term (factor.negated signs))
    rw [List.append_assoc, List.append_assoc]
    exact complete

/-- An operator behind an operand leaves both before the next operand. -/
theorem Context.Written.extend {context : Context} {b c : List Char} {operand : Expr}
    (h : context.Written b) (factor : Derives Literal.value .factor c operand) (op : Operator) :
    (context.extend operand op).Written (b ++ c ++ [op.symbol]) := by
  unfold Context.extend
  split
  · rename_i binds
    cases h with
    | @intro sum product signs a b loose tight =>
      have term := tight.term (factor.negated signs)
      have written := Context.Written.withoutSigns loose (.some binds term)
      simp only [List.append_assoc] at written ⊢
      exact written
  · rename_i binds
    have loose := Pending.Written.some (Bool.eq_false_iff.mpr binds) (h.expression factor)
    have written := Context.Written.withoutSigns loose .none
    rwa [List.append_nil] at written

/-- One more sign stands at the end. -/
theorem Context.Written.negate {context : Context} {b : List Char} (h : context.Written b) :
    context.negate.Written (b ++ ['-']) := by
  cases h with
  | @intro sum product signs a b loose tight =>
    rw [List.append_assoc, ← List.replicate_succ']
    exact .intro loose tight

/-- A literal that is extended still has a digit before its point. -/
theorem Literal.whole_push_ne_nil {l : Literal} (h : l.whole.toList ≠ []) (d : Digit) :
    (l.push d).whole.toList ≠ [] := by
  obtain ⟨whole, fraction⟩ := l
  cases fraction with
  | none => simp [push]
  | some digits => exact h

/-- One character keeps what a state stands for. -/
theorem State.Advance.written {behind : Nat} {state next : State} {c : Char} {cs : List Char}
    (advance : Advance behind state c next) (h : state.Written cs) :
    next.Written (cs ++ [c]) := by
  cases advance with
  | firstDigit d =>
    obtain ⟨outer, before, operand⟩ := h
    cases operand with
    | awaiting =>
      have literal : Phase.Written (.literal (.ofDigit d)) [d.toChar] :=
        .literal (by simp [Literal.ofDigit])
      have written := State.Written.intro outer before literal
      simpa using written
  | digit l d =>
    obtain ⟨outer, before, operand⟩ := h
    cases operand with
    | literal nonempty =>
      have literal := Phase.Written.literal (Literal.whole_push_ne_nil nonempty d)
      have written := State.Written.intro outer before literal
      rwa [Literal.spelling_push, ← List.append_assoc] at written
  | @point _ _ l first =>
    obtain ⟨outer, before, operand⟩ := h
    cases operand with
    | literal nonempty =>
      have literal : Phase.Written (.literal l.withPoint) l.withPoint.spelling :=
        .literal nonempty
      have written := State.Written.intro outer before literal
      rwa [Literal.spelling_withPoint first, ← List.append_assoc] at written
  | sign =>
    obtain ⟨outer, before, operand⟩ := h
    cases operand with
    | awaiting =>
      have written := State.Written.intro outer before.negate .awaiting
      simpa using written
  | opening =>
    obtain ⟨outer, before, operand⟩ := h
    cases operand with
    | awaiting =>
      have group := outer.cons (behind - 1) before
      have written := State.Written.intro group Context.written_empty .awaiting
      simpa using written
  | closing read =>
    obtain ⟨groups, context, operand⟩ := h
    cases groups with
    | cons outer _ before =>
      have content := context.expression (operand.factor read)
      have written := State.Written.intro outer before (.complete (.group content))
      simpa using written
  | operator op read =>
    obtain ⟨outer, before, operand⟩ := h
    have written := State.Written.intro outer (before.extend (operand.factor read) op) .awaiting
    simpa using written

/-- A walk keeps what a state stands for. -/
theorem State.Written.walk {state next : State} {cs : List Char} (h : state.Written cs)
    {places : List (Char × Nat)} (walked : state.walk? places = some next) :
    next.Written (cs ++ places.map Prod.fst) := by
  induction places generalizing state cs with
  | nil =>
    obtain rfl := Option.some.inj walked
    simpa using h
  | cons place places ih =>
    obtain ⟨c, behind⟩ := place
    obtain ⟨middle, first, walked⟩ := Option.bind_eq_some_iff.mp walked
    have written := ih ((advance?_eq_some.mp first).written h) walked
    simpa using written

/-- Digits extend a literal one by one. -/
theorem State.reaches_digits (groups : List OpenGroup) (context : Context) (l : Literal)
    (digits : List Digit) :
    Reaches ⟨groups, context, .literal l⟩ (digits.map Digit.toChar)
      ⟨groups, context, .literal (digits.foldl Literal.push l)⟩ := by
  induction digits generalizing l with
  | nil => exact .refl _
  | cons d digits ih => exact .cons (fun _ => .digit l d) (ih (l.push d))

/-- Digits pushed to a literal without a point stand before its point. -/
theorem Literal.foldl_push_whole (digits : List Digit) (whole : Array Digit) :
    digits.foldl push ⟨whole, none⟩ = ⟨whole ++ digits, none⟩ := by
  induction digits generalizing whole with
  | nil => simp
  | cons d digits ih =>
    rw [List.foldl_cons, show push ⟨whole, none⟩ d = ⟨whole.push d, none⟩ from rfl, ih]
    simp

/-- Digits pushed to a literal with a point stand behind it. -/
theorem Literal.foldl_push_fraction (digits : List Digit) (whole fraction : Array Digit) :
    digits.foldl push ⟨whole, some fraction⟩ = ⟨whole, some (fraction ++ digits)⟩ := by
  induction digits generalizing fraction with
  | nil => simp
  | cons d digits ih =>
    rw [List.foldl_cons, show push ⟨whole, some fraction⟩ d = ⟨whole, some (fraction.push d)⟩
      from rfl, ih]
    simp

/-- A literal is read as itself where an operand may start. -/
theorem State.reaches_literal (groups : List OpenGroup) (context : Context) {l : Literal}
    (nonempty : l.whole.toList ≠ []) :
    Reaches ⟨groups, context, .awaiting⟩ l.spelling ⟨groups, context, .literal l⟩ := by
  obtain ⟨⟨whole⟩, fraction⟩ := l
  cases whole with
  | nil => contradiction
  | cons d digits =>
    have start := State.reaches_digits groups context (.ofDigit d) digits
    have whole : digits.foldl Literal.push (.ofDigit d) = ⟨⟨d :: digits⟩, none⟩ := by
      rw [show Literal.ofDigit d = ⟨#[d], none⟩ from rfl, Literal.foldl_push_whole]
      simp
    rw [whole] at start
    have integer := Reaches.cons (fun _ => .firstDigit d) start
    cases fraction with
    | none => simpa [Literal.spelling] using integer
    | some fraction =>
      have digits' := State.reaches_digits groups context ⟨⟨d :: digits⟩, some #[]⟩ fraction.toList
      rw [Literal.foldl_push_fraction] at digits'
      have point : ∀ behind, Advance behind ⟨groups, context, .literal ⟨⟨d :: digits⟩, none⟩⟩ '.'
          ⟨groups, context, .literal ⟨⟨d :: digits⟩, some #[]⟩⟩ := fun _ => .point rfl
      have all := integer.append (.cons point digits')
      simpa [Literal.spelling] using all

/-- No digit is a blank. -/
theorem visible_digits (digits : List Digit) :
    visible (digits.map Digit.toChar) = digits.map Digit.toChar := by
  apply List.filter_eq_self.mpr
  intro c member
  obtain ⟨d, -, rfl⟩ := List.mem_map.mp member
  simp [Digit.toChar_ne]

/-- No digit and no point is a blank. -/
theorem Literal.visible_spelling (l : Literal) : visible l.spelling = l.spelling := by
  obtain ⟨whole, fraction⟩ := l
  unfold spelling
  rw [visible_append, visible_digits]
  cases fraction with
  | none => rfl
  | some fraction =>
    show _ ++ '.' :: visible (fraction.toList.map Digit.toChar) = _
    rw [visible_digits]

/-- Behind the characters of a rule, read where it may start, the operand that
is reached completes the expression that they write. -/
def Rule.Completes (rule : Rule) (cs : List Char) (e : Expr) : Prop :=
  match rule with
  | .factor => ∀ (groups : List OpenGroup) (context : Context),
    ∃ signs phase operand, phase.operand? = some operand ∧
      State.Reaches ⟨groups, context, .awaiting⟩ cs
        ⟨groups, { context with signs := context.signs + signs }, phase⟩ ∧
      operand.negated signs = e
  | .term => ∀ (groups : List OpenGroup) (sum : Option Pending),
    ∃ product signs phase operand, phase.operand? = some operand ∧
      State.Reaches ⟨groups, ⟨sum, none, 0⟩, .awaiting⟩ cs
        ⟨groups, ⟨sum, product, signs⟩, phase⟩ ∧
      Context.term ⟨sum, product, signs⟩ operand = e
  | .expression => ∀ groups : List OpenGroup,
    ∃ context phase operand, phase.operand? = some operand ∧
      State.Reaches ⟨groups, .empty, .awaiting⟩ cs ⟨groups, context, phase⟩ ∧
      context.expression operand = e

/-- A literal completes a factor. -/
theorem Literal.completes {l : Literal} (nonempty : l.whole.toList ≠ []) :
    Rule.factor.Completes l.spelling (.number l.value) := by
  intro groups context
  exact ⟨0, .literal l, .number l.value, rfl, State.reaches_literal groups context nonempty, rfl⟩

/-- A group completes a factor. -/
theorem Rule.Completes.group {cs : List Char} {e : Expr}
    (content : Rule.expression.Completes cs e) : Rule.factor.Completes ('(' :: cs ++ [')']) e := by
  intro groups context
  refine ⟨0, .complete e, e, rfl, ?_, rfl⟩
  intro places text
  obtain ⟨front, close, rfl, hfront, hclose⟩ := List.map_eq_append_iff.mp text
  obtain ⟨⟨_, behind⟩, inner, rfl, rfl, hinner⟩ := List.map_eq_cons_iff.mp hfront
  obtain ⟨context', phase, operand, read, reaches, rfl⟩ := content (⟨behind - 1, context⟩ :: groups)
  have closes : State.Reaches ⟨⟨behind - 1, context⟩ :: groups, context', phase⟩ [')']
      ⟨groups, context, .complete (context'.expression operand)⟩ :=
    .of_advance fun _ => .closing read
  have opens : State.advance? ⟨groups, context, .awaiting⟩ '(' behind =
      some ⟨⟨behind - 1, context⟩ :: groups, .empty, .awaiting⟩ :=
    State.advance?_eq_some.mpr .opening
  rw [List.cons_append, State.walk?, opens, Option.bind_some, State.walk?_append,
    reaches inner hinner]
  exact closes close hclose

/-- A minus sign before a factor completes a factor. -/
theorem Rule.Completes.negate {cs : List Char} {e : Expr}
    (factor : Rule.factor.Completes cs e) : Rule.factor.Completes ('-' :: cs) (.negate e) := by
  intro groups context
  obtain ⟨signs, phase, operand, read, reaches, rfl⟩ := factor groups context.negate
  refine ⟨signs + 1, phase, operand, read, .cons (fun _ => .sign) ?_, rfl⟩
  have count : context.signs + 1 + signs = context.signs + (signs + 1) := by omega
  rw [← count]
  exact reaches

/-- A factor completes a term. -/
theorem Rule.Completes.single_factor {cs : List Char} {e : Expr}
    (factor : Rule.factor.Completes cs e) : Rule.term.Completes cs e := by
  intro groups sum
  obtain ⟨signs, phase, operand, read, reaches, rfl⟩ := factor groups ⟨sum, none, 0⟩
  exact ⟨none, 0 + signs, phase, operand, read, reaches, by rw [Nat.zero_add]; rfl⟩

/-- A factor behind a tight operator completes a term. -/
theorem Rule.Completes.product {a b : List Char} {left right : Expr} {op : Operator}
    (binds : op.bindsTight = true) (first : Rule.term.Completes a left)
    (last : Rule.factor.Completes b right) :
    Rule.term.Completes (a ++ op.symbol :: b) (.binary op left right) := by
  intro groups sum
  obtain ⟨product, signs, phase, operand, read, reaches, rfl⟩ := first groups sum
  let left := Context.term ⟨sum, product, signs⟩ operand
  obtain ⟨signs', phase', operand', read', reaches', rfl⟩ :=
    last groups ⟨sum, some ⟨left, op⟩, 0⟩
  have extended : Context.extend ⟨sum, product, signs⟩ operand op = ⟨sum, some ⟨left, op⟩, 0⟩ := by
    simp [Context.extend, binds, left]
  refine ⟨some ⟨left, op⟩, 0 + signs', phase', operand', read', ?_, by rw [Nat.zero_add]; rfl⟩
  refine reaches.append (.cons (fun _ => .operator op read) ?_)
  rw [extended]
  exact reaches'

/-- A term completes an expression. -/
theorem Rule.Completes.single_term {cs : List Char} {e : Expr}
    (term : Rule.term.Completes cs e) : Rule.expression.Completes cs e := by
  intro groups
  obtain ⟨product, signs, phase, operand, read, reaches, rfl⟩ := term groups none
  exact ⟨⟨none, product, signs⟩, phase, operand, read, reaches, rfl⟩

/-- A term behind a loose operator completes an expression. -/
theorem Rule.Completes.sum {a b : List Char} {left right : Expr} {op : Operator}
    (binds : op.bindsTight = false) (first : Rule.expression.Completes a left)
    (last : Rule.term.Completes b right) :
    Rule.expression.Completes (a ++ op.symbol :: b) (.binary op left right) := by
  intro groups
  obtain ⟨context, phase, operand, read, reaches, rfl⟩ := first groups
  let left := context.expression operand
  obtain ⟨product, signs, phase', operand', read', reaches', rfl⟩ :=
    last groups (some ⟨left, op⟩)
  have extended : context.extend operand op = ⟨some ⟨left, op⟩, none, 0⟩ := by
    simp [Context.extend, binds, left]
  refine ⟨⟨some ⟨left, op⟩, product, signs⟩, phase', operand', read', ?_, rfl⟩
  refine reaches.append (.cons (fun _ => .operator op read) ?_)
  rw [extended]
  exact reaches'

/-- What the grammar derives is completed wherever it may stand. -/
theorem Derives.completes {rule : Rule} {cs : List Char} {e : Expr}
    (h : Derives Literal.value rule cs e) : rule.Completes cs e := by
  induction h with
  | number l nonempty => exact l.completes nonempty
  | group _ content => exact content.group
  | negate _ operand => exact operand.negate
  | factor _ single => exact single.single_factor
  | product tight _ _ first last => exact .product tight first last
  | term _ single => exact single.single_term
  | sum loose _ _ first last => exact .sum loose first last

/-- Outside all groups a complete operand ends an expression of the grammar. -/
theorem State.Written.expression {context : Context} {phase : Phase} {cs : List Char}
    {operand : Expr} (h : State.Written ⟨[], context, phase⟩ cs)
    (read : phase.operand? = some operand) :
    Derives Literal.value .expression cs (context.expression operand) := by
  cases h with
  | intro outer before written =>
    cases outer with
    | nil => exact before.expression (written.factor read)

/-- What a text reads as is derived from its visible characters. -/
theorem derives_of_parse {text : String} {tree : Expr} (h : parse text = .ok tree) :
    Derives Literal.value .expression (visible text.toList) tree := by
  obtain ⟨context, phase, operand, complete, rfl, walked⟩ := (parse_eq_ok_iff_walk text tree).mp h
  have written := State.written_start.walk walked
  rw [List.nil_append, map_fst_placed] at written
  exact written.expression complete

/-- What is derived from the visible characters of a text is what it reads as. -/
theorem parse_of_derives {text : String} {tree : Expr}
    (h : Derives Literal.value .expression (visible text.toList) tree) : parse text = .ok tree := by
  obtain ⟨context, phase, operand, complete, reaches, rfl⟩ := h.completes []
  have walked := reaches (placed 0 text.toList) (map_fst_placed 0 _)
  exact (parse_eq_ok_iff_walk text _).mpr ⟨context, phase, operand, complete, rfl, walked⟩

/-- A text reads as a tree exactly if the grammar derives the tree, with the doubles of
the literals for leaves, from its visible characters. Any other text is an error, and no
text has two trees. -/
theorem parse_eq_ok_iff_derives (text : String) :
    (∀ tree, parse text = .ok tree ↔ Derives Literal.value .expression (visible text.toList) tree) ∧
      ((∃ error, parse text = .error error) ↔
        ¬ ∃ tree, Derives Literal.value .expression (visible text.toList) tree) ∧
      ∀ a b, Derives Literal.value .expression (visible text.toList) a →
        Derives Literal.value .expression (visible text.toList) b → a = b := by
  have agree : ∀ tree, parse text = .ok tree ↔
      Derives Literal.value .expression (visible text.toList) tree :=
    fun tree => ⟨derives_of_parse, parse_of_derives⟩
  refine ⟨agree, ?_, ?_⟩
  · constructor
    · rintro ⟨error, failed⟩ ⟨tree, derived⟩
      rw [(agree tree).mpr derived] at failed
      contradiction
    · intro underived
      cases outcome : parse text with
      | ok tree => exact absurd ⟨tree, (agree tree).mp outcome⟩ underived
      | error error => exact ⟨error, rfl⟩
  · intro a b first second
    have same := ((agree a).mpr first).symm.trans ((agree b).mpr second)
    exact Except.ok.inj same

end Calculator
