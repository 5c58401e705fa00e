import Calculator.Proofs.Session.Batch

/-!
# Files in two parts

A file is worked through line by line, so a file that is cut behind a line feed
can be worked through in two parts. The second part counts its lines from one;
as a part of the whole its numbers are larger by the lines before it, and nothing
else about it changes. If the first part ends at a bad line, the second is not
looked at.
-/

namespace Calculator

/-- The lines of two texts in a row are those of the first and then those of the
second, if the first has nothing behind its last line feed. -/
theorem lines_append_of_seam {a : List Char} (b : List Char)
    (seam : a = [] ∨ a.getLast? = some '\n') : lines (a ++ b) = lines a ++ lines b := by
  rcases seam with rfl | seam
  · rfl
  · obtain ⟨before, rfl⟩ := List.getLast?_eq_some_iff.mp seam
    rw [List.append_assoc, List.singleton_append, lines_append]

/-- A text has a line for every line feed, if there is nothing behind the last
one. -/
theorem length_lines_of_seam {a : List Char} (seam : a = [] ∨ a.getLast? = some '\n') :
    (lines a).length = a.count '\n' := by
  rcases seam with rfl | seam
  · rfl
  · obtain ⟨before, rfl⟩ := List.getLast?_eq_some_iff.mp seam
    rw [lines, length_linesAfter]
    simp

/-- A value of a field behind some more lines: a line number grows by them. -/
def FieldValue.later (count : Nat) : FieldValue → FieldValue
  | .count n => .count (n + count)
  | other => other

/-- A record behind some more lines. Only the program itself counts lines; what
is recorded while a line is read has places in the line. -/
def Record.later (count : Nat) (record : Record) : Record :=
  if record.target = "arith" then
    { record with fields := record.fields.map fun (name, value) => (name, value.later count) }
  else record

/-- A line that was worked through has a larger number behind more lines. -/
theorem Record.later_evaluatedRecord (count number : Nat) :
    (evaluatedRecord number).later count = evaluatedRecord (number + count) :=
  if_pos rfl

/-- A record about the reading of a line is the same behind more lines. -/
theorem Record.later_event (count : Nat) (event : Event) :
    event.record.later count = event.record := by
  have target : event.record.target = Event.target := by cases event <;> rfl
  have elsewhere : Event.target ≠ "arith" := by decide
  rw [later, target, if_neg elsewhere]

/-- Two ways to end at lines of a file that differ in the lines before: both end
well, or at the same fault of the same line under a larger number. -/
inductive Ending.Later (file : String) (count : Nat) : Ending → Ending → Prop where
  /-- Both end well. -/
  | success : Later file count .success .success
  /-- Both end at the same line. -/
  | syntaxError (number : Nat) (line : List Char) (fault : Fault) :
    Later file count (.syntaxError ⟨lineSource file number line, fault⟩)
      (.syntaxError ⟨lineSource file (number + count) line, fault⟩)

/-- Endings that differ in the lines before have the same status. -/
theorem Ending.Later.status_eq {file : String} {count : Nat} {a b : Ending}
    (h : Later file count a b) : b.status = a.status := by
  cases h <;> rfl

/-- Two reports on lines of a file that differ in the lines before. -/
structure Report.Later (file : String) (count : Nat) (a b : Report) : Prop where
  /-- The same is printed. -/
  printed : b.printed = a.printed
  /-- The same is recorded, under larger numbers. -/
  records : b.records = a.records.map (Record.later count)
  /-- They end in the same way. -/
  ending : Ending.Later file count a.ending b.ending

namespace Report

/-- Doing nothing is the same behind more lines. -/
theorem later_silent (file : String) (count : Nat) : Later file count silent silent :=
  ⟨rfl, rfl, .success⟩

/-- Reports in a row differ in the lines before if each of them does. -/
theorem Later.andThen {file : String} {count : Nat} {a b : Report} {next next' : Unit → Report}
    (first : Later file count a b) (second : Later file count (next ()) (next' ())) :
    Later file count (a.andThen next) (b.andThen next') := by
  obtain ⟨_, log, ending⟩ := a
  obtain ⟨shown, _, ending'⟩ := b
  obtain ⟨same, later, ends⟩ := first
  dsimp only at same later ends
  subst same later
  cases ends with
  | success =>
    refine ⟨?_, ?_, second.ending⟩
    · show shown ++ (next' ()).printed = shown ++ (next ()).printed
      rw [second.printed]
    · show log.map (Record.later count) ++ (next' ()).records =
        (log ++ (next ()).records).map (Record.later count)
      rw [second.records, List.map_append]
  | syntaxError number line fault => exact ⟨rfl, rfl, .syntaxError number line fault⟩

end Report

/-- Reading a line and printing something about it is the same behind more lines,
but for the name of the line. -/
theorem Source.session_later (file : String) (count number : Nat) (line : List Char)
    (print : Expr → List String) :
    Report.Later file count ((lineSource file number line).session print)
      ((lineSource file (number + count) line).session print) := by
  have same : (lineSource file (number + count) line).text = (lineSource file number line).text :=
    rfl
  have recorded : (lineSource file (number + count) line).trail.map Event.record =
      ((lineSource file number line).trail.map Event.record).map (Record.later count) := by
    rw [Source.records_congr same, List.map_map]
    exact List.map_congr_left fun event _ => (Record.later_event count event).symm
  unfold session
  cases outcome : Calculator.parse (.ofList line) with
  | ok tree =>
    have named : ∀ n, (lineSource file n line).parse = .ok tree := fun _ =>
      parse_eq_ok_of_text outcome
    rw [named, named]
    exact ⟨rfl, recorded, .success⟩
  | error error =>
    have named : ∀ n, (lineSource file n line).parse =
        .error ⟨lineSource file n line, error.fault⟩ := fun _ => parse_eq_error_of_text outcome
    rw [named, named]
    exact ⟨rfl, recorded, .syntaxError number line error.fault⟩

/-- Working through a line is the same behind more lines. -/
theorem lineSession_later (file : String) (count number : Nat) (line : List Char) :
    Report.Later file count (lineSession file number line)
      (lineSession file (number + count) line) := by
  unfold lineSession
  split
  · exact Report.later_silent file count
  · exact (Source.session_later file count number line _).andThen
      ⟨rfl, by simp [Record.later_evaluatedRecord], .success⟩

/-- Working through lines is the same behind more lines. -/
theorem linesSession_later (file : String) (count number : Nat) (lines : List (List Char)) :
    Report.Later file count (linesSession file number lines)
      (linesSession file (number + count) lines) := by
  induction lines generalizing number with
  | nil => exact Report.later_silent file count
  | cons line lines ih =>
    have rest := ih (number + 1)
    rw [Nat.add_right_comm] at rest
    exact (lineSession_later file count number line).andThen rest

/-- Records are as detailed behind more lines. -/
theorem Record.upTo_map_later (verbosity : Verbosity) (count : Nat) (records : List Record) :
    upTo verbosity (records.map (later count)) = (upTo verbosity records).map (later count) := by
  have level : ∀ record : Record, (record.later count).level = record.level := by
    intro record
    unfold later
    split <;> rfl
  unfold upTo
  rw [List.filter_map]
  congr 2
  funext record
  simp [level]

/-- Where lines of a file are worked through up to a bad one, that is what the
report ends with, else it ends well. -/
theorem linesSession_ends (file : String) (number : Nat) (lines : List (List Char)) :
    (linesSession file number lines).ending = .success ∨
      (linesSession file number lines).ending.status = 65 := by
  have later := (linesSession_later file 0 number lines).ending
  cases ending : (linesSession file number lines).ending with
  | success => exact .inl rfl
  | syntaxError error => exact .inr rfl
  | unreadable file fault => rw [ending] at later; cases later
  | misuse reason => rw [ending] at later; cases later

/-- Where the first part of a text has nothing behind its last line feed, working
through the text is working through the first part, and then through the lines of
the second under larger numbers. -/
theorem textSession_append (file : String) {first : String} (second : String)
    (seam : first.toList = [] ∨ first.toList.getLast? = some '\n') :
    textSession file (first ++ second) = (textSession file first).andThen fun _ =>
      linesSession file (1 + first.toList.count '\n') (lines second.toList) := by
  rw [textSession, String.toList_append, lines_append_of_seam _ seam, linesSession_append,
    length_lines_of_seam seam]
  rfl

/-- The report on a whole is one report and then another on lines that come later:
what is printed and logged is joined, the later lines have larger numbers, and the
whole ends as the later lines do. -/
structure Report.Joins (file : String) (count : Nat) (before behind whole : Report) : Prop where
  /-- What is printed is joined. -/
  stdout : whole.stdout = before.stdout ++ behind.stdout
  /-- The status is that of the later lines. -/
  status : whole.ending.status = behind.ending.status
  /-- The ending is that of the later lines, under a larger number. -/
  ending : Ending.Later file count behind.ending whole.ending
  /-- The logs are joined, with larger numbers in the second. -/
  log : ∀ verbosity, whole.log verbosity = before.log verbosity ++
    ((Record.upTo verbosity behind.records).map (Record.later count)).map Record.line

/-- A file in two parts, the first of which is empty or ends in a line feed: if
the first part ends at a bad line, that is all. Else the report is that on the
first part and then that on the second, with larger line numbers. -/
theorem batchReport_append (file first second : String)
    (seam : first.toList = [] ∨ first.toList.getLast? = some '\n') :
    ((batchReport file first.toUTF8).ending.status = 65 →
        batchReport file (first.toUTF8 ++ second.toUTF8) = batchReport file first.toUTF8) ∧
      ((batchReport file first.toUTF8).ending.status ≠ 65 →
        Report.Joins file (first.toList.count '\n') (batchReport file first.toUTF8)
          (batchReport file second.toUTF8)
          (batchReport file (first.toUTF8 ++ second.toUTF8))) := by
  have joined : first.toUTF8 ++ second.toUTF8 = (first ++ second).toUTF8 := by simp
  rw [joined, batchReport_toUTF8, batchReport_toUTF8, batchReport_toUTF8,
    textSession_append file second seam]
  generalize first.toList.count '\n' = count
  have later := linesSession_later file count 1 (lines second.toList)
  constructor
  · intro bad
    have notSuccess : (textSession file first).ending ≠ .success := fun success => by
      rw [success] at bad
      contradiction
    exact Report.andThen_of_ne_success notSuccess _
  · intro good
    have success : (textSession file first).ending = .success :=
      (linesSession_ends file 1 _).resolve_right good
    rw [Report.andThen, success]
    refine ⟨?_, later.ending.status_eq, later.ending, fun verbosity => ?_⟩
    · show Report.stdout ⟨_ ++ _, _, _⟩ = _
      rw [later.printed]
      simp [Report.stdout, textSession]
    · show Report.log ⟨_, _ ++ _, _⟩ verbosity = _
      rw [later.records]
      simp only [Report.log, Record.upTo_append, Record.upTo_map_later, List.map_append]
      rfl

/-- Behind an empty line and a line that ends in a carriage return, the lines of
a second part are numbered from four on, the bad one too. -/
theorem batchReport_append_of_bad_line :
    let first := "1\r\n\n2 + 2\n"
    let second := " \n3\nx\n"
    let whole := batchReport "sums" (first.toUTF8 ++ second.toUTF8)
    (first.toList = [] ∨ first.toList.getLast? = some '\n') ∧
      (batchReport "sums" first.toUTF8).ending.status ≠ 65 ∧
      Report.Joins "sums" 3 (batchReport "sums" first.toUTF8) (batchReport "sums" second.toUTF8)
        whole ∧
      whole.stdout = "1 = 1\n(2 + 2) = 4\n3 = 3\n" ∧ whole.ending.status = 65 ∧
      whole.log 1 = ["INFO arith: evaluated line=1", "INFO arith: evaluated line=3",
        "INFO arith: evaluated line=5"] := by
  have seam : "1\r\n\n2 + 2\n".toList = [] ∨
      "1\r\n\n2 + 2\n".toList.getLast? = some '\n' := by decide
  have good : (batchReport "sums" "1\r\n\n2 + 2\n".toUTF8).ending.status ≠ 65 := by
    decide +kernel
  have joins := (batchReport_append "sums" "1\r\n\n2 + 2\n" " \n3\nx\n" seam).2 good
  refine ⟨seam, good, joins, joins.stdout.trans ?_, joins.status.trans ?_, (joins.log 1).trans ?_⟩
  · decide +kernel
  · decide +kernel
  · decide +kernel

end Calculator
