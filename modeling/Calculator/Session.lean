import Calculator.TextFile
import Calculator.Arguments
import Calculator.Log
import Calculator.Reading

/-!
# Sessions

A session carries out one request. It leaves a report: the lines printed, the
records of the log, and how it ended. Reports are put in sequence as long as
they end well; the first that does not is the last. A file is therefore worked
through line by line up to the first line that is no expression, and what was
printed before it stays.
-/

namespace Calculator

/-- How a session ends. -/
inductive Ending where
  /-- Everything asked for was done. -/
  | success
  /-- A text was no expression. -/
  | syntaxError (error : SyntaxError)
  /-- A file could not be read. -/
  | unreadable (file : String) (fault : ReadFault)
  /-- The arguments were no request. -/
  | misuse (reason : Misuse)
  deriving DecidableEq, Repr

/-- The exit status of an ending. -/
def Ending.status : Ending → Nat
  | .success => 0
  | .syntaxError _ => 65
  | .unreadable .. => 1
  | .misuse _ => 2

/-- What a session leaves. -/
structure Report where
  /-- The lines printed. -/
  printed : List String
  /-- The records of the log, whatever the verbosity. -/
  records : List Record
  /-- How the session ended. -/
  ending : Ending
  deriving DecidableEq

namespace Report

/-- The report of a session that does nothing. -/
def silent : Report := ⟨[], [], .success⟩

/-- The report of a session that prints lines and does nothing else. -/
def ofLines (lines : List String) : Report := ⟨lines, [], .success⟩

/-- Everything printed, each line with its end. -/
def stdout (report : Report) : String := .join (report.printed.map (· ++ "\n"))

/-- The lines of the log that a verbosity shows. -/
def log (report : Report) (verbosity : Verbosity) : List String :=
  (Record.upTo verbosity report.records).map Record.line

/-- One report and, if it ends well, another after it. -/
def andThen (first : Report) (next : Unit → Report) : Report :=
  match first.ending with
  | .success =>
    let second := next ()
    ⟨first.printed ++ second.printed, first.records ++ second.records, second.ending⟩
  | _ => first

/-- What ends badly is not followed by anything. -/
theorem andThen_of_ne_success {first : Report} (h : first.ending ≠ .success)
    (next : Unit → Report) : first.andThen next = first := by
  unfold andThen
  split
  · contradiction
  · rfl

/-- Reports may be put in sequence in any grouping. -/
theorem andThen_assoc (a : Report) (b c : Unit → Report) :
    (a.andThen b).andThen c = a.andThen fun u => (b u).andThen c := by
  obtain ⟨printed, records, ending⟩ := a
  cases ending with
  | success =>
    simp only [andThen]
    cases h : (b ()).ending <;> simp [List.append_assoc, h]
  | _ => rfl

end Report

/-- Reads a source, logs everything that happens, and prints something about
the expression that it is. -/
def Source.session (source : Source) (print : Expr → List String) : Report :=
  let records := source.trail.map Event.record
  match source.parse with
  | .ok tree => ⟨print tree, records, .success⟩
  | .error error => ⟨[], records, .syntaxError error⟩

/-- The expression that is shown when nothing is asked for. -/
def demonstration : String := "-4.123+5*-6/3-2.*-(2-1)"

/-- What is printed about an expression of a file. -/
def Expr.summary (e : Expr) : String := e.render ++ " = " ++ renderValue e.evaluate

/-- The record of a line that was worked through. -/
def evaluatedRecord (number : Nat) : Record :=
  ⟨.info, "arith", "evaluated", [("line", .count number)]⟩

/-- The source that a line of a file is. -/
def lineSource (file : String) (number : Nat) (line : List Char) : Source :=
  ⟨some (file ++ ":" ++ .ofList (Nat.toDigits 10 number)), .ofList line⟩

/-- Works through one line of a file. A blank line is passed over. -/
def lineSession (file : String) (number : Nat) (line : List Char) : Report :=
  if isBlankLine line then .silent
  else
    ((lineSource file number line).session fun tree => [tree.summary]).andThen fun _ =>
      ⟨[], [evaluatedRecord number], .success⟩

/-- Works through lines of a file, the first of which has the given number. -/
def linesSession (file : String) : Nat → List (List Char) → Report
  | _, [] => .silent
  | number, line :: rest =>
    (lineSession file number line).andThen fun _ => linesSession file (number + 1) rest

/-- Works through the text of a file. -/
def textSession (file : String) (text : String) : Report :=
  linesSession file 1 (lines text.toList)

/-- Carries out a command, with a way to read files. A file is read as a whole
before its first line is worked through. -/
def Command.session (read : String → Except ReadFault ByteArray) : Command → Report
  | .demonstrate =>
    Source.session ⟨none, demonstration⟩ fun tree =>
      ["Result: " ++ renderValue tree.evaluate, tree.render]
  | .eval text => Source.session ⟨none, text⟩ fun tree => [renderValue tree.evaluate]
  | .render text => Source.session ⟨none, text⟩ fun tree => [tree.render]
  | .batch file =>
    match read file >>= textOf with
    | .ok text => textSession file text
    | .error fault => ⟨[], [], .unreadable file fault⟩

/-- Carries out a request, with a way to read files. -/
def Request.session (read : String → Except ReadFault ByteArray) : Request → Report
  | .run command _ => command.session read
  | .help topic => .ofLines topic.lines
  | .version => .ofLines [versionLine]
  | .misuse reason => ⟨[], [], .misuse reason⟩

/-- The line that says which file could not be read. -/
def unreadableMessage (file : String) : String := "reading `" ++ file ++ "` failed"

/-- Working through lines in two parts is working through them at once. -/
theorem linesSession_append (file : String) (number : Nat) (a b : List (List Char)) :
    linesSession file number (a ++ b) =
      (linesSession file number a).andThen fun _ => linesSession file (number + a.length) b := by
  induction a generalizing number with
  | nil => rfl
  | cons line a ih =>
    simp only [List.cons_append, linesSession, Report.andThen_assoc, ih, List.length_cons]
    congr 2
    funext _
    rw [Nat.add_right_comm, Nat.add_assoc]

end Calculator
