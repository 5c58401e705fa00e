import Calculator.Log

/-!
# Arguments of the command line

A list of arguments is one request: a command to run with a verbosity, a help
topic, the version, or a misuse. Arguments are taken from left to right and the
first that settles the request ends it. Flags stand before the name of a command
or behind it, and the ones behind it outweigh those before. The operand of a
command is the first argument that is no flag; an expression may start with a
hyphen, and is a flag only if every letter of it is one. A help topic has its
lines, in which the program says what it and its commands are for.
-/

namespace Calculator

/-- What the program is asked to do. -/
inductive Command where
  /-- Show a fixed expression and its value. -/
  | demonstrate
  /-- Print the value of an expression. -/
  | eval (text : String)
  /-- Print the fully parenthesized form of an expression. -/
  | render (text : String)
  /-- Print form and value of every line of a file. -/
  | batch (file : String)
  deriving DecidableEq, Repr

/-- What help is asked about. -/
inductive Topic where
  | program
  | eval
  | render
  | batch
  | help
  deriving DecidableEq, Repr

/-- Why arguments are no request. -/
inductive Misuse where
  /-- No command has this name. -/
  | unknownCommand (name : String)
  /-- No flag is written like this here. -/
  | unknownFlag (argument : String)
  /-- The flag takes no value. -/
  | unexpectedValue (argument : String)
  /-- There is an operand already. -/
  | unexpectedOperand (argument : String)
  /-- The command needs an operand. -/
  | missingOperand
  /-- The operand may not be empty. -/
  | emptyOperand
  deriving DecidableEq, Repr

/-- One line that says what is wrong with the arguments. -/
def Misuse.message : Misuse → String
  | .unknownCommand name => "there is no command '" ++ name ++ "'"
  | .unknownFlag argument => "no flag is written '" ++ argument ++ "'"
  | .unexpectedValue argument => "the flag in '" ++ argument ++ "' takes no value"
  | .unexpectedOperand argument => "nothing can be done with '" ++ argument ++ "'"
  | .missingOperand => "the command needs an operand"
  | .emptyOperand => "the operand may not be empty"

/-- What a list of arguments amounts to. -/
inductive Request where
  /-- Run a command and keep a log. -/
  | run (command : Command) (verbosity : Verbosity)
  /-- Show how to use the program or a command. -/
  | help (topic : Topic)
  /-- Show the version. -/
  | version
  /-- Complain. -/
  | misuse (reason : Misuse)
  deriving DecidableEq, Repr

/-- The verbosity that a request asks for. -/
def Request.verbosity : Request → Verbosity
  | .run _ verbosity => verbosity
  | _ => 0

/-- The shape of an argument. -/
inductive Shape where
  /-- Two hyphens: no flag follows. -/
  | separator
  /-- Two hyphens and the name of a flag, perhaps with a value behind `=`. -/
  | long (name : List Char) (hasValue : Bool)
  /-- A hyphen and one-letter flags. -/
  | cluster (letters : List Char)
  /-- Anything else. -/
  | word
  deriving DecidableEq, Repr

/-- The shape of an argument with these characters. A hyphen alone is a word. -/
def Shape.ofChars : List Char → Shape
  | ['-', '-'] => .separator
  | '-' :: '-' :: name => .long (name.takeWhile (· != '=')) (name.contains '=')
  | '-' :: letter :: letters => .cluster (letter :: letters)
  | _ => .word

/-- The shape of an argument. -/
def Shape.ofArgument (argument : String) : Shape := .ofChars argument.toList

/-- What a flag asks for. -/
inductive Flag where
  /-- More of the log. -/
  | verbose
  /-- Help on what the flag stands with. -/
  | help
  /-- The version. -/
  | version
  deriving DecidableEq, Repr

/-- The flag of one letter. The version is known to the program alone, not to
its commands. -/
def Flag.ofLetter? (topic : Topic) (letter : Char) : Option Flag :=
  if letter = 'v' then some .verbose
  else if letter = 'h' then some .help
  else if letter = 'V' ∧ topic = .program then some .version
  else none

/-- The flag of a long name. -/
def Flag.ofName? (topic : Topic) (name : List Char) : Option Flag :=
  if name = "verbose".toList then some .verbose
  else if name = "help".toList then some .help
  else if name = "version".toList ∧ topic = .program then some .version
  else none

/-- The effect of a flag on the number of times verbosity was asked for. Flags of
any other kind settle the request. -/
def Flag.count (topic : Topic) (count : Nat) : Flag → Except Request Nat
  | .verbose => .ok (count + 1)
  | .help => .error (.help topic)
  | .version => .error .version

namespace Request

/-- The effect of an argument's one-letter flags, taken from left to right. -/
def countLetters (topic : Topic) (argument : String) (count : Nat) (letters : List Char) :
    Except Request Nat :=
  letters.foldlM
    (fun count letter =>
      match Flag.ofLetter? topic letter with
      | some flag => flag.count topic count
      | none => .error (.misuse (.unknownFlag argument)))
    count

/-- The effect of an argument that is one long flag. None of them takes a value. -/
def countLong (topic : Topic) (argument : String) (count : Nat) (name : List Char)
    (hasValue : Bool) : Except Request Nat :=
  match Flag.ofName? topic name with
  | none => .error (.misuse (.unknownFlag argument))
  | some flag =>
    if hasValue then .error (.misuse (.unexpectedValue argument)) else flag.count topic count

/-- Whether an argument of this shape can be the operand of a command. An
expression may look like flags as long as it does not consist of known ones. -/
def canBeOperand (topic : Topic) : Shape → Bool
  | .word => true
  | .separator => false
  | .long name _ => topic != .batch && (Flag.ofName? topic name).isNone
  | .cluster letters =>
    topic != .batch && letters.any (fun letter => (Flag.ofLetter? topic letter).isNone)

/-- What the arguments of a command have amounted to so far. -/
structure Scan where
  /-- The operand, once it has been seen. -/
  operand : Option String
  /-- How often verbosity was asked for. -/
  count : Nat
  deriving DecidableEq, Repr

/-- An argument taken as the operand. There is one at most, and the name of a
file is not empty. -/
def Scan.place (topic : Topic) (scan : Scan) (argument : String) : Except Request Scan :=
  if scan.operand.isSome then .error (.misuse (.unexpectedOperand argument))
  else if topic = .batch ∧ argument.isEmpty then .error (.misuse .emptyOperand)
  else .ok { scan with operand := some argument }

/-- One argument in front of a separator. -/
def Scan.take (topic : Topic) (scan : Scan) (argument : String) : Except Request Scan :=
  let shape := Shape.ofArgument argument
  if scan.operand.isNone && canBeOperand topic shape then scan.place topic argument
  else
    match shape with
    | .long name hasValue => do
      let count ← countLong topic argument scan.count name hasValue
      pure { scan with count := count }
    | .cluster letters => do
      let count ← countLetters topic argument scan.count letters
      pure { scan with count := count }
    | .word | .separator => scan.place topic argument

/-- All arguments of a command. Behind a separator each is an operand. -/
def Scan.takeAll (topic : Topic) (scan : Scan) : List String → Except Request Scan
  | [] => .ok scan
  | argument :: rest =>
    if Shape.ofArgument argument = .separator then rest.foldlM (place topic) scan
    else do
      let scan ← scan.take topic argument
      scan.takeAll topic rest

/-- The request of a command, given how often verbosity was asked for before its
name and the arguments behind it. -/
def ofCommand (topic : Topic) (command : String → Command) (before : Nat)
    (arguments : List String) : Except Request Request := do
  let scan ← Scan.takeAll topic ⟨none, 0⟩ arguments
  match scan.operand with
  | some operand => pure (.run (command operand) (if scan.count = 0 then before else scan.count))
  | none => throw (.misuse .missingOperand)

/-- The topic of a command's name. -/
def topicNamed? : String → Option Topic
  | "eval" => some .eval
  | "render" => some .render
  | "batch" => some .batch
  | "help" => some .help
  | _ => none

/-- The request for help with the arguments behind `help`. -/
def ofHelp : List String → Request
  | [] => .help .program
  | [name] =>
    match topicNamed? name with
    | some topic => .help topic
    | none => .misuse (.unknownCommand name)
  | name :: extra :: _ =>
    match topicNamed? name with
    | some _ => .misuse (.unknownCommand extra)
    | none => .misuse (.unknownCommand name)

/-- The request of all arguments, given how often verbosity was asked for. -/
def ofAll (count : Nat) : List String → Except Request Request
  | [] => .ok (.run .demonstrate count)
  | argument :: rest =>
    match Shape.ofArgument argument with
    | .separator =>
      match rest with
      | [] => .ok (.run .demonstrate count)
      | extra :: _ => .error (.misuse (.unexpectedOperand extra))
    | .long name hasValue => do
      let count ← countLong .program argument count name hasValue
      ofAll count rest
    | .cluster letters => do
      let count ← countLetters .program argument count letters
      ofAll count rest
    | .word =>
      match topicNamed? argument with
      | some .eval => ofCommand .eval .eval count rest
      | some .render => ofCommand .render .render count rest
      | some .batch => ofCommand .batch .batch count rest
      | some _ => .ok (ofHelp rest)
      | none => .error (.misuse (.unknownCommand argument))

/-- The request that arguments amount to. -/
def ofArguments (arguments : List String) : Request :=
  match ofAll 0 arguments with
  | .ok request => request
  | .error request => request

end Request

/-- The line of the program's version. -/
def versionLine : String := "arith 0.1.0"

/-- The flags that every command knows, under their heading. -/
def commonFlagLines : List String :=
  ["Options:",
    "  -v, --verbose...  Increase log output on stderr (-v info, -vv debug, -vvv trace)",
    "  -h, --help        Print help"]

/-- What the program or a command is for, as in the list of commands. -/
def Topic.summary : Topic → String
  | .program => "Parse, evaluate and print arithmetic expressions"
  | .eval => "Print the value of an expression"
  | .render => "Print the fully parenthesized form of an expression"
  | .batch => "Evaluate every non-blank line of a file"
  | .help => "Print this message or the help of the given subcommand(s)"

/-- The help on a command that takes one operand, which has no description. -/
def Topic.operandLines (topic : Topic) (name operand : String) : List String :=
  [topic.summary, "", "Usage: arith " ++ name ++ " [OPTIONS] <" ++ operand ++ ">", "",
    "Arguments:", "  <" ++ operand ++ ">  ", ""] ++ commonFlagLines

/-- The help on a topic. -/
def Topic.lines (topic : Topic) : List String :=
  match topic with
  | .program =>
    [topic.summary, "", "Usage: arith [OPTIONS] [COMMAND]", "", "Commands:",
      "  eval    " ++ Topic.eval.summary,
      "  render  " ++ Topic.render.summary,
      "  batch   " ++ Topic.batch.summary,
      "  help    " ++ Topic.help.summary, ""] ++ commonFlagLines ++
      ["  -V, --version     Print version"]
  | .eval => topic.operandLines "eval" "EXPRESSION"
  | .render => topic.operandLines "render" "EXPRESSION"
  | .batch => topic.operandLines "batch" "FILENAME"
  | .help =>
    [topic.summary, "", "Usage: arith help [COMMAND]...", "", "Arguments:",
      "  [COMMAND]...  Print help for the subcommand(s)"]

end Calculator
