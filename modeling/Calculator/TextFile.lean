import Calculator.CharacterClass

/-!
# Files, their texts and their lines

A folder holds files by name, and a path leads from it through names separated
by `/` to the bytes of a file. Names may themselves contain `/`; what stands
before one is then a folder inside. Nothing is known of what lies outside. The
text of a file is what its bytes say in UTF-8. A line of a text ends at a line
feed, and a carriage return directly before the feed is no part of it. What
follows the last feed is a line of its own, as it stands, unless it is empty.
-/

namespace Calculator

/-- Why a file cannot be read. -/
inductive ReadFault where
  /-- Nothing has that name. -/
  | missing
  /-- The path leads to a folder. -/
  | isFolder
  /-- The path goes on behind a file. -/
  | notFolder
  /-- A name or the path is longer than names may be. -/
  | nameTooLong
  /-- The bytes are no text. -/
  | notText
  /-- Any other reason, in the words of the system. -/
  | other (words : String)
  deriving DecidableEq, Repr

/-- The reason in the words of the system. -/
def ReadFault.cause : ReadFault → String
  | .missing => "No such file or directory (os error 2)"
  | .isFolder => "Is a directory (os error 21)"
  | .notFolder => "Not a directory (os error 20)"
  | .nameTooLong => "File name too long (os error 36)"
  | .notText => "stream did not contain valid UTF-8"
  | .other words => words

/-- A folder and the files in it. -/
structure Folder where
  /-- The name and the bytes of every file. -/
  files : List (String × ByteArray)

namespace Folder

/-- Where a path has led so far. -/
inductive Place where
  /-- Somewhere outside the folder. -/
  | outside
  /-- The folder, or one inside it, by the names that lead to it. -/
  | inside (names : List (List Char))
  /-- A file. -/
  | file (contents : ByteArray)

/-- The pieces of a path between its separators. -/
def pieces : List Char → List (List Char)
  | [] => [[]]
  | c :: rest =>
    match c, pieces rest with
    | '/', found => [] :: found
    | c, piece :: found => (c :: piece) :: found
    | c, [] => [[c]]

/-- What a name means in a folder: the file that has it, or the folder that
starts the names of files. -/
def enter (folder : Folder) (names : List (List Char)) : Except ReadFault Place :=
  let filed := folder.files.map (fun (name, contents) => (pieces name.toList, contents))
  match filed.find? (fun (name, _) => name == names) with
  | some (_, contents) => .ok (.file contents)
  | none =>
    if filed.any (fun (name, _) => names.isPrefixOf name) then .ok (.inside names)
    else .error .missing

/-- How many bytes a name may have. -/
def nameLimit : Nat := 255

/-- How many bytes a path may have. -/
def pathLimit : Nat := 4095

/-- The place to which one piece of a path leads. -/
def step (folder : Folder) (place : Place) (piece : List Char) : Except ReadFault Place :=
  match place with
  | .file _ => .error .notFolder
  | .outside =>
    if piece ∈ [[], ['.'], ['.', '.']] then .ok .outside
    else if nameLimit < (String.ofList piece).utf8ByteSize then .error .nameTooLong
    else .error .missing
  | .inside names =>
    if piece ∈ [[], ['.']] then .ok (.inside names)
    else if piece = ['.', '.'] then
      if names.isEmpty then .ok .outside else .ok (.inside names.dropLast)
    else if nameLimit < (String.ofList piece).utf8ByteSize then .error .nameTooLong
    else folder.enter (names ++ [piece])

/-- The place to which a path leads. -/
def resolve (folder : Folder) (path : String) : Except ReadFault Place :=
  if path.isEmpty then .error .missing
  else if pathLimit < path.utf8ByteSize then .error .nameTooLong
  else
    let start := if path.toList.head? = some '/' then Place.outside else .inside []
    (pieces path.toList).foldlM folder.step start

/-- The bytes of the file to which a path leads. -/
def read (folder : Folder) (path : String) : Except ReadFault ByteArray :=
  match folder.resolve path with
  | .ok (.file contents) => .ok contents
  | .ok _ => .error .isFolder
  | .error fault => .error fault

end Folder

/-- The text that bytes hold, if they are UTF-8 throughout. -/
def textOf (bytes : ByteArray) : Except ReadFault String :=
  match String.fromUTF8? bytes with
  | some text => .ok text
  | none => .error .notText

/-- A reversed line without the carriage return at its end. -/
def withoutReturn : List Char → List Char
  | '\r' :: reversed => reversed
  | reversed => reversed

/-- The lines of a text whose first line has begun with the given characters,
last one first. -/
def linesAfter (begun : List Char) : List Char → List (List Char)
  | [] => if begun.isEmpty then [] else [begun.reverse]
  | c :: rest =>
    if c = '\n' then (withoutReturn begun).reverse :: linesAfter [] rest
    else linesAfter (c :: begun) rest

/-- The lines of a text. -/
def lines (text : List Char) : List (List Char) := linesAfter [] text

/-- What ends in a line feed and what follows it have their own lines. -/
theorem linesAfter_append (begun a b : List Char) :
    linesAfter begun (a ++ '\n' :: b) = linesAfter begun (a ++ ['\n']) ++ lines b := by
  induction a generalizing begun with
  | nil => simp [linesAfter, lines]
  | cons c a ih =>
    simp only [List.cons_append, linesAfter]
    split
    · simp [ih]
    · exact ih (c :: begun)

/-- The lines of two texts joined at a line feed are those of the first followed
by those of the second. -/
theorem lines_append (a b : List Char) :
    lines (a ++ '\n' :: b) = lines (a ++ ['\n']) ++ lines b :=
  linesAfter_append [] a b

/-- A text that ends in a line feed has as many lines as line feeds. -/
theorem length_linesAfter (begun a : List Char) :
    (linesAfter begun (a ++ ['\n'])).length = a.count '\n' + 1 := by
  induction a generalizing begun with
  | nil => simp [linesAfter]
  | cons c a ih =>
    simp only [List.cons_append, linesAfter]
    split
    · simp [*]
    · rw [ih, List.count_cons]
      simp [*]

/-- Whether a line is empty or all white space. -/
def isBlankLine (line : List Char) : Bool := line.all isWhiteSpace

end Calculator
