import Calculator.Session

/-!
# The program

Reads the arguments and the file that they name, and shows the report.
-/

namespace Calculator

/-- The reason for which the system refused to read a file. -/
def readFaultOf : IO.Error → ReadFault
  | .noFileOrDirectory .. => .missing
  | .inappropriateType _ _ "not a directory" => .notFolder
  | .inappropriateType .. => .isFolder
  | error => .other error.toString

/-- The bytes of a file, or why they cannot be had. -/
def readFile (file : String) : IO (Except ReadFault ByteArray) := do
  try
    let contents ← IO.FS.readBinFile file
    pure (.ok contents)
  catch error => pure (.error (readFaultOf error))

/-- The lines that tell how a session ended, if it did not end well. -/
def endingLines : Ending → List String
  | .success => []
  | .syntaxError error =>
    [error.fault.code, "  " ++ error.fault.message, "  " ++ error.source.displayName ++ ": " ++
      error.fault.label, "  help: " ++ error.fault.help]
  | .unreadable file fault => [unreadableMessage file, "  " ++ fault.cause]
  | .misuse reason => reason.message :: "" :: Topic.program.lines

end Calculator

open Calculator in
/-- Carries out the request that the arguments are. -/
def main (arguments : List String) : IO UInt32 := do
  let request := Request.ofArguments arguments
  let contents ← match request with
    | .run (.batch file) _ => readFile file
    | _ => pure (.error .missing)
  let report := request.session fun _ => contents
  let errors ← IO.getStderr
  for line in report.log request.verbosity do
    errors.putStrLn line
  IO.print report.stdout
  for line in endingLines report.ending do
    errors.putStrLn line
  pure report.ending.status.toUInt32
