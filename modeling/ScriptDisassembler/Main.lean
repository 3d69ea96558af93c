import ScriptDisassembler.CommandLine.Run

/-!
The program: arguments, environment and files in, text and exit status out.
-/

namespace ScriptDisassembler.CommandLine

private def faultOf : IO.Error → FileFault
  | .noFileOrDirectory .. => .missing
  | .inappropriateType _ 21 _ => .isFolder
  | .inappropriateType .. => .notFolder
  | .invalidArgument _ 36 _ => .nameTooLong
  | error => .other (toString error)

private def readFile (path : String) : IO (Except FileFault (List UInt8)) := do
  try
    return .ok (← IO.FS.readBinFile path).toList
  catch error =>
    return .error (faultOf error)

private def printAnswer (answer : Answer) : IO UInt32 := do
  for (level, message) in answer.log do
    IO.eprint ("[" ++ level.name.toUpper ++ "] " ++ reportText message)
  match answer.output with
  | .ok text => IO.print text
  | .error complaint => IO.eprintln complaint.message
  return UInt32.ofNat answer.status

def runProgram (arguments : List String) : IO UInt32 := do
  match ← respond readFile (← IO.getEnv "RUST_LOG") arguments with
  | .usageError =>
    IO.eprintln "error: the arguments make no sense; try --help"
    return 2
  | .completion => return 0
  | .answer answer => printAnswer answer

end ScriptDisassembler.CommandLine

def main (arguments : List String) : IO UInt32 :=
  ScriptDisassembler.CommandLine.runProgram arguments
