import ScriptDisassembler.CommandLine.Arguments
import ScriptDisassembler.Directory
import ScriptDisassembler.SignatureFile
import ScriptDisassembler.Text.Control
import ScriptDisassembler.Text.Quoted

/-!
What the program answers. Files are read by a function that is passed in, the signatures
before the script. Reports are kept up to a level that the environment sets or, failing
that, the arguments.
-/

namespace ScriptDisassembler.CommandLine

/-- Why nothing is written out. -/
inductive Complaint where
  | unreadable (path : String) (fault : FileFault)
  | unparsable (path : String) (fault : SignatureFault)
  | disassembly (fault : Fault)
deriving DecidableEq

namespace Complaint

/-- A complaint up to the cause. -/
def subject : Complaint → String
  | unreadable path _ => "failed to read " ++ Text.quoted path
  | unparsable path _ => "failed to parse " ++ Text.quoted path
  | disassembly _ => "disassemble error"

def cause : Complaint → String
  | unreadable _ fault => fault.message
  | unparsable _ fault => "yaml error: " ++ fault.message
  | disassembly fault => fault.message

def message (complaint : Complaint) : String :=
  complaint.subject ++ ": " ++ complaint.cause

end Complaint

/-- The text that is written for a report, behind its level. Further lines are indented by
four blanks, and nothing is left that a terminal would act on. -/
def reportText (message : String) : String :=
  let indented := message.toList.flatMap fun c =>
    if c == '\n' then ['\n', ' ', ' ', ' ', ' '] else [c]
  Text.withoutControl (String.ofList (indented ++ ['\n']))

structure Answer where
  /-- The text that is written out, or why there is none. -/
  output : Except Complaint String
  /-- The reports, in order. -/
  log : List (LogLevel × String)

namespace Answer

def status (answer : Answer) : Nat :=
  match answer.output with
  | .ok _ => 0
  | .error _ => 1

/-- Drops the reports above a rank. -/
def limit (answer : Answer) (rank : Nat) : Answer :=
  { answer with log := answer.log.filter fun entry => entry.1.rank ≤ rank }

end Answer

inductive Response where
  /-- The arguments make no sense. -/
  | usageError
  /-- A completion script is asked for, which is none of this library's business. -/
  | completion
  | answer (answer : Answer)

private def helpOfHelp (command : String) : String :=
  "Print this message or the help of the given subcommand(s)\n\n" ++
  "Usage: " ++ command ++ " help [COMMAND]...\n\n" ++
  "Arguments:\n" ++
  "  [COMMAND]...  Print help for the subcommand(s)\n"

def helpText : HelpTopic → String
  | .programHelp => helpOfHelp "lodscript"
  | .disassembleHelp => helpOfHelp "lodscript disassemble"
  | .program =>
    "Legend of Dragoon script disassembler CLI\n\n" ++
    "Usage: lodscript [OPTIONS] [COMMAND]\n\n" ++
    "Commands:\n" ++
    "  disassemble  Disassembles a compiled script\n" ++
    "  completion   Generate shell completion\n" ++
    "  help         Print this message or the help of the given subcommand(s)\n\n" ++
    "Options:\n" ++
    "  -v, --verbose...  Increase diagnostic output (-v info, -vv debug)\n" ++
    "  -h, --help        Print help\n" ++
    "  -V, --version     Print version\n"
  | .disassemble =>
    "Disassembles a compiled script\n\n" ++
    "Usage: lodscript disassemble [OPTIONS] <COMMAND>\n\n" ++
    "Commands:\n" ++
    "  file  Disassembles a compiled script file\n" ++
    "  help  Print this message or the help of the given subcommand(s)\n\n" ++
    "Options:\n" ++
    "  -v, --verbose...  Increase diagnostic output (-v info, -vv debug)\n" ++
    "  -h, --help        Print help\n"
  | .file =>
    "Disassembles a compiled script file\n\n" ++
    "Usage: lodscript disassemble file [OPTIONS] --meta <META> <PATH>\n\n" ++
    "Arguments:\n" ++
    "  <PATH>  Path to the compiled script\n\n" ++
    "Options:\n" ++
    "      --meta <META>  Path to the call-signature metadata (YAML)\n" ++
    "  -v, --verbose...   Increase diagnostic output (-v info, -vv debug)\n" ++
    "      --mode <MODE>  Output mode [default: listing] [possible values: listing, yaml]\n" ++
    "      --hex-dump     Prefix listing lines with the raw words of each token\n" ++
    "  -h, --help         Print help\n"
  | .completion =>
    "Generate shell completion\n\n" ++
    "Usage: lodscript completion [OPTIONS] <SHELL>\n\n" ++
    "Arguments:\n" ++
    "  <SHELL>  [possible values: bash, elvish, fish, powershell, zsh]\n\n" ++
    "Options:\n" ++
    "  -v, --verbose...  Increase diagnostic output (-v info, -vv debug)\n" ++
    "  -h, --help        Print help\n"

/-- The highest rank that is let through for a name of a level. An empty name lets errors
through, of which there are none among the reports. -/
def rankOfName? (name : String) : Option Nat :=
  match name.toLower with
  | "off" => some 0
  | "error" | "" => some 1
  | "warn" => some 2
  | "info" => some 3
  | "debug" => some 4
  | "trace" => some 5
  | _ => none

/-- The environment's setting wins over the arguments. A name that is no level is taken for
that of another program part, whose reports are the only ones let through. -/
def rankFor (setting : Option String) (verbosity : Nat) : Nat :=
  match setting with
  | some name => (rankOfName? name).getD 0
  | none =>
    match verbosity with
    | 0 => LogLevel.warn.rank
    | 1 => LogLevel.info.rank
    | _ => LogLevel.debug.rank

/-- Takes a script apart and writes it out, with all reports. -/
def disassembleFile (signatures : Signatures) (bytes : List UInt8) (options : OutputOptions)
    (log : List (LogLevel × String)) : Answer :=
  let trace := trace bytes signatures
  let output := trace.result >>= fun script =>
    script.output (.ofBytes bytes) signatures options
  ⟨output.mapError .disassembly,
    log ++ trace.log.toList.map fun event => (event.level, event.message)⟩

/-- Reads the signatures, then the script, then writes the script out. -/
def disassembleFiles {m : Type → Type} [Monad m]
    (read : String → m (Except FileFault (List UInt8)))
    (path signaturePath : String) (options : OutputOptions) : m Answer := do
  match (← read signaturePath) >>= textOfBytes with
  | .error fault => return ⟨.error (.unreadable signaturePath fault), []⟩
  | .ok text =>
    match Signatures.ofYaml text with
    | .error fault => return ⟨.error (.unparsable signaturePath fault), []⟩
    | .ok signatures =>
      let count := signatures.methods.length
      let loaded := [(.info, "Loaded " ++ toString count ++ " method signatures")]
      match ← read path with
      | .error fault => return ⟨.error (.unreadable path fault), loaded⟩
      | .ok bytes => return disassembleFile signatures bytes options loaded

/-- Answers the arguments. -/
def respond {m : Type → Type} [Monad m] (read : String → m (Except FileFault (List UInt8)))
    (setting : Option String) (arguments : List String) : m Response := do
  match Invocation.ofArguments arguments with
  | none => return .usageError
  | some invocation =>
    match invocation.request with
    | .help topic => return .answer ⟨.ok (helpText topic), []⟩
    | .version => return .answer ⟨.ok "lodscript 0.1.0\n", []⟩
    | .completion => return .completion
    | .disassemble path signaturePath options =>
      let answer ← disassembleFiles read path signaturePath options
      return .answer (answer.limit (rankFor setting invocation.verbosity))

end ScriptDisassembler.CommandLine
