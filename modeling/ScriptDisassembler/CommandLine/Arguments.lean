import ScriptDisassembler.Output

/-!
What the arguments of the command line ask for. Arguments are read from left to right; the
first that does not fit, or that asks for help or the version, decides. A command inside
another takes the `-v` option as well, and the innermost that has it wins.
-/

namespace ScriptDisassembler.CommandLine

inductive HelpTopic where
  | program
  | disassemble
  | file
  | completion
  /-- The command `help` of the program itself. -/
  | programHelp
  /-- The command `help` inside `disassemble`. -/
  | disassembleHelp
deriving DecidableEq, Repr

inductive Request where
  | help (topic : HelpTopic)
  | version
  /-- A completion script for a shell. -/
  | completion
  | disassemble (path signatures : String) (options : OutputOptions)
deriving DecidableEq, Repr

structure Invocation where
  /-- How often `-v` was given. -/
  verbosity : Nat
  request : Request
deriving DecidableEq, Repr

/-- An argument by its form. Short options may be run together. -/
inductive Argument where
  /-- So many of `-v` in one. -/
  | verbose (count : Nat)
  | help
  | version
  /-- The argument `--`, after which there are no options. -/
  | stop
  /-- A long option that is not one of those, with the value that an equals sign gives it. -/
  | option (name : String) (value : Option String)
  | word (text : String)
  | unknown
deriving DecidableEq

private def lettersOf : (count : Nat) → List Char → Argument
  | count, [] => .verbose count
  | count, 'v' :: rest => lettersOf (count + 1) rest
  | _, 'h' :: _ => .help
  | _, 'V' :: _ => .version
  | _, _ => .unknown

private def longOf (text : List Char) : Argument :=
  let name := String.ofList (text.takeWhile (· != '='))
  if '=' ∈ text then
    .option name (some (String.ofList ((text.dropWhile (· != '=')).drop 1)))
  else
    match name with
    | "verbose" => .verbose 1
    | "help" => .help
    | "version" => .version
    | _ => .option name none

def Argument.ofString (text : String) : Argument :=
  match text.toList with
  | ['-', '-'] => .stop
  | '-' :: '-' :: rest => longOf rest
  | '-' :: c :: rest => lettersOf 0 (c :: rest)
  | _ => .word text

/-- The innermost `-v` that was given. -/
private def deeper (verbosity : Nat) (invocation : Invocation) : Invocation :=
  if invocation.verbosity = 0 then { invocation with verbosity } else invocation

/-- What has been read of the arguments of `disassemble file`. -/
structure FileArguments where
  verbosity : Nat
  path : Option String
  signatures : Option String
  mode : Option OutputMode
  hexDump : Bool

namespace FileArguments

def none : FileArguments :=
  ⟨0, Option.none, Option.none, Option.none, false⟩

private def takePath (read : FileArguments) (text : String) : Option FileArguments :=
  if read.path.isSome || text.isEmpty then Option.none else some { read with path := some text }

private def takeOption (read : FileArguments) (name value : String) : Option FileArguments :=
  match name with
  | "meta" =>
    if read.signatures.isSome || value.isEmpty then
      Option.none
    else
      some { read with signatures := some value }
  | "mode" =>
    if read.mode.isSome then
      Option.none
    else
      match value with
      | "listing" => some { read with mode := some .listing }
      | "yaml" => some { read with mode := some .yaml }
      | _ => Option.none
  | _ => Option.none

private def finish (read : FileArguments) : Option Invocation :=
  match read.path, read.signatures with
  | some path, some signatures =>
    some ⟨read.verbosity,
      .disassemble path signatures ⟨read.mode.getD .listing, read.hexDump⟩⟩
  | _, _ => Option.none

/-- The value of an option may follow as an argument of its own, unless that looks like an
option. -/
private def isValue (text : String) : Bool :=
  text == "-" || !text.startsWith "-"

def parse (read : FileArguments) : List String → Option Invocation
  | [] => read.finish
  | text :: rest =>
    match Argument.ofString text with
    | .verbose count => parse { read with verbosity := read.verbosity + count } rest
    | .help => some ⟨read.verbosity, .help .file⟩
    | .stop => (rest.foldlM takePath read).bind finish
    | .word text => (read.takePath text).bind (parse · rest)
    | .option "hex-dump" Option.none =>
      if read.hexDump then Option.none else parse { read with hexDump := true } rest
    | .option name (some value) => (read.takeOption name value).bind (parse · rest)
    | .option name Option.none =>
      match rest with
      | value :: rest =>
        if isValue value then (read.takeOption name value).bind (parse · rest) else Option.none
      | [] => Option.none
    | .version | .unknown => Option.none

end FileArguments

def shells : List String :=
  ["bash", "elvish", "fish", "powershell", "zsh"]

/-- The arguments of `completion`, after some of which `shell` says whether a shell has been
named. -/
def parseCompletion (verbosity : Nat) (shell : Bool) : List String → Option Invocation
  | [] => if shell then some ⟨verbosity, .completion⟩ else none
  | text :: rest =>
    match Argument.ofString text with
    | .verbose count => parseCompletion (verbosity + count) shell rest
    | .help => some ⟨verbosity, .help .completion⟩
    | .stop =>
      match shell, rest with
      | true, [] => some ⟨verbosity, .completion⟩
      | false, [name] => if name ∈ shells then some ⟨verbosity, .completion⟩ else none
      | _, _ => none
    | .word name =>
      if shell || name ∉ shells then none else parseCompletion verbosity true rest
    | .option _ _ | .version | .unknown => none

/-- The arguments of `help`, which are the names of commands. -/
def helpTopic? : List String → Option HelpTopic
  | [] => some .program
  | ["help"] => some .programHelp
  | ["disassemble"] => some .disassemble
  | ["disassemble", "help"] => some .disassembleHelp
  | ["disassemble", "file"] => some .file
  | ["completion"] => some .completion
  | _ => none

def parseDisassemble (verbosity : Nat) : List String → Option Invocation
  | [] => none
  | text :: rest =>
    match Argument.ofString text with
    | .verbose count => parseDisassemble (verbosity + count) rest
    | .help => some ⟨verbosity, .help .disassemble⟩
    | .word "file" => (FileArguments.none.parse rest).map (deeper verbosity)
    | .word "help" => (helpTopic? ("disassemble" :: rest)).map fun topic =>
        ⟨verbosity, .help topic⟩
    | _ => none

def parseProgram (verbosity : Nat) : List String → Option Invocation
  | [] => some ⟨verbosity, .help .program⟩
  | text :: rest =>
    match Argument.ofString text with
    | .verbose count => parseProgram (verbosity + count) rest
    | .help => some ⟨verbosity, .help .program⟩
    | .version => some ⟨verbosity, .version⟩
    | .stop => if rest.isEmpty then some ⟨verbosity, .help .program⟩ else none
    | .word "disassemble" => (parseDisassemble 0 rest).map (deeper verbosity)
    | .word "completion" => (parseCompletion 0 false rest).map (deeper verbosity)
    | .word "help" => (helpTopic? rest).map fun topic => ⟨verbosity, .help topic⟩
    | _ => none

/-- What the arguments ask for, or `none` if they make no sense. -/
def Invocation.ofArguments (arguments : List String) : Option Invocation :=
  parseProgram 0 arguments

end ScriptDisassembler.CommandLine
