import ScriptDisassembler.Exploration.Run

/-!
Taking a script apart. The first words of a script, up to a limit, are addresses of code as
long as each of them leads to an instruction. Everything reachable from there is explored,
and the words that nothing has claimed by then are data.
-/

namespace ScriptDisassembler

/-- The number of words at the start of a script that may be entrypoints. -/
def entrypointLimit : Nat := 16

namespace Script

/-- Adds the token of an entrypoint word and names its target. -/
def placeEntrypoint (script : Script) (index target : Nat) : Script :=
  let (name, labels) := script.labels.add target fun _ => (Label.entrypoint index).text
  { script with
    labels
    entrypoints := script.entrypoints ++ [target] }.place
      (.entrypoint (4 * index) target name)

/-- What is reported about a script that has been explored. -/
def summary (script : Script) : Event :=
  .complete script.entrypoints.length script.branches.size script.subroutines.size
    script.reentries.size (script.jumpTables.size + script.subroutineTables.size)

end Script

/-- Enters the words from `index` on that are addresses of instructions, up to the first
that is not, and no more than `limit` of them. -/
def findEntrypoints (buffer : Buffer) : (limit index : Nat) → Script → Except ReadFault Script
  | 0, _, script => .ok script
  | limit + 1, index, script =>
    if buffer.length ≤ 4 * index then
      .ok script
    else
      match buffer.wordAt (4 * index) with
      | .error fault => .error fault
      | .ok word =>
        match buffer.headerOffset? word.toNat with
        | none => .ok script
        | some target =>
          findEntrypoints buffer limit (index + 1) (script.placeEntrypoint index target)

/-- Enters as data those of `count` words from `index` on that nothing has claimed. -/
def fillGaps (buffer : Buffer) : (count index : Nat) → Script → Except ReadFault Script
  | 0, _, script => .ok script
  | count + 1, index, script =>
    if script.isClaimed index then
      fillGaps buffer count (index + 1) script
    else
      match buffer.wordAt (4 * index) with
      | .error fault => .error fault
      | .ok word => fillGaps buffer count (index + 1) (script.place (.data (4 * index) word))

/-- A disassembly with its reports, which are kept if it fails. -/
structure Trace where
  log : Array Event
  result : Except Fault Script

namespace Buffer

/-- Finds the entrypoints of a script, explores what is reachable from them and enters the
rest as data. -/
def trace (buffer : Buffer) (signatures : Signatures) : Trace :=
  match findEntrypoints buffer entrypointLimit 0 (.blank buffer.wordCount) with
  | .error fault => ⟨#[], .error (.read fault)⟩
  | .ok script =>
    let found : Survey := ⟨script, #[.entrypointsFound script.entrypoints.length]⟩
    match run buffer signatures (script.entrypoints.map .probe) found with
    | (survey, .error fault) => ⟨survey.log, .error fault⟩
    | (survey, .ok ()) =>
      match fillGaps buffer script.wordCount 0 survey.script with
      | .error fault => ⟨survey.log, .error (.read fault)⟩
      | .ok script => ⟨survey.log.push script.summary, .ok script⟩

end Buffer

/-- The report that bytes after the last whole word are ignored, if there are any. -/
def trailingReport (bytes : List UInt8) : Array Event :=
  if bytes.length % 4 = 0 then #[] else #[.trailingBytes (bytes.length % 4)]

def trace (bytes : List UInt8) (signatures : Signatures) : Trace :=
  let explored := (Buffer.ofBytes bytes).trace signatures
  ⟨trailingReport bytes ++ explored.log, explored.result⟩

def disassemble (bytes : List UInt8) (signatures : Signatures) : Except Fault Script :=
  (trace bytes signatures).result

end ScriptDisassembler
