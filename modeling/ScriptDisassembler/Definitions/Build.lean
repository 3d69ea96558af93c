import ScriptDisassembler.Definitions.Source
import ScriptDisassembler.Directory

/-!
Building the tables of a source tree. A crate lives two folders below the root of the tree,
whose folder `catalog` holds the definition files. Both are announced before they are read
and read before either is compiled.
-/

namespace ScriptDisassembler.Definitions

inductive BuildFault where
  | noRoot
  | unreadableInstructions
  | unreadableEncodings
  | definitions (fault : Fault)
  | unwritable
deriving DecidableEq

namespace BuildFault

def message : BuildFault → String
  | noRoot => "crate directory should be <root>/crates/<name>"
  | unreadableInstructions => "read opcodes.def"
  | unreadableEncodings => "read params.def"
  | definitions fault => fault.message
  | unwritable => "write generated script tables"

end BuildFault

structure BuildReport where
  announcement : String
  source : Except BuildFault String

/-- The source of the tables, if both files can be read and compiled and the folder is there. -/
def sourceOf (directory : Directory) (instructionPath encodingPath output : String) :
    Except BuildFault String := do
  let instructionText ← (directory.readText instructionPath).mapError fun _ =>
    .unreadableInstructions
  let encodingText ← (directory.readText encodingPath).mapError fun _ => .unreadableEncodings
  let tables ← (compile instructionText encodingText).mapError .definitions
  if directory.hasFolder output then
    return tables.source
  else
    throw .unwritable

/-- Builds the tables for the crate in the folder `crate`, into the folder `output`. -/
def build (directory : Directory) (crate output : String) : BuildReport :=
  match Path.parent? crate >>= Path.parent? with
  | none => ⟨"", .error .noRoot⟩
  | some root =>
    let folder := Path.append root "catalog"
    let instructionPath := Path.append folder "opcodes.def"
    let encodingPath := Path.append folder "params.def"
    let announce (path : String) : String := "cargo:rerun-if-changed=" ++ path ++ "\n"
    ⟨announce instructionPath ++ announce encodingPath,
      sourceOf directory instructionPath encodingPath output⟩

end ScriptDisassembler.Definitions
