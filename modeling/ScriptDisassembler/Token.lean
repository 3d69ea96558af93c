import ScriptDisassembler.Buffer
import ScriptDisassembler.Encoding
import ScriptDisassembler.Opcode

/-!
The pieces into which a script is taken apart: instructions with their operands, words of
data, entrypoint words and tables of relative addresses. Offsets are in bytes, widths in
words.
-/

namespace ScriptDisassembler

structure Operand where
  offset : Nat
  encoding : Encoding
  /-- The words that encode the operand. -/
  raw : List Word
  /-- The value, where it is known before the script runs. -/
  resolved : Option Int32
  /-- The name of the code address that the operand denotes. -/
  label : Option String
deriving DecidableEq

namespace Operand

def width (operand : Operand) : Nat :=
  operand.raw.length

end Operand

structure Instruction where
  offset : Nat
  opcode : Opcode
  /-- The upper half of the instruction's first word. -/
  immediate : UInt16
  operands : List Operand
deriving DecidableEq

namespace Instruction

def operandWidth (instruction : Instruction) : Nat :=
  (instruction.operands.map Operand.width).foldr (· + ·) 0

/-- The first word and the words of the operands. -/
def width (instruction : Instruction) : Nat :=
  1 + instruction.operandWidth

/-- The offset just after the last operand. -/
def next (instruction : Instruction) : Nat :=
  instruction.offset + 4 * instruction.width

/-- The operand through which the instruction branches. -/
def branchOperand? (instruction : Instruction) : Option Operand :=
  match instruction.opcode.flow with
  | .jump | .gosub | .fork => instruction.operands.head?
  | .conditional => instruction.operands.getLast?
  | .jumpTable | .gosubTable => instruction.operands[1]?
  | .call | .forkReenter | .terminal | .plain => none

/-- The value of the operand through which the instruction branches, if it is known. -/
def branchValue? (instruction : Instruction) : Option Int32 :=
  instruction.branchOperand?.bind Operand.resolved

end Instruction

structure Table where
  offset : Nat
  destinations : List Nat
  /-- The name of each destination. -/
  labels : List String
deriving DecidableEq

inductive Token where
  | instruction (instruction : Instruction)
  | operand (operand : Operand)
  | data (offset : Nat) (value : Word)
  | entrypoint (offset target : Nat) (label : String)
  | table (table : Table)
deriving DecidableEq

namespace Token

def offset : Token → Nat
  | instruction i => i.offset
  | operand o => o.offset
  | data offset _ => offset
  | entrypoint offset _ _ => offset
  | table t => t.offset

/-- The number of slots that the token takes. The operands of an instruction are tokens of
their own. -/
def width : Token → Nat
  | operand o => o.width
  | _ => 1

end Token

end ScriptDisassembler
