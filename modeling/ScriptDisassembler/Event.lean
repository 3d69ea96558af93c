import ScriptDisassembler.Decode
import ScriptDisassembler.Text.Hex

/-!
What a disassembly reports while it runs. Each report has a level and a wording.
-/

namespace ScriptDisassembler

inductive LogLevel where
  | warn | info | debug
deriving DecidableEq, Repr

namespace LogLevel

def name : LogLevel → String
  | warn => "warn"
  | info => "info"
  | debug => "debug"

/-- A level that shows more has the higher rank. -/
def rank : LogLevel → Nat
  | warn => 2
  | info => 3
  | debug => 4

end LogLevel

/-- The edge of the control flow graph that a report is about. -/
inductive Edge where
  | branch (opcode : Opcode)
  | table
  | argument (method : String)
deriving DecidableEq

namespace Edge

/-- Conditional jumps go by their name and all other branches by their identifier. -/
def text : Edge → String
  | branch opcode => if opcode.flow = .conditional then opcode.name else opcode.id
  | table => "table"
  | argument method => method

end Edge

inductive Event where
  | trailingBytes (count : Nat)
  | entrypointsFound (count : Nat)
  | probing (start : Nat)
  | undecodable (offset : Nat) (reason : Undecodable)
  /-- A scan came upon an instruction that was decoded before. -/
  | joined (offset : Nat)
  /-- Another token owns the first word of an instruction. -/
  | overlap (opcode : Opcode) (offset : Nat)
  /-- Another token owns a word of an instruction's operands. -/
  | operandOverlap (opcode : Opcode) (offset : Nat)
  /-- The operand of a branch is not known before the script runs. -/
  | unknownBranch (opcode : Opcode) (offset : Nat)
  /-- An argument that is a code address is not known before the script runs. -/
  | unknownArgument (method : UInt16) (name : String) (offset : Nat) (parameter : String)
  /-- A target is between two words or outside the script. -/
  | outside (edge : Edge) (offset : Nat) (target : Int32)
  | tableDecoded (table count : Nat)
  /-- Another token owns the first word of a table. -/
  | tableOverlap (table : Nat)
  | complete (entrypoints branches subroutines reentries tables : Nat)
deriving DecidableEq

namespace Event

def level : Event → LogLevel
  | entrypointsFound _ | probing _ | joined _ | tableDecoded _ _ => .debug
  | complete .. => .info
  | _ => .warn

private def undecodableText (offset : Nat) : Undecodable → String
  | .unknownHeader word =>
    "Invalid instruction " ++ Text.hexPadded 8 word.toNat ++ " at " ++ Text.hex offset ++
      ", ending branch"
  | .truncated opcode place =>
    opcode.name ++ " at " ++ Text.hex offset ++ " is truncated at param " ++
      toString place ++ ", ending branch"
  | .unknownEncoding opcode code =>
    opcode.name ++ " at " ++ Text.hex offset ++ " has unknown param type 0x" ++
      Text.hex code ++ ", ending branch"

def message : Event → String
  | trailingBytes count =>
    "Ignoring " ++ toString count ++ " trailing bytes after the last whole word"
  | entrypointsFound count => "Found " ++ toString count ++ " entrypoints"
  | probing start => "Probing branch " ++ Text.hex start
  | undecodable offset reason => undecodableText offset reason
  | joined offset => "Reached decoded code at " ++ Text.hex offset
  | overlap opcode offset =>
    opcode.name ++ " at " ++ Text.hex offset ++ " overlaps an existing token, ending branch"
  | operandOverlap opcode offset =>
    "Params of " ++ opcode.name ++ " at " ++ Text.hex offset ++
      " overlap an existing token, ending branch"
  | unknownBranch opcode offset =>
    "Skipping " ++ (Edge.branch opcode).text ++ " at " ++ Text.hex offset ++
      " due to unknowable parameter"
  | unknownArgument method name offset parameter =>
    "Skipping CALL " ++ toString method.toNat ++ " (" ++ name ++ ") at " ++ Text.hex offset ++
      " due to unknowable parameter " ++ parameter
  | outside edge offset target =>
    "Skipping " ++ edge.text ++ " at " ++ Text.hex offset ++ ": target " ++
      Text.hex target.toUInt32.toNat ++ " is misaligned or outside the script"
  | tableDecoded table count =>
    "Table at " ++ Text.hex table ++ " has " ++ toString count ++ " entries"
  | tableOverlap table => "Table at " ++ Text.hex table ++ " overlaps an existing token"
  | complete entrypoints branches subroutines reentries tables =>
    "Probing complete: " ++ toString entrypoints ++ " entrypoints, " ++
      toString branches ++ " branches, " ++ toString subroutines ++ " subs, " ++
      toString reentries ++ " reentries, " ++ toString tables ++ " tables"

end Event

end ScriptDisassembler
