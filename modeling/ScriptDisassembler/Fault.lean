import ScriptDisassembler.Buffer
import ScriptDisassembler.Text.Hex

/-!
The causes for which a disassembly is given up, and their wording.
-/

namespace ScriptDisassembler

namespace ReadFault

def message : ReadFault → String
  | misaligned offset => "misaligned word read at 0x" ++ Text.hex offset
  | outOfBounds offset length =>
    "word read out of bounds at 0x" ++ Text.hex offset ++
      " (length=0x" ++ Text.hex length ++ ")"

end ReadFault

inductive Fault where
  | read (fault : ReadFault)
  /-- A call has another number of arguments than the method's signature. -/
  | argumentCount (offset : Nat) (method : UInt16) (expected actual : Nat)
  /-- A call names a method that the signatures do not have. -/
  | unknownMethod (offset : Nat) (method : UInt16)
deriving DecidableEq

namespace Fault

private def callAt (offset : Nat) (method : UInt16) : String :=
  "CALL " ++ toString method.toNat ++ " at 0x" ++ Text.hex offset

def message : Fault → String
  | read fault => fault.message
  | argumentCount offset method expected actual =>
    callAt offset method ++ " has wrong number of args! " ++
      toString expected ++ "/" ++ toString actual
  | unknownMethod offset method =>
    callAt offset method ++ " targets a method missing from the script metadata"

end Fault

end ScriptDisassembler
