/-!
Hexadecimal numerals. They are written in lower case, with as many digits as needed or
filled up with zeros to a fixed width, and read in either case.
-/

namespace ScriptDisassembler.Text

def hex (n : Nat) : String :=
  String.ofList (Nat.toDigits 16 n)

/-- A number with more digits than the width is written out in full. -/
def hexPadded (width n : Nat) : String :=
  String.ofList ((Nat.toDigits 16 n).leftpad width '0')

def hexDigit? (c : Char) : Option Nat :=
  if '0' ≤ c ∧ c ≤ '9' then some (c.toNat - '0'.toNat)
  else if 'a' ≤ c ∧ c ≤ 'f' then some (c.toNat - 'a'.toNat + 10)
  else if 'A' ≤ c ∧ c ≤ 'F' then some (c.toNat - 'A'.toNat + 10)
  else none

end ScriptDisassembler.Text
