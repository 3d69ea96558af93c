/-!
Sets of characters as lists of ranges of code points.
-/

namespace ScriptDisassembler.Text

/-- Whether the code point of a character is in one of the closed ranges. -/
def within (ranges : List (Nat × Nat)) (c : Char) : Bool :=
  ranges.any fun range => range.1 ≤ c.toNat && c.toNat ≤ range.2

end ScriptDisassembler.Text
