import ScriptDisassembler.Text.Blank
import ScriptDisassembler.Text.Hex

/-!
The lines of a definition file. A line that defines something is a keyword with fields in
parentheses, separated by commas; what follows the closing parenthesis is ignored, and so
is every other line. White space around the line, the list of fields and each field does
not count.
-/

namespace ScriptDisassembler.Definitions

/-- What can be wrong with a byte, by the notation that it seems to be in. -/
inductive Numerals where
  | hexadecimal
  | decimal
deriving DecidableEq, Repr

/-- The lines of a text. A carriage return at the end of a line is white space. -/
def linesOf (text : List Char) : List (List Char) :=
  text.splitOn '\n'

/-- The part of a text before the first closing parenthesis. -/
def insideParenthesis? (text : List Char) : Option (List Char) :=
  if ')' ∈ text then
    some (text.takeWhile (· != ')'))
  else
    none

/-- The fields of a line that begins with a keyword and an opening parenthesis. -/
def fields? (keyword line : List Char) : Option (List (List Char)) :=
  match (keyword ++ ['(']).isPrefixOf? (Text.trim line) with
  | none => none
  | some rest =>
    (insideParenthesis? (Text.trim rest)).map fun inside =>
      ((Text.trim inside).splitOn ',').map Text.trim

def decimalDigit? (c : Char) : Option Nat :=
  if '0' ≤ c ∧ c ≤ '9' then some (c.toNat - '0'.toNat) else none

/-- The number that digits say in a base, after `number` for the digits before them. -/
def numeral? (digit? : Char → Option Nat) (base : Nat) : (number : Nat) → List Char → Option Nat
  | number, [] => some number
  | number, c :: rest =>
    match digit? c with
    | none => none
    | some digit => numeral? digit? base (base * number + digit) rest

/-- A numeral below 256 of at least one digit. A plus sign may stand before it. -/
def byteNumeral? (digit? : Char → Option Nat) (base : Nat) (text : List Char) : Option Nat :=
  let digits := match text with
    | '+' :: rest => rest
    | all => all
  if digits.isEmpty then
    none
  else
    (numeral? digit? base 0 digits).filter (· < 256)

/-- A byte is hexadecimal after `0x` and decimal otherwise. -/
def byte (text : List Char) : Except Numerals Nat :=
  match text with
  | '0' :: 'x' :: digits =>
    match byteNumeral? Text.hexDigit? 16 digits with
    | some number => .ok number
    | none => .error .hexadecimal
  | digits =>
    match byteNumeral? decimalDigit? 10 digits with
    | some number => .ok number
    | none => .error .decimal

end ScriptDisassembler.Definitions
