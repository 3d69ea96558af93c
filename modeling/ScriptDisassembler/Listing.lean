import ScriptDisassembler.Fault
import ScriptDisassembler.Decode
import ScriptDisassembler.Script
import ScriptDisassembler.Signature

/-!
A script as a listing: one line for each token but the operands, by ascending offset, and
before a token whose offset has a name an empty line and the name. A line may show the
words that the token stands for.
-/

namespace ScriptDisassembler

/-- One line of a listing, before the words of its token are read. -/
structure ListingLine where
  label : Option String
  offset : Nat
  width : Nat
  body : String
deriving DecidableEq

namespace ListingLine

private def mnemonic (name : String) : String :=
  name ++ String.ofList (List.replicate (14 - name.length) ' ')

private def hexWord (word : Word) : String :=
  Text.hexPadded 8 word.toNat

/-- An operand shows the name of its address, else its literal, else its words. -/
def operandText (operand : Operand) : String :=
  match operand.label, operand.encoding, operand.resolved with
  | some label, _, _ => ":" ++ label
  | none, .immediate, some value | none, .nextImmediate, some value =>
    "0x" ++ Text.hex value.toUInt32.toNat
  | none, encoding, _ =>
    encoding.name ++ "[" ++
      ", ".intercalate (operand.raw.map fun word => "0x" ++ hexWord word) ++ "]"

/-- A call shows the index of its method first and the name of the method last. -/
def instructionText (signatures : Signatures) (instruction : Instruction) : String :=
  let name := instruction.opcode.name
  let operands := instruction.operands.map operandText
  if instruction.opcode = .call then
    let index := instruction.immediate.toNat
    let method := ((signatures.method? index).map Method.name).getD "?"
    mnemonic name ++ ", ".intercalate (toString index :: operands) ++ " ; " ++ method
  else
    match operands with
    | [] => name
    | _ => mnemonic name ++ ", ".intercalate operands

def tableText (table : Table) : String :=
  mnemonic "table" ++ "[" ++ ", ".intercalate (table.labels.map (":" ++ ·)) ++ "]"

/-- The line of a token. The operands are part of the line of their instruction. -/
def ofToken? (script : Script) (signatures : Signatures) (token : Token) :
    Option ListingLine :=
  let line (width : Nat) (body : String) : Option ListingLine :=
    some ⟨script.labels.find? token.offset, token.offset, width, body⟩
  match token with
  | .operand _ => none
  | .instruction instruction =>
    line instruction.width (instructionText signatures instruction)
  | .data _ value => line 1 (mnemonic "data" ++ "0x" ++ hexWord value)
  | .entrypoint _ _ label => line 1 (mnemonic "entrypoint" ++ ":" ++ label)
  | .table table => line 1 (tableText table)

/-- The line as it is written, with the words it is to show. -/
def text (line : ListingLine) (shown : Option (List Word)) : String :=
  let heading := match line.label with
    | some label => "\n" ++ label ++ ":\n"
    | none => ""
  let dump := match shown with
    | some words => String.join (words.map fun word => hexWord word ++ " ") ++ "| "
    | none => ""
  heading ++ Text.hexPadded 5 line.offset ++ " " ++ dump ++ line.body ++ "\n"

/-- The words of a line are read only if they are to be shown. -/
def render (line : ListingLine) (buffer : Buffer) (hexDump : Bool) : Except ReadFault String :=
  if hexDump then
    (buffer.wordsAt line.offset line.width).map fun words => line.text (some words)
  else
    .ok (line.text none)

end ListingLine

namespace Script

def listingLines (script : Script) (signatures : Signatures) : List ListingLine :=
  script.entries.filterMap (ListingLine.ofToken? script signatures)

/-- The listing of a script with the words of a buffer, which need not be the one that the
script was made from. -/
def listing (script : Script) (buffer : Buffer) (signatures : Signatures) (hexDump : Bool) :
    Except ReadFault String :=
  ((script.listingLines signatures).mapM fun line : ListingLine =>
    line.render buffer hexDump).map String.join

end Script

end ScriptDisassembler
