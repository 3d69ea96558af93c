import ScriptDisassembler.Definitions.Line
import ScriptDisassembler.Encoding

/-!
Definitions of instructions and of operand encodings, and the tables compiled from them:
the definitions in order, and for each byte the place of the definition with that code. A
place is a byte as well, and the highest one says that there is no such definition; so there
must be fewer than 255 definitions of either sort.
-/

namespace ScriptDisassembler.Definitions

structure InstructionDefinition where
  id : String
  code : Nat
  operands : List String
deriving DecidableEq

structure EncodingDefinition where
  id : String
  code : Nat
  /-- Counted in words. -/
  width : Nat
  kind : EncodingKind
deriving DecidableEq

inductive Fault where
  | badByte (numerals : Numerals)
  | unsupportedWidth (id : String) (width : Nat)
  | unknownKind (id kind : String)
  | tooManyInstructions
  | tooManyEncodings
  /-- A definition has the code of one before it. -/
  | repeatedInstruction (id : String)
  | repeatedEncoding (id : String)
deriving DecidableEq

namespace Fault

def message : Fault → String
  | badByte .hexadecimal => "hex byte"
  | badByte .decimal => "decimal byte"
  | unsupportedWidth id width => "param " ++ id ++ " has unsupported width " ++ toString width
  | unknownKind id kind => "param " ++ id ++ " has unknown class " ++ kind
  | tooManyInstructions => "too many opcodes for a byte index"
  | tooManyEncodings => "too many params for a byte index"
  | repeatedInstruction id => "duplicate opcode for " ++ id
  | repeatedEncoding id => "duplicate param code for " ++ id

end Fault

def byteField (field : List Char) : Except Fault Nat :=
  (byte field).mapError .badByte

/-- The definition on a line, if there is one: `DEF(id, code, operands…)`. -/
def instructionOfLine (line : List Char) : Except Fault (Option InstructionDefinition) :=
  match fields? "DEF".toList line with
  | some (id :: code :: operands) =>
    (byteField code).map fun code =>
      some ⟨String.ofList id, code, operands.map String.ofList⟩
  | _ => .ok none

def kindOfField? (field : List Char) : Option EncodingKind :=
  match String.ofList field with
  | "value" => some .value
  | "runtime" => some .runtime
  | "inline" => some .inline
  | _ => none

/-- The definition on a line, if there is one: `PARAM(id, code, width, kind)`. -/
def encodingOfLine (line : List Char) : Except Fault (Option EncodingDefinition) :=
  match fields? "PARAM".toList line with
  | some [id, code, width, kind] => do
    let id := String.ofList id
    let code ← byteField code
    let width ← byteField width
    if width < 1 ∨ 3 < width then
      throw (.unsupportedWidth id width)
    match kindOfField? kind with
    | none => throw (.unknownKind id (String.ofList kind))
    | some kind => return some ⟨id, code, width, kind⟩
  | _ => .ok none

/-- What the lines define, in order, or the first fault. -/
def collect {α : Type} (ofLine : List Char → Except Fault (Option α)) (text : String) :
    Except Fault (List α) :=
  ((linesOf text.toList).mapM ofLine).map fun found => found.filterMap id

/-- The place that stands for no definition. -/
def absent : Nat := 0xff

/-- Enters codes into an index, the first of them for the definition at `place`. Two
definitions with one code are refused, the second by its identifier. -/
def indexFrom (repeated : String → Fault) :
    (place : Nat) → List (String × Nat) → Array Nat → Except Fault (Array Nat)
  | _, [], index => .ok index
  | place, (id, code) :: rest, index =>
    if index[code]? = some absent then
      indexFrom repeated (place + 1) rest (index.setIfInBounds code place)
    else
      .error (repeated id)

def indexOf (repeated : String → Fault) (codes : List (String × Nat)) : Except Fault (Array Nat) :=
  indexFrom repeated 0 codes (Array.replicate 256 absent)

structure Tables where
  instructions : List InstructionDefinition
  encodings : List EncodingDefinition
  instructionIndex : Array Nat
  encodingIndex : Array Nat
deriving DecidableEq

namespace Tables

/-- Looks a definition up by way of an index. -/
def look? {α : Type} (index : Array Nat) (definitions : List α) (code : Nat) : Option α :=
  match index[code]? with
  | none => none
  | some place => if place = absent then none else definitions[place]?

def instruction? (tables : Tables) (code : Nat) : Option InstructionDefinition :=
  look? tables.instructionIndex tables.instructions code

end Tables

def tablesOf (instructions : List InstructionDefinition) (encodings : List EncodingDefinition) :
    Except Fault Tables := do
  unless instructions.length < 255 do
    throw .tooManyInstructions
  unless encodings.length < 255 do
    throw .tooManyEncodings
  let instructionIndex ← indexOf .repeatedInstruction (instructions.map fun d => (d.id, d.code))
  let encodingIndex ← indexOf .repeatedEncoding (encodings.map fun d => (d.id, d.code))
  return ⟨instructions, encodings, instructionIndex, encodingIndex⟩

/-- Compiles the texts of the two definition files. -/
def compile (instructionText encodingText : String) : Except Fault Tables := do
  let instructions ← collect instructionOfLine instructionText
  let encodings ← collect encodingOfLine encodingText
  tablesOf instructions encodings

end ScriptDisassembler.Definitions
