import Mathlib
import ScriptDisassembler.Definitions.Source
import ScriptDisassembler.Proofs.TextLines

/-!
The parts of a source of tables. A part is framed by a heading and a line that closes it, and the
lines between them are indented. No heading stands twice, and what is written in the definitions is
found on indented lines only; so each part is found by its heading.
-/

namespace ScriptDisassembler

namespace Text

def Indented (line : String) : Prop :=
  line.toList.head? = some ' '

instance : DecidablePred Indented := fun _ =>
  inferInstanceAs (Decidable (_ = _))

/-- The text has neither a comma nor a line break. -/
def OneField (text : String) : Prop :=
  ',' ∉ text.toList ∧ OneLine text

/-- What stands before the letters is not the capital of another character. -/
theorem toUpper_ne_of_lt {c d : Char} (hne : c ≠ d) (hlt : d.toNat < 'A'.toNat) :
    c.toUpper ≠ d := by
  unfold Char.toUpper
  split
  · next hlower =>
    rintro rfl
    obtain ⟨hlow, hhigh⟩ := hlower
    rw [UInt32.le_iff_toNat_le] at hlow hhigh
    have hsum : (c.val + ('A'.val - 'a'.val)).toNat = (c.val.toNat + (2 ^ 32 - 32)) % 2 ^ 32 := by
      rw [UInt32.toNat_add]
      rfl
    change (c.val + ('A'.val - 'a'.val)).toNat < 65 at hlt
    change 97 ≤ c.val.toNat at hlow
    change c.val.toNat ≤ 122 at hhigh
    omega
  · exact hne

theorem notMem_toUpper {d : Char} {text : String} (h : d ∉ text.toList)
    (hlt : d.toNat < 'A'.toNat) : d ∉ text.toUpper.toList := by
  unfold String.toUpper
  rw [String.toList_map, List.mem_map]
  rintro ⟨c, hmem, hupper⟩
  refine toUpper_ne_of_lt ?_ hlt hupper
  rintro rfl
  exact h hmem

theorem OneField.toUpper {text : String} (h : OneField text) : OneField text.toUpper :=
  ⟨notMem_toUpper h.1 (by decide), notMem_toUpper h.2 (by decide)⟩

/-- The lines of a text between the first line that reads `opening` and the next one that reads
`closing`. -/
def block (opening closing text : String) : List String :=
  ((lines text).dropWhile (· != opening)).tail.takeWhile (· != closing)

end Text

open Text

namespace Definitions

/-- What stands around the lines of a part. -/
structure SourceFrame where
  preamble : List String
  heading : String
  closing : String

namespace SourceFrame

def lines (frame : SourceFrame) : List String :=
  frame.preamble ++ [frame.heading, frame.closing]

def serialized : String :=
  "#[derive(Debug, Clone, Copy, PartialEq, Eq, Hash, serde::Serialize, serde::Deserialize)]"

def enumeration (name : String) : SourceFrame :=
  ⟨["#[allow(non_camel_case_types)]", serialized], "pub enum " ++ name ++ " \x7b", "\x7d"⟩

def kindType : SourceFrame :=
  ⟨["#[derive(Debug, Clone, Copy, PartialEq, Eq)]"], "pub enum ParamClass \x7b", "\x7d"⟩

def entryType (name : String) : SourceFrame :=
  ⟨["#[derive(Debug, Clone, Copy)]"], "pub struct " ++ name ++ " \x7b", "\x7d"⟩

def entries (name type : String) : SourceFrame :=
  ⟨[], "pub const " ++ name ++ ": &[" ++ type ++ "] = &[", "];"⟩

def index (name : String) : SourceFrame :=
  ⟨[], "pub const " ++ name ++ ": [u8; 256] = [", "];"⟩

/-- With an empty line in front. -/
def spaced (frame : SourceFrame) : SourceFrame :=
  { frame with preamble := "" :: frame.preamble }

def all : List SourceFrame :=
  [enumeration "OpType", (enumeration "ParamType").spaced, kindType.spaced,
    (entryType "OpInfo").spaced, (entryType "ParamInfo").spaced,
    (entries "OPCODE_INFO" "OpInfo").spaced, (entries "PARAM_INFO" "ParamInfo").spaced,
    (index "OPCODE_INDEX").spaced, (index "PARAM_INDEX").spaced]

end SourceFrame

def variantLine (id : String) : String :=
  "    " ++ id.toUpper ++ ","

def fieldLine (field : String) : String :=
  "    pub " ++ field ++ ","

def kindLines : List String :=
  ["    Value,", "    Runtime,", "    Inline,"]

def instructionFields : List String :=
  ["name: &'static str", "opcode: u8", "ty: OpType", "param_names: &'static [&'static str]"]

def encodingFields : List String :=
  ["name: &'static str", "code: u8", "width: u8", "ty: ParamType", "class: ParamClass"]

def instructionLine (definition : InstructionDefinition) : String :=
  "    OpInfo \x7b name: \"" ++ definition.id ++ "\", opcode: " ++ hexByte definition.code ++
    ", ty: OpType::" ++ definition.id.toUpper ++ ", param_names: &[" ++
    ", ".intercalate (definition.operands.map fun name => "\"" ++ name ++ "\"") ++ "] \x7d,"

def encodingLine (definition : EncodingDefinition) : String :=
  "    ParamInfo \x7b name: \"" ++ definition.id ++ "\", code: " ++ hexByte definition.code ++
    ", width: " ++ toString definition.width ++ ", ty: ParamType::" ++ definition.id.toUpper ++
    ", class: ParamClass::" ++ kindName definition.kind ++ " \x7d,"

def rowLine (places : List Nat) : String :=
  "    " ++ ", ".intercalate (places.map hexByte) ++ ","

def indexLines (index : Array Nat) : List String :=
  (List.range (index.size / placesPerRow)).map fun row =>
    rowLine ((index.toList.drop (placesPerRow * row)).take placesPerRow)

namespace Tables

/-- The lines of each part. -/
def bodies (tables : Tables) : List (List String) :=
  [tables.instructions.map fun definition => variantLine definition.id,
    tables.encodings.map fun definition => variantLine definition.id,
    kindLines,
    instructionFields.map fieldLine,
    encodingFields.map fieldLine,
    tables.instructions.map instructionLine,
    tables.encodings.map encodingLine,
    indexLines tables.instructionIndex,
    indexLines tables.encodingIndex]

def parts (tables : Tables) : List (SourceFrame × List String) :=
  SourceFrame.all.zip tables.bodies

end Tables

/-! The source as a text of these lines. -/

theorem SourceFrame.flush :
    ∀ frame ∈ all, ∀ line ∈ frame.lines, ¬Indented line ∧ OneLine line := by
  decide +kernel

namespace Tables

/-- Neither a comma nor a line break is in what the definitions name. -/
structure Named (tables : Tables) : Prop where
  instruction : ∀ definition ∈ tables.instructions, OneField definition.id
  operand : ∀ definition ∈ tables.instructions, ∀ name ∈ definition.operands, OneField name
  encoding : ∀ definition ∈ tables.encodings, OneField definition.id

end Tables

end Definitions

end ScriptDisassembler
