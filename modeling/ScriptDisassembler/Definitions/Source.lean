import ScriptDisassembler.Definitions.Compile

/-!
The compiled tables as Rust source text: the two enumerations, the types of the entries, the
entries in order and the two indexes, sixteen places to a line.
-/

namespace ScriptDisassembler.Definitions

def lineOf (parts : List String) : String :=
  String.join parts ++ "\n"

def openBrace : String := "\x7b"

def closeBrace : String := "\x7d"

def hexByte (value : Nat) : String :=
  "0x" ++ Text.hexPadded 2 value

def kindName : EncodingKind → String
  | .value => "Value"
  | .runtime => "Runtime"
  | .inline => "Inline"

/-- An enumeration whose variants are the identifiers in upper case. -/
def enumeration (name : String) (ids : List String) : String :=
  "#[allow(non_camel_case_types)]\n" ++
  "#[derive(Debug, Clone, Copy, PartialEq, Eq, Hash, serde::Serialize, serde::Deserialize)]\n" ++
  lineOf ["pub enum ", name, " ", openBrace] ++
  String.join (ids.map fun id => lineOf ["    ", id.toUpper, ","]) ++
  closeBrace ++ "\n\n"

def kindType : String :=
  "#[derive(Debug, Clone, Copy, PartialEq, Eq)]\n" ++
  lineOf ["pub enum ParamClass ", openBrace] ++
  "    Value,\n    Runtime,\n    Inline,\n" ++
  closeBrace ++ "\n\n"

def entryType (name : String) (fields : List String) : String :=
  "#[derive(Debug, Clone, Copy)]\n" ++
  lineOf ["pub struct ", name, " ", openBrace] ++
  String.join (fields.map fun field => lineOf ["    pub ", field, ","]) ++
  closeBrace ++ "\n\n"

def instructionEntry (definition : InstructionDefinition) : String :=
  let operands := definition.operands.map fun name => "\"" ++ name ++ "\""
  lineOf ["    OpInfo ", openBrace, " name: \"", definition.id, "\", opcode: ",
    hexByte definition.code, ", ty: OpType::", definition.id.toUpper, ", param_names: &[",
    ", ".intercalate operands, "] ", closeBrace, ","]

def encodingEntry (definition : EncodingDefinition) : String :=
  lineOf ["    ParamInfo ", openBrace, " name: \"", definition.id, "\", code: ",
    hexByte definition.code, ", width: ", toString definition.width, ", ty: ParamType::",
    definition.id.toUpper, ", class: ParamClass::", kindName definition.kind, " ",
    closeBrace, ","]

def placesPerRow : Nat := 16

def rowText (index : Array Nat) (row : Nat) : String :=
  let places := (index.toList.drop (placesPerRow * row)).take placesPerRow
  lineOf ["    ", ", ".intercalate (places.map hexByte), ","]

def indexText (name : String) (index : Array Nat) : String :=
  lineOf ["pub const ", name, ": [u8; 256] = ["] ++
  String.join ((List.range (index.size / placesPerRow)).map (rowText index)) ++ "];\n"

/-- The source text of the tables. -/
def Tables.source (tables : Tables) : String :=
  enumeration "OpType" (tables.instructions.map InstructionDefinition.id) ++
  enumeration "ParamType" (tables.encodings.map EncodingDefinition.id) ++
  kindType ++
  entryType "OpInfo" ["name: &'static str", "opcode: u8", "ty: OpType",
    "param_names: &'static [&'static str]"] ++
  entryType "ParamInfo" ["name: &'static str", "code: u8", "width: u8", "ty: ParamType",
    "class: ParamClass"] ++
  "pub const OPCODE_INFO: &[OpInfo] = &[\n" ++
  String.join (tables.instructions.map instructionEntry) ++ "];\n\n" ++
  "pub const PARAM_INFO: &[ParamInfo] = &[\n" ++
  String.join (tables.encodings.map encodingEntry) ++ "];\n\n" ++
  indexText "OPCODE_INDEX" tables.instructionIndex ++ "\n" ++
  indexText "PARAM_INDEX" tables.encodingIndex

end ScriptDisassembler.Definitions
