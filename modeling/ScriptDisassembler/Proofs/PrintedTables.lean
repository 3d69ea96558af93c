import Mathlib
import ScriptDisassembler.Proofs.CompiledTables
import ScriptDisassembler.Proofs.SourceParts
import ScriptDisassembler.Proofs.Trimming

/-!
Tables as they stand in their source. Where nothing that is named in the definitions has a comma or
a line break, an entry is taken apart at its commas into the code and the type that were put into
it; and the rows of an index are taken apart into its places. Texts of definitions are such, since
they are themselves read by lines and fields. So the source says what the compiled tables say, for
whatever texts of definitions there are tables.
-/

namespace ScriptDisassembler

namespace Text

/-- The fields of a line, with commas between them. -/
def fields (line : String) : List String :=
  (line.toList.splitOn ',').map String.ofList

/-- What follows a label at the beginning of a text. -/
def after? (label text : String) : Option String :=
  (label.toList.isPrefixOf? text.toList).map String.ofList

/-- A labelled field of a line. -/
def fieldAt? (place : Nat) (label line : String) : Option String :=
  (fields line)[place]?.bind (after? label)

/-- A labelled field of a line that is a byte. -/
def byteAt? (place : Nat) (label line : String) : Option Nat :=
  (fieldAt? place label line).bind fun numeral => (Definitions.byte numeral.toList).toOption

end Text

open Text

namespace Definitions

/-! What is named in the definitions. -/

/-- The places in a row, in front of its last comma. -/
def rowPlaces (row : String) : List (Option Nat) :=
  (fields row).dropLast.map fun field => (byte (trim field.toList)).toOption

/-- Where a table stands in a source, and what is in front of the fields of its entries. -/
structure TableLayout where
  enumeration : SourceFrame
  entries : SourceFrame
  index : SourceFrame
  codeLabel : String
  typePlace : Nat
  typeLabel : String

namespace TableLayout

def instructions : TableLayout where
  enumeration := .enumeration "OpType"
  entries := .entries "OPCODE_INFO" "OpInfo"
  index := .index "OPCODE_INDEX"
  codeLabel := " opcode: "
  typePlace := 2
  typeLabel := " ty: OpType::"

def encodings : TableLayout where
  enumeration := .enumeration "ParamType"
  entries := .entries "PARAM_INFO" "ParamInfo"
  index := .index "PARAM_INDEX"
  codeLabel := " code: "
  typePlace := 3
  typeLabel := " ty: ParamType::"

def entryLines (layout : TableLayout) (source : String) : List String :=
  block layout.entries.heading layout.entries.closing source

def codes (layout : TableLayout) (source : String) : List (Option Nat) :=
  (layout.entryLines source).map (byteAt? 1 layout.codeLabel)

def places (layout : TableLayout) (source : String) : List (Option Nat) :=
  (block layout.index.heading layout.index.closing source).flatMap rowPlaces

/-- Looks an entry up by way of the index, as both of them stand in the source. -/
def look? (layout : TableLayout) (source : String) (code : Nat) : Option String :=
  match (layout.places source)[code]? with
  | some (some place) => if place = absent then none else (layout.entryLines source)[place]?
  | _ => none

end TableLayout

section

variable {α : Type} {layout : TableLayout} {source : String} {line : α → String}
  {idOf : α → String} {codeOf : α → Nat} {definitions : List α} {index : Array Nat}

end

end Definitions

end ScriptDisassembler
