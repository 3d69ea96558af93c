import Mathlib
import ScriptDisassembler.Definitions.Build
import ScriptDisassembler.Proofs.DefinitionLines
import ScriptDisassembler.Proofs.Lookup

/-!
Definitions that were written into a text are read back from it. Between the lines of the
definitions there may be any others that do not begin with the keyword, and a line may end with a
carriage return. So the tables that are built, and their source, are those of the definitions and
do not depend on how the definitions were written.
-/

namespace ScriptDisassembler.Definitions

open Text

/-- The text of some lines. A line ends with a line feed, in front of which there may be a carriage
return; the last line need not end. -/
inductive Ended : List (List Char) → List Char → Prop
  | nil : Ended [] []
  | last (line : List Char) : Ended [line] line
  | feed {lines : List (List Char)} {text : List Char} (line : List Char)
      (hrest : Ended lines text) : Ended (line :: lines) (line ++ '\n' :: text)
  | returnFeed {lines : List (List Char)} {text : List Char} (line : List Char)
      (hrest : Ended lines text) : Ended (line :: lines) (line ++ '\r' :: '\n' :: text)

/-- A line with a definition on it, or a line that does not begin with the keyword. -/
def Stands {α : Type} (Written : α → List Char → Prop) (keyword : List Char)
    (found : Option α) (line : List Char) : Prop :=
  match found with
  | some definition => Written definition line
  | none => '\n' ∉ line ∧ ¬ keyword ++ ['('] <+: trim line

/-- A text in which the definitions are written, one on a line and in their order. -/
def WrittenIn {α : Type} (Written : α → List Char → Prop) (keyword : List Char)
    (definitions : List α) (text : String) : Prop :=
  ∃ found lines, found.filterMap id = definitions ∧
    List.Forall₂ (Stands Written keyword) found lines ∧ Ended lines text.toList

section

variable {α : Type} {Written : α → List Char → Prop} {keyword : List Char}
  {ofLine : List Char → Except Fault (Option α)}

theorem exists_writtenIn (hwritten : ∀ definition, ∃ line, Written definition line)
    (definitions : List α) : ∃ text, WrittenIn Written keyword definitions text := by
  induction definitions with
  | nil => exact ⟨"", [], [], rfl, .nil, .nil⟩
  | cons definition rest ih =>
    obtain ⟨text, found, lines, rfl, hlines, hended⟩ := ih
    obtain ⟨line, hline⟩ := hwritten definition
    refine ⟨String.ofList (line ++ '\n' :: text.toList), some definition :: found, line :: lines,
      rfl, .cons hline hlines, ?_⟩
    rw [String.toList_ofList]
    exact .feed line hended

/-- What is on a line is read, with a carriage return or without one. -/
def ReadBack (ofLine : List Char → Except Fault (Option α)) (found : Option α)
    (line : List Char) : Prop :=
  ofLine line = .ok found ∧ ofLine (line ++ ['\r']) = .ok found ∧ '\n' ∉ line

theorem mapM_of_forall₂ {found : List (Option α)} {lines : List (List Char)}
    (h : List.Forall₂ (fun found line => ofLine line = .ok found) found lines) :
    lines.mapM ofLine = .ok found := by
  induction h with
  | nil => rfl
  | cons hfirst hrest ih =>
    rw [List.mapM_cons, hfirst, ih]
    rfl

/-- What stands on the lines of a text is what was put on them. -/
theorem exists_forall₂_linesOf {found : List (Option α)} {lines : List (List Char)}
    {text : List Char} (hended : Ended lines text)
    (h : List.Forall₂ (ReadBack ofLine) found lines) (hempty : ofLine [] = .ok none) :
    ∃ all, List.Forall₂ (fun found line => ofLine line = .ok found) all (linesOf text) ∧
      all.filterMap id = found.filterMap id := by
  have hsame : ∀ {first : Option α} {all rest : List (Option α)},
      all.filterMap id = rest.filterMap id →
      (first :: all).filterMap id = (first :: rest).filterMap id := by
    intro first all rest hrest
    cases first with
    | none => exact hrest
    | some definition => exact congrArg (definition :: ·) hrest
  induction hended generalizing found with
  | nil =>
    -- Behind the last line feed there is one more line, which is empty.
    cases h
    exact ⟨[none], .cons hempty .nil, rfl⟩
  | last line =>
    obtain ⟨first, rest, hfirst, hrest, rfl⟩ := List.forall₂_cons_right_iff.mp h
    cases hrest
    rw [linesOf, List.splitOn_eq_singleton hfirst.2.2]
    exact ⟨[first], .cons hfirst.1 .nil, rfl⟩
  | feed line hended ih =>
    obtain ⟨first, rest, hfirst, hrest, rfl⟩ := List.forall₂_cons_right_iff.mp h
    obtain ⟨all, hall, heq⟩ := ih hrest
    rw [linesOf, List.splitOn_append_cons_self_of_not_mem hfirst.2.2]
    exact ⟨first :: all, .cons hfirst.1 hall, hsame heq⟩
  | returnFeed line hended ih =>
    obtain ⟨first, rest, hfirst, hrest, rfl⟩ := List.forall₂_cons_right_iff.mp h
    obtain ⟨all, hall, heq⟩ := ih hrest
    have hreturn : '\n' ∉ line ++ ['\r'] := by simp [hfirst.2.2]
    rw [linesOf, List.append_cons, List.splitOn_append_cons_self_of_not_mem hreturn]
    exact ⟨first :: all, .cons hfirst.2.1 hall, hsame heq⟩

/-- The definitions of a text are those that were written into it. -/
theorem collect_of_writtenIn {definitions : List α} {text : String}
    (h : WrittenIn Written keyword definitions text)
    (hwritten : ∀ definition ∈ definitions, ∀ line, Written definition line →
      ReadBack ofLine (some definition) line)
    (hother : ∀ line, ¬ keyword ++ ['('] <+: trim line → ofLine line = .ok none) :
    collect ofLine text = .ok definitions := by
  obtain ⟨found, lines, rfl, hlines, hended⟩ := h
  have hkeyword : ∀ {line : List Char}, ¬ keyword ++ ['('] <+: trim line →
      ¬ keyword ++ ['('] <+: trim (line ++ ['\r']) := by
    intro line hline
    rwa [trim_append_blanks (List.forall_mem_singleton.mpr (by decide))]
  have hread : List.Forall₂ (ReadBack ofLine) found lines := by
    clear hended
    induction hlines with
    | nil => exact .nil
    | @cons first line rest lines hfirst hrest ih =>
      cases first with
      | none =>
        refine .cons ⟨hother line hfirst.2, hother _ (hkeyword hfirst.2), hfirst.1⟩ (ih ?_)
        exact hwritten
      | some definition =>
        obtain ⟨hdefinition, hdefinitions⟩ := List.forall_mem_cons.mp hwritten
        exact .cons (hdefinition line hfirst) (ih hdefinitions)
  have hempty : ofLine [] = .ok none := by
    apply hother
    intro hprefix
    have hnil : trim [] = [] := rfl
    rw [hnil, List.prefix_nil] at hprefix
    simp at hprefix
  obtain ⟨all, hall, heq⟩ := exists_forall₂_linesOf hended hread hempty
  rw [collect, mapM_of_forall₂ hall, ← heq]
  rfl

end

theorem InstructionDefinition.Written.readBack {definition : InstructionDefinition}
    {line : List Char} (h : definition.Written line) (hprintable : definition.Printable) :
    ReadBack instructionOfLine (some definition) line := by
  have hreturn : definition.Written (line ++ ['\r']) := by
    obtain ⟨code, hcode, hline⟩ := h
    exact ⟨code, hcode, hline.append (by decide)⟩
  exact ⟨(h.read hprintable).1, (hreturn.read hprintable).1, (h.read hprintable).2⟩

theorem EncodingDefinition.Written.readBack {definition : EncodingDefinition} {line : List Char}
    (h : definition.Written line) (hprintable : definition.Printable) :
    ReadBack encodingOfLine (some definition) line := by
  have hreturn : definition.Written (line ++ ['\r']) := by
    obtain ⟨code, width, hcode, hwidth, hline⟩ := h
    exact ⟨code, width, hcode, hwidth, hline.append (by decide)⟩
  exact ⟨(h.read hprintable).1, (hreturn.read hprintable).1, (h.read hprintable).2⟩

/-- Definitions of which tables can be made, and that can be written and read back. -/
structure Printable (instructions : List InstructionDefinition)
    (encodings : List EncodingDefinition) : Prop where
  few : instructions.length < 255 ∧ encodings.length < 255
  distinct : (instructions.map InstructionDefinition.code).Nodup ∧
    (encodings.map EncodingDefinition.code).Nodup
  instruction : ∀ definition ∈ instructions, definition.Printable
  encoding : ∀ definition ∈ encodings, definition.Printable

/-- The files of a source tree from which the tables of a crate are built into a folder. -/
def Offers (directory : Directory) (crate output instructionText encodingText : String) : Prop :=
  ∃ root, (Path.parent? crate >>= Path.parent?) = some root ∧
    directory.readText (Path.append (Path.append root "catalog") "opcodes.def") =
      .ok instructionText ∧
    directory.readText (Path.append (Path.append root "catalog") "params.def") =
      .ok encodingText ∧
    directory.hasFolder output = true

theorem source_build {directory : Directory} {crate output instructionText encodingText : String}
    {tables : Tables} (h : Offers directory crate output instructionText encodingText)
    (hcompile : compile instructionText encodingText = .ok tables) :
    (build directory crate output).source = .ok tables.source := by
  obtain ⟨root, hroot, hinstructions, hencodings, houtput⟩ := h
  rw [build, hroot]
  simp only [sourceOf, hinstructions, hencodings, hcompile, houtput, Except.mapError, bind,
    Except.bind]
  rfl

/-- Definitions can be written, and however they are, they are read back, and the source of their
tables is built. -/
theorem tables_of_writtenIn {instructions : List InstructionDefinition}
    {encodings : List EncodingDefinition} (h : Printable instructions encodings) :
    (∃ instructionText encodingText,
      WrittenIn InstructionDefinition.Written "DEF".toList instructions instructionText ∧
      WrittenIn EncodingDefinition.Written "PARAM".toList encodings encodingText) ∧
    ∃ tables : Tables, tables.instructions = instructions ∧ tables.encodings = encodings ∧
      ∀ instructionText encodingText,
        WrittenIn InstructionDefinition.Written "DEF".toList instructions instructionText →
        WrittenIn EncodingDefinition.Written "PARAM".toList encodings encodingText →
        compile instructionText encodingText = .ok tables ∧
          ∀ directory crate output, Offers directory crate output instructionText encodingText →
            (build directory crate output).source = .ok tables.source := by
  obtain ⟨tables, htables⟩ := exists_tablesOf h.few.1 h.few.2
    (fun definition hmem => (h.instruction definition hmem).code)
    (fun definition hmem => (h.encoding definition hmem).code) h.distinct.1 h.distinct.2
  obtain ⟨hinstructions, hencodings, -, -⟩ := indexes_of_tablesOf htables
  obtain ⟨someText, hsomeText⟩ :=
    exists_writtenIn InstructionDefinition.exists_written instructions
  obtain ⟨otherText, hotherText⟩ := exists_writtenIn EncodingDefinition.exists_written encodings
  refine ⟨⟨someText, otherText, hsomeText, hotherText⟩, tables, hinstructions, hencodings, ?_⟩
  intro instructionText encodingText hinstructionText hencodingText
  have hinstructionOther : ∀ line, ¬ "DEF".toList ++ ['('] <+: trim line →
      instructionOfLine line = .ok none := by
    intro line hline
    rw [instructionOfLine, fields?_eq_none hline]
  have hencodingOther : ∀ line, ¬ "PARAM".toList ++ ['('] <+: trim line →
      encodingOfLine line = .ok none := by
    intro line hline
    rw [encodingOfLine, fields?_eq_none hline]
  have hread := collect_of_writtenIn hinstructionText
    (fun definition hmem line hline => hline.readBack (h.instruction definition hmem))
    hinstructionOther
  have hreadEncodings := collect_of_writtenIn hencodingText
    (fun definition hmem line hline => hline.readBack (h.encoding definition hmem)) hencodingOther
  have hcompile : compile instructionText encodingText = .ok tables := by
    rw [compile, hread, hreadEncodings]
    exact htables
  exact ⟨hcompile, fun directory crate output hoffers => source_build hoffers hcompile⟩

/-! An instruction and an encoding that are written without care. -/

def shownInstruction : InstructionDefinition :=
  ⟨"add", 12, ["to", ""]⟩

def shownEncoding : EncodingDefinition :=
  ⟨"acc", 255, 2, .runtime⟩

def instructionFile : String :=
  "PARAM(x)\r\n\t DEF( add,0x0C,to\t,) DEF(\r\n"

def encodingFile : String :=
  "PARAM ()\n PARAM(acc,0xfF,02, runtime)"

def shownDirectory : Directory where
  folders := [["out"]]
  files := [(["catalog", "opcodes.def"], instructionFile.toUTF8.data.toList),
    (["catalog", "params.def"], encodingFile.toUTF8.data.toList)]

theorem textOfBytes_toUTF8 (text : String) : textOfBytes text.toUTF8.data.toList = .ok text := by
  have hbytes : (⟨text.toUTF8.data.toList.toArray⟩ : ByteArray) = text.toUTF8 := by
    rw [Array.toArray_toList]
  have hread : String.fromUTF8? text.toUTF8 = some text := by
    have hvalid : text.toUTF8.IsValidUTF8 := text.isValidUTF8
    rw [String.fromUTF8?, dif_pos hvalid]
    rfl
  rw [textOfBytes, hbytes, hread]

theorem offers_shownDirectory :
    Offers shownDirectory "crates/lib" "out" instructionFile encodingFile := by
  have hinstructions : shownDirectory.read (Path.append (Path.append "" "catalog") "opcodes.def") =
      .ok instructionFile.toUTF8.data.toList := by
    decide +kernel
  have hencodings : shownDirectory.read (Path.append (Path.append "" "catalog") "params.def") =
      .ok encodingFile.toUTF8.data.toList := by
    decide +kernel
  refine ⟨"", by decide +kernel, ?_, ?_, by decide +kernel⟩
  · rw [Directory.readText, hinstructions]
    exact textOfBytes_toUTF8 instructionFile
  · rw [Directory.readText, hencodings]
    exact textOfBytes_toUTF8 encodingFile

theorem printable_shown : Printable [shownInstruction] [shownEncoding] := by
  have hplain : ∀ {field : List Char}, field.all (fun c => !isBlank c && c != ',' && c != ')') →
      Plain field := by
    intro field hall
    apply plain_of_forall
    simpa [and_assoc] using hall
  have hoperands : ∀ name ∈ shownInstruction.operands, Plain name.toList := by
    refine List.forall_mem_cons.mpr ⟨hplain (by decide), ?_⟩
    exact List.forall_mem_singleton.mpr (hplain (by decide))
  constructor
  case few => exact ⟨by decide, by decide⟩
  case distinct => exact ⟨by decide, by decide⟩
  case instruction =>
    exact List.forall_mem_singleton.mpr ⟨by decide, hplain (by decide), hoperands⟩
  case encoding =>
    exact List.forall_mem_singleton.mpr ⟨by decide, by decide, hplain (by decide)⟩

theorem blanks_shown : Blanks [] ∧ Blanks [' '] ∧ Blanks ['\t'] ∧ Blanks ['\t', ' '] := by
  have hblanks : ∀ {text : List Char}, text.all (fun c => isBlank c && c != '\n') →
      Blanks text := by
    intro text hall
    simpa [Blanks] using hall
  exact ⟨hblanks rfl, hblanks (by decide), hblanks (by decide), hblanks (by decide)⟩

theorem writtenIn_instructionFile :
    WrittenIn InstructionDefinition.Written "DEF".toList [shownInstruction] instructionFile := by
  obtain ⟨hnone, hspace, htab, hboth⟩ := blanks_shown
  have hzero : HexadecimalDigit '0' 0 := Or.inl rfl
  have htwelve : HexadecimalDigit 'C' 12 := Or.inr rfl
  have hcode : Spelled ['0', 'x', '0', 'C'] 12 := .hexadecimal (.concat (.single hzero) htwelve)
  have hpadded : List.Forall₂ Padded ["add".toList, "0x0C".toList, "to".toList, []]
      [" add".toList, "0x0C".toList, "to\t".toList, []] :=
    .cons ⟨[' '], [], hspace, hnone, rfl⟩ (.cons ⟨[], [], hnone, hnone, rfl⟩
      (.cons ⟨[], ['\t'], hnone, htab, rfl⟩ (.cons ⟨[], [], hnone, hnone, rfl⟩ .nil)))
  have hline : shownInstruction.Written "\t DEF( add,0x0C,to\t,) DEF(".toList :=
    ⟨['0', 'x', '0', 'C'], hcode, .mk hboth hpadded (by decide : '\n' ∉ " DEF(".toList)⟩
  have hother : Stands InstructionDefinition.Written "DEF".toList none "PARAM(x)".toList :=
    ⟨by decide, by decide⟩
  exact ⟨[none, some shownInstruction], _, rfl, .cons hother (.cons hline .nil),
    .returnFeed _ (.returnFeed _ .nil)⟩

theorem writtenIn_encodingFile :
    WrittenIn EncodingDefinition.Written "PARAM".toList [shownEncoding] encodingFile := by
  obtain ⟨hnone, hspace, htab, hboth⟩ := blanks_shown
  have hlower : HexadecimalDigit 'f' 15 := Or.inl rfl
  have hupper : HexadecimalDigit 'F' 15 := Or.inr rfl
  have hzero : DecimalDigit '0' 0 := rfl
  have htwo : DecimalDigit '2' 2 := rfl
  have hcode : Spelled ['0', 'x', 'f', 'F'] 255 := .hexadecimal (.concat (.single hlower) hupper)
  have hwidth : Spelled ['0', '2'] 2 := .decimal (.concat (.single hzero) htwo)
  have hpadded : List.Forall₂ Padded
      ["acc".toList, "0xfF".toList, "02".toList, "runtime".toList]
      ["acc".toList, "0xfF".toList, "02".toList, " runtime".toList] :=
    .cons ⟨[], [], hnone, hnone, rfl⟩ (.cons ⟨[], [], hnone, hnone, rfl⟩
      (.cons ⟨[], [], hnone, hnone, rfl⟩ (.cons ⟨[' '], [], hspace, hnone, rfl⟩ .nil)))
  have hline : shownEncoding.Written " PARAM(acc,0xfF,02, runtime)".toList :=
    ⟨['0', 'x', 'f', 'F'], ['0', '2'], hcode, hwidth, .mk hspace hpadded List.not_mem_nil⟩
  have hother : Stands EncodingDefinition.Written "PARAM".toList none "PARAM ()".toList :=
    ⟨by decide, by decide⟩
  exact ⟨[none, some shownEncoding], _, rfl, .cons hother (.cons hline .nil),
    .feed _ (.last _)⟩

theorem tables_of_shown :
    Printable [shownInstruction] [shownEncoding] ∧
      WrittenIn InstructionDefinition.Written "DEF".toList [shownInstruction] instructionFile ∧
      WrittenIn EncodingDefinition.Written "PARAM".toList [shownEncoding] encodingFile ∧
      ∃ tables : Tables, tables.instructions = [shownInstruction] ∧
        tables.encodings = [shownEncoding] ∧ compile instructionFile encodingFile = .ok tables ∧
        (build shownDirectory "crates/lib" "out").source = .ok tables.source := by
  obtain ⟨-, tables, hinstructions, hencodings, hread⟩ := tables_of_writtenIn printable_shown
  obtain ⟨hcompile, hbuild⟩ := hread instructionFile encodingFile writtenIn_instructionFile
    writtenIn_encodingFile
  exact ⟨printable_shown, writtenIn_instructionFile, writtenIn_encodingFile, tables, hinstructions,
    hencodings, hcompile, hbuild _ _ _ offers_shownDirectory⟩

end ScriptDisassembler.Definitions
