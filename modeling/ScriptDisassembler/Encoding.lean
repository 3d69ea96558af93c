/-!
The ways in which an instruction encodes an operand. The code byte of an encoding is the
top byte of the operand's first word; the encoding fixes how many words the operand takes.
-/

namespace ScriptDisassembler

inductive Encoding where
  | immediate | nextImmediate
  | storage | otherOtherStorage | otherStorage
  | gamevar1 | gamevar2 | gamevarArray1 | gamevarArray2
  | inline1 | inline2 | inline3 | inline4 | inline5
  | gamevar3 | gamevarArray3 | gamevarArray4
  | inline6 | inline7
  | storageArray1
deriving DecidableEq, Repr

inductive EncodingKind where
  /-- The encoding carries a literal. -/
  | value
  /-- The value lives in the machine's storage and is not known before it runs. -/
  | runtime
  /-- The encoding denotes a code address relative to the instruction. -/
  | inline
deriving DecidableEq, Repr

structure EncodingEntry where
  name : String
  code : Nat
  /-- Counted in words. -/
  width : Nat
  kind : EncodingKind

namespace Encoding

def entry : Encoding → EncodingEntry
  | immediate => ⟨"immediate", 0x00, 1, .value⟩
  | nextImmediate => ⟨"next_immediate", 0x01, 2, .value⟩
  | storage => ⟨"storage", 0x02, 1, .runtime⟩
  | otherOtherStorage => ⟨"other_other_storage", 0x03, 2, .runtime⟩
  | otherStorage => ⟨"other_storage", 0x04, 2, .runtime⟩
  | gamevar1 => ⟨"gamevar_1", 0x05, 1, .runtime⟩
  | gamevar2 => ⟨"gamevar_2", 0x06, 2, .runtime⟩
  | gamevarArray1 => ⟨"gamevar_array_1", 0x07, 2, .runtime⟩
  | gamevarArray2 => ⟨"gamevar_array_2", 0x08, 2, .runtime⟩
  | inline1 => ⟨"inline_1", 0x09, 1, .inline⟩
  | inline2 => ⟨"inline_2", 0x0a, 2, .inline⟩
  | inline3 => ⟨"inline_3", 0x0b, 2, .inline⟩
  | inline4 => ⟨"inline_4", 0x0c, 1, .inline⟩
  | inline5 => ⟨"inline_5", 0x0d, 1, .inline⟩
  | gamevar3 => ⟨"gamevar_3", 0x10, 2, .runtime⟩
  | gamevarArray3 => ⟨"gamevar_array_3", 0x11, 2, .runtime⟩
  | gamevarArray4 => ⟨"gamevar_array_4", 0x12, 3, .runtime⟩
  | inline6 => ⟨"inline_6", 0x13, 1, .inline⟩
  | inline7 => ⟨"inline_7", 0x15, 1, .inline⟩
  | storageArray1 => ⟨"storage_array_1", 0x16, 2, .runtime⟩

/-- Every encoding, in the order of the codes. -/
def all : List Encoding :=
  [immediate, nextImmediate, storage, otherOtherStorage, otherStorage,
   gamevar1, gamevar2, gamevarArray1, gamevarArray2,
   inline1, inline2, inline3, inline4, inline5,
   gamevar3, gamevarArray3, gamevarArray4, inline6, inline7, storageArray1]

def name (encoding : Encoding) : String :=
  encoding.entry.name

def code (encoding : Encoding) : Nat :=
  encoding.entry.code

def width (encoding : Encoding) : Nat :=
  encoding.entry.width

def isInline (encoding : Encoding) : Bool :=
  encoding.entry.kind == .inline

/-- The identifier of an encoding is its name in upper case. -/
def id (encoding : Encoding) : String :=
  encoding.name.toUpper

def ofCode? (code : Nat) : Option Encoding :=
  all.find? fun encoding => encoding.code == code

def ofId? (id : String) : Option Encoding :=
  all.find? fun encoding => encoding.id == id

theorem mem_all (encoding : Encoding) : encoding ∈ all := by
  cases encoding <;> decide

theorem ofCode?_code (encoding : Encoding) : ofCode? encoding.code = some encoding := by
  cases encoding <;> decide

theorem code_eq_of_ofCode? {code : Nat} {encoding : Encoding}
    (h : ofCode? code = some encoding) : encoding.code = code := by
  simpa using List.find?_some h

theorem width_pos (encoding : Encoding) : 0 < encoding.width := by
  cases encoding <;> decide

theorem width_le (encoding : Encoding) : encoding.width ≤ 3 := by
  cases encoding <;> decide

end Encoding

end ScriptDisassembler
