import Mathlib
import ScriptDisassembler.Proofs.Encoded
import ScriptDisassembler.Proofs.ReadHead
import ScriptDisassembler.Proofs.Reachable
import ScriptDisassembler.Proofs.TrailingBytes

/-!
What operands say. The value of an operand is a number that its encoding makes of its own words and
of the offset of its instruction, taken as a signed number of 32 bits. In a buffer that ends early
enough below the largest of these numbers, nothing on the way to the value is out of their range,
and the value is the number itself.
-/

namespace ScriptDisassembler

namespace Word

/-- The lowest bits of a word as a number in two's complement. -/
def balanced (word : Word) (bits : Nat) : Int :=
  Int.bmod word.toNat (2 ^ bits)

theorem toInt_signed_eq_balanced (word : Word) : word.signed.toInt = word.balanced 32 := by
  show word.toBitVec.toInt = _
  rw [BitVec.toInt_eq_toNat_bmod]
  rfl

theorem toInt_signedLow (word : Word) : word.signedLow.toInt = word.balanced 16 := by
  rw [signedLow, Int16.toInt_toInt32]
  show word.toUInt16.toBitVec.toInt = _
  rw [BitVec.toInt_eq_toNat_bmod, UInt16.toNat_toBitVec, UInt32.toNat_toUInt16, Int.natCast_mod,
    Int.emod_bmod, balanced]

theorem balanced_bounds (word : Word) :
    -(2 ^ 31) ≤ word.balanced 32 ∧ word.balanced 32 < 2 ^ 31 := by
  unfold balanced
  rw [Int.bmod_def]
  omega

theorem balanced_low_bounds (word : Word) :
    -(2 ^ 15) ≤ word.balanced 16 ∧ word.balanced 16 < 2 ^ 15 := by
  unfold balanced
  rw [Int.bmod_def]
  omega

end Word

namespace Encoding

/-- The number of words by which an address is away from the instruction that denotes it, by the
first word of the operand. -/
def displacement? (encoding : Encoding) (word : Word) : Option Int :=
  match encoding with
  | inline1 | inline2 | inline3 => some (word.balanced 16)
  | inline4 | inline6 | inline7 => some 1
  | inline5 => some (word.balanced 16 + word.field 16 8)
  | _ => none

/-- The number that an operand stands for, by the offset of its instruction and its own words. -/
def value? (encoding : Encoding) (header : Nat) (raw : List Word) : Option Int :=
  match encoding, raw with
  | immediate, word :: _ => some (word.balanced 32)
  | nextImmediate, _ :: word :: _ => some (word.balanced 32)
  | encoding, word :: _ => (encoding.displacement? word).map fun words => header + 4 * words
  | _, [] => none

/-- The numbers that come up, one after the other, where an address is computed. -/
def partials (encoding : Encoding) (header : Nat) (word : Word) : List Int :=
  match encoding.displacement? word with
  | some words => [header, words, 4 * words, header + 4 * words]
  | none => []

/-- The displacement is one of at most 33022 words forward and 32768 back. -/
theorem displacement?_bounds {encoding : Encoding} {word : Word} {words : Int}
    (h : encoding.displacement? word = some words) : -32768 ≤ words ∧ words ≤ 33022 := by
  have hlow := word.balanced_low_bounds
  have hbyte := word.field_lt 16 8
  simp only [displacement?] at h
  generalize word.balanced 16 = low at hlow h
  generalize word.field 16 8 = byte at hbyte h
  cases encoding with
  | inline1 | inline2 | inline3 | inline4 | inline5 | inline6 | inline7 =>
    rw [Option.some.injEq] at h
    omega
  | _ => cases h

end Encoding

variable {buffer : Buffer} {signatures : Signatures}

/-- Arithmetic on 32 bits takes the sum modulo their size. -/
theorem toInt_displaced (header : Nat) (words : Int32) :
    (Int32.ofNat header + words * 4).toInt = Int.bmod (header + 4 * words.toInt) (2 ^ 32) := by
  have hsize : Int32.size = 2 ^ 32 := rfl
  have hfour : Int32.toInt 4 = 4 := rfl
  rw [Int32.toInt_add, Int32.toInt_mul, Int32.toInt_ofNat', hsize, hfour, Int.bmod_add_bmod,
    Int.add_bmod_bmod, Int.mul_comm]

theorem bmod_eq_self {number : Int} (hlow : -(2 ^ 31) ≤ number) (hhigh : number < 2 ^ 31) :
    Int.bmod number (2 ^ 32) = number :=
  Int.bmod_eq_of_le (by omega) (by omega)

/-- A displacement and the byte beside it are far from the limits. -/
theorem toInt_signedLow_add (word : Word) :
    (word.signedLow + Int32.ofNat (word.field 16 8)).toInt =
      word.balanced 16 + word.field 16 8 := by
  have hlow := word.balanced_low_bounds
  have hbyte := word.field_lt 16 8
  have hsize : Int32.size = 2 ^ 32 := rfl
  rw [Int32.toInt_add, Int32.toInt_ofNat', Word.toInt_signedLow, hsize, Int.add_bmod_bmod]
  generalize word.balanced 16 = low at hlow ⊢
  generalize word.field 16 8 = byte at hbyte ⊢
  exact bmod_eq_self (by omega) (by omega)

theorem wordsAt_succ_ok {offset count : Nat} {raw : List Word}
    (h : buffer.wordsAt offset (count + 1) = .ok raw) :
    ∃ word rest, raw = word :: rest ∧ buffer.wordAt offset = .ok word ∧
      buffer.wordsAt (offset + 4) count = .ok rest := by
  simp only [Buffer.wordsAt] at h
  split at h
  · cases h
  · next word hword =>
    split at h
    · cases h
    · next rest hrest =>
      cases h
      exact ⟨word, rest, rfl, hword, hrest⟩

/-- What is computed is the number of the encoding, modulo the size of a word. -/
theorem toInt_resolve {header offset : Nat} {encoding : Encoding} {word : Word} {raw : List Word}
    {resolved : Option Int32} (hword : buffer.wordAt offset = .ok word)
    (hraw : buffer.wordsAt offset encoding.width = .ok raw)
    (h : buffer.resolve header offset (word.field 16 8) encoding = .ok resolved) :
    resolved.map Int32.toInt = (encoding.value? header raw).map (Int.bmod · (2 ^ 32)) := by
  obtain ⟨count, hcount⟩ := Nat.exists_eq_succ_of_ne_zero (Nat.ne_of_gt encoding.width_pos)
  rw [hcount] at hraw
  obtain ⟨first, rest, rfl, hfirst, hrest⟩ := wordsAt_succ_ok hraw
  obtain rfl : first = word := Except.ok.inj (hfirst.symm.trans hword)
  have hliteral : ∀ literal : Word,
      literal.signed.toInt = Int.bmod (literal.balanced 32) (2 ^ 32) := by
    intro literal
    rw [Word.toInt_signed_eq_balanced, Word.balanced, Int.bmod_bmod]
  simp only [Buffer.resolve, hword, Except.map] at h
  cases encoding with
  | immediate =>
    cases h
    exact congrArg some (hliteral first)
  | nextImmediate =>
    obtain rfl : 1 = count := Nat.succ.inj hcount
    obtain ⟨second, others, rfl, hsecond, -⟩ := wordsAt_succ_ok hrest
    rw [hsecond] at h
    cases h
    exact congrArg some (hliteral second)
  | inline1 | inline2 | inline3 =>
    cases h
    rw [Option.map_some, toInt_displaced, Word.toInt_signedLow]
    rfl
  | inline4 | inline6 | inline7 =>
    cases h
    have hone := toInt_displaced header 1
    exact congrArg some hone
  | inline5 =>
    cases h
    rw [Option.map_some, toInt_displaced, toInt_signedLow_add]
    rfl
  | _ =>
    cases h
    rfl

/-- The value of an operand is the number for which its encoding and its words stand in an
instruction that begins at `header`, modulo the size of a word. -/
def Operand.ValuedAt (header : Nat) (operand : Operand) : Prop :=
  operand.resolved.map Int32.toInt =
    (operand.encoding.value? header operand.raw).map (Int.bmod · (2 ^ 32))

theorem valuedAt_of_decode {offset : Nat} {instruction : Instruction}
    (h : decode buffer offset = .ok instruction) :
    ∀ operand ∈ instruction.operands, operand.ValuedAt instruction.offset := by
  intro operand hmem
  obtain ⟨place, start, hread⟩ := exists_decodeOperand h hmem
  obtain ⟨word, encoding, raw, resolved, hword, -, -, hraw, hresolved, rfl⟩ :=
    decodeOperand_eq_ok hread
  exact toInt_resolve hword hraw hresolved

/-- A signed number of 32 bits. -/
def Representable (number : Int) : Prop :=
  -(2 ^ 31) ≤ number ∧ number < 2 ^ 31

/-- The end of the longest buffer in which the numbers of all operands are representable: it is
four times the largest displacement below the first number that is not. -/
def exactLength : Nat :=
  2 ^ 31 - 132088

theorem Encoding.representable_of_mem_partials {encoding : Encoding} {header : Nat} {word : Word}
    {number : Int} (hheader : header < exactLength)
    (hmem : number ∈ encoding.partials header word) : Representable number := by
  unfold partials at hmem
  unfold exactLength at hheader
  unfold Representable
  split at hmem
  · next words hwords =>
    have hbounds := displacement?_bounds hwords
    simp only [List.mem_cons, List.not_mem_nil, or_false] at hmem
    omega
  · exact absurd hmem List.not_mem_nil

theorem Encoding.representable_of_value? {encoding : Encoding} {header : Nat} {raw : List Word}
    {number : Int} (hheader : header < exactLength)
    (hvalue : encoding.value? header raw = some number) : Representable number := by
  unfold value? at hvalue
  split at hvalue
  · next word rest =>
    obtain rfl := Option.some.inj hvalue
    exact word.balanced_bounds
  · next first word rest =>
    obtain rfl := Option.some.inj hvalue
    exact word.balanced_bounds
  · next word rest _ _ =>
    obtain ⟨words, hwords, rfl⟩ := Option.map_eq_some_iff.mp hvalue
    have hmem : header + 4 * words ∈ encoding.partials header word := by
      unfold partials
      rw [hwords]
      simp
    exact representable_of_mem_partials hheader hmem
  · cases hvalue

/-- Where the number is representable, the value is the number. -/
theorem Operand.ValuedAt.exact {header : Nat} {operand : Operand} (h : operand.ValuedAt header)
    (hheader : header < exactLength) :
    operand.resolved.map Int32.toInt = operand.encoding.value? header operand.raw := by
  rw [h]
  cases hvalue : operand.encoding.value? header operand.raw with
  | none => rfl
  | some number =>
    have hnumber := Encoding.representable_of_value? hheader hvalue
    exact congrArg some (bmod_eq_self hnumber.1 hnumber.2)

/-- The values of the operands of an instruction, by where it begins and by their own words. -/
structure Instruction.Valued (buffer : Buffer) (instruction : Instruction) : Prop where
  wrapped : ∀ operand ∈ instruction.operands, operand.resolved.map Int32.toInt =
    (operand.encoding.value? instruction.offset operand.raw).map (Int.bmod · (2 ^ 32))
  /-- Nothing on the way to a value is out of range if the buffer is not too long. -/
  representable : buffer.length ≤ exactLength → ∀ operand ∈ instruction.operands,
    ∀ word ∈ operand.raw.head?, ∀ number ∈ operand.encoding.partials instruction.offset word,
      Representable number
  exact : buffer.length ≤ exactLength → ∀ operand ∈ instruction.operands,
    operand.resolved.map Int32.toInt = operand.encoding.value? instruction.offset operand.raw
  /-- A read head comes to the same operands, whatever byte it has latched before. -/
  head : buffer.length < UInt64.size → ∀ head : Cursor, head.buffer = buffer →
    head.current.toNat = instruction.offset →
      ∃ moved, head.instruction = .ok (instruction.bare, moved) ∧ moved.buffer = buffer ∧
        moved.current.toNat = instruction.next

theorem valued_of_decode {offset : Nat} {instruction : Instruction}
    (h : decode buffer offset = .ok instruction) : instruction.Valued buffer := by
  have hvalued := valuedAt_of_decode h
  obtain ⟨rfl, -, hinside, -, -, hbare⟩ := decode_ok h
  constructor
  case wrapped => exact hvalued
  case representable =>
    intro hlength operand hmem word hword number
    exact Encoding.representable_of_mem_partials (Nat.lt_of_lt_of_le hinside hlength)
  case exact =>
    intro hlength operand hmem
    exact (hvalued operand hmem).exact (Nat.lt_of_lt_of_le hinside hlength)
  case head =>
    rintro hlength head rfl hcurrent
    rw [hbare]
    rw [← hcurrent] at h
    exact Cursor.exists_moved hlength h

theorem Instruction.bare_bare (instruction : Instruction) :
    instruction.bare.bare = instruction.bare := by
  simp only [bare, List.map_map]
  rfl

/-- The names of the operands have no part in their values. -/
theorem Instruction.Valued.of_bare {instruction : Instruction}
    (h : instruction.bare.Valued buffer) : instruction.Valued buffer := by
  have hmem : ∀ {operand}, operand ∈ instruction.operands →
      operand.bare ∈ instruction.bare.operands := List.mem_map_of_mem
  constructor
  case wrapped => exact fun operand hoperand => h.wrapped operand.bare (hmem hoperand)
  case representable =>
    exact fun hlength operand hoperand => h.representable hlength operand.bare (hmem hoperand)
  case exact => exact fun hlength operand hoperand => h.exact hlength operand.bare (hmem hoperand)
  case head =>
    intro hlength head hbuffer hcurrent
    obtain ⟨moved, hread, hmoved, hnext⟩ := h.head hlength head hbuffer hcurrent
    rw [bare_bare] at hread
    rw [next_bare] at hnext
    exact ⟨moved, hread, hmoved, hnext⟩

theorem Script.mem_tokens_placeOperands {script : Script} {operands : List Operand}
    {instruction : Instruction}
    (hmem : .instruction instruction ∈
      (operands.foldl (fun script operand => script.place (.operand operand)) script).tokens) :
    .instruction instruction ∈ script.tokens := by
  obtain ⟨slots, -, heq⟩ := foldl_place_eq operands script
  rw [heq] at hmem
  rcases Array.mem_append.mp hmem with hold | hoperand
  · exact hold
  · obtain ⟨operand, -, hcontra⟩ := List.mem_map.mp (List.mem_toArray.mp hoperand)
    cases hcontra

/-- At every moment of a disassembly, an instruction is the one that is decoded at its offset. -/
theorem Script.Reachable.decoded {script : Script} {instruction : Instruction}
    (h : script.Reachable buffer signatures) (hmem : .instruction instruction ∈ script.tokens) :
    decode buffer instruction.offset = .ok instruction.bare := by
  have hexploring : ∀ {tasks : List Task} {survey : Survey},
      Exploring buffer signatures tasks survey →
        .instruction instruction ∈ survey.script.tokens →
          decode buffer instruction.offset = .ok instruction.bare := by
    intro tasks survey hreached hmem
    obtain ⟨id, htoken⟩ := Array.getElem?_of_mem hmem
    exact hreached.progress.layout.decoded htoken
  cases h with
  | entering hlimit hfound =>
    exact absurd hmem ((findEntrypoints_unexplored hfound).not_mem_instruction instruction)
  | exploring hreached | naming hreached | namingTable hreached => exact hexploring hreached hmem
  | filling hreached hcount hfilled =>
    rcases (fillGaps_filled hfilled).tokens _ hmem with hold | hdata
    · exact hexploring hreached hold
    · exact absurd hdata id
  | @placing offset rest survey decoded entered front hreached hdecode hclaim hfront =>
    have hplaced := mem_tokens_placeOperands hmem
    rw [tokens_place, Array.mem_push] at hplaced
    rcases hplaced with hold | hnew
    · exact hexploring hreached hold
    · obtain ⟨rfl, -, -, -, -, hbare⟩ := decode_ok hdecode
      have hsame : instruction.bare = decoded.bare := by
        rw [Token.instruction.inj hnew]
        simp only [Instruction.bare, map_bare_labelOperands]
      rw [hsame, hbare, ← hdecode, Token.instruction.inj hnew]

/-- The value of every operand of every instruction that a disassembly enters. -/
theorem valued_of_reachable {script : Script} {instruction : Instruction}
    (h : script.Reachable buffer signatures) (hmem : .instruction instruction ∈ script.tokens) :
    instruction.Valued buffer :=
  .of_bare (valued_of_decode (h.decoded hmem))

/-- A conditional jump whose operands take two words, two words and one. Every operand has a byte of
its own below its code. -/
def mixedWidths : List UInt8 :=
  [4, 0, 0, 0, 0x42, 3, 0, 0, 0, 0, 7, 3, 0xff, 0xff, 0xff, 0xff, 0, 0, 5, 1, 0xf0, 0xff, 0xff,
    0xff, 0xff, 0xff, 3, 0x0d]

theorem valued_of_mixedWidths :
    ∃ script instruction, disassemble mixedWidths .empty = .ok script ∧
      .instruction instruction ∈ script.tokens ∧
      instruction.operands.map (fun operand => operand.resolved.map Int32.toInt) =
        [none, some (-16), some 12] ∧
      instruction.Valued (.ofBytes mixedWidths) := by
  have hread : (disassemble mixedWidths .empty).toOption.map (fun script => script.tokens[1]?) =
      some (some (.instruction ⟨4, .jmpCmp0, 0,
        [⟨8, .otherOtherStorage, [0x03070000, 0xffffffff], none, none⟩,
          ⟨16, .nextImmediate, [0x01050000, 0xfffffff0], some (-16), none⟩,
          ⟨24, .inline5, [0x0d03ffff], some 12, some "LABEL_1"⟩]⟩)) := by
    cbv
  obtain ⟨script, h, htoken⟩ := exists_disassemble hread
  have hmem := Array.mem_of_getElem? htoken
  exact ⟨script, _, h, hmem, rfl, valued_of_reachable (reachable_of_disassemble h) hmem⟩

end ScriptDisassembler
