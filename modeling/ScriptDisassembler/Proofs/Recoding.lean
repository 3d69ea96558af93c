import Mathlib.Algebra.Group.Int.Defs
import ScriptDisassembler.Proofs.Decoding

/-!
An instruction that was decoded says what words it was decoded from. Its first word is put
together again from the code, the number of operands and the immediate, none of which loses
a bit, and each operand carries its own words.
-/

namespace ScriptDisassembler

namespace Word

theorem toInt_signed (word : Word) :
    word.signed.toInt =
      if 2 * word.toNat < 2 ^ 32 then (word.toNat : Int) else word.toNat - 2 ^ 32 := by
  have hsigned : word.signed.toInt = word.toBitVec.toInt := rfl
  rw [hsigned, BitVec.toInt_eq_toNat_cond]
  rfl

/-- A word is the two's complement of the number that it is as a signed one. -/
theorem ofInt_toInt_signed (word : Word) : UInt32.ofInt word.signed.toInt = word := by
  have hlt := word.toNat_lt
  have hmod : (word.signed.toInt % 2 ^ 32).toNat = word.toNat := by
    rw [toInt_signed]
    split <;> omega
  unfold UInt32.ofInt
  rw [hmod, UInt32.ofNat_toNat]

/-- The fields of a first word make up the word. -/
theorem toNat_eq_fields (word : Word) :
    word.toNat = word.field 0 8 + 2 ^ 8 * word.field 8 8 + 2 ^ 16 * word.field 16 16 := by
  have hlt := word.toNat_lt
  simp only [field, Nat.shiftRight_eq_div_pow, Nat.one_shiftLeft]
  omega

end Word

/-- The first word of an instruction, put together from its parts. -/
def Instruction.header (instruction : Instruction) : Word :=
  UInt32.ofNat instruction.opcode.code ||| UInt32.ofNat instruction.operands.length <<< 8 |||
    instruction.immediate.toUInt32 <<< 16

/-- Numbers that share no bit are put together by addition. -/
theorem or_shiftLeft {low bits : Nat} (high : Nat) (h : low < 2 ^ bits) :
    low ||| high <<< bits = low + 2 ^ bits * high := by
  rw [Nat.or_comm, ← Nat.shiftLeft_add_eq_or_of_lt h, Nat.shiftLeft_eq, Nat.mul_comm, Nat.add_comm]

theorem toNat_header {instruction : Instruction} (hlength : instruction.operands.length < 2 ^ 8) :
    instruction.header.toNat =
      instruction.opcode.code + 2 ^ 8 * instruction.operands.length +
        2 ^ 16 * instruction.immediate.toNat := by
  have hcode : instruction.opcode.code < 2 ^ 8 := instruction.opcode.code_lt
  have himmediate := instruction.immediate.toNat_lt
  have hlow : (UInt32.ofNat instruction.opcode.code).toNat = instruction.opcode.code := by
    rw [UInt32.toNat_ofNat']
    omega
  have hmiddle : (UInt32.ofNat instruction.operands.length <<< 8).toNat =
      instruction.operands.length <<< 8 := by
    simp only [UInt32.toNat_shiftLeft, UInt32.toNat_ofNat', UInt32.reduceToNat, Nat.reduceMod,
      Nat.shiftLeft_eq]
    omega
  have hhigh : (instruction.immediate.toUInt32 <<< 16).toNat =
      instruction.immediate.toNat <<< 16 := by
    simp only [UInt32.toNat_shiftLeft, UInt16.toNat_toUInt32, UInt32.reduceToNat, Nat.reduceMod,
      Nat.shiftLeft_eq]
    omega
  have hbelow : instruction.opcode.code + 2 ^ 8 * instruction.operands.length < 2 ^ 16 := by omega
  rw [Instruction.header, UInt32.toNat_or, UInt32.toNat_or, hlow, hmiddle, hhigh,
    or_shiftLeft _ hcode, or_shiftLeft _ hbelow]

@[simp] theorem Instruction.header_bare (instruction : Instruction) :
    instruction.bare.header = instruction.header := by
  simp only [header, opcode_bare, operands_bare, immediate_bare, List.length_map]

/-- The words from which an instruction was decoded. -/
def Instruction.words (instruction : Instruction) : List Word :=
  instruction.header :: instruction.operands.flatMap Operand.raw

@[simp] theorem Instruction.words_bare (instruction : Instruction) :
    instruction.bare.words = instruction.words := by
  simp only [words, header_bare, operands_bare, List.flatMap_map]
  rfl

variable {buffer : Buffer}

theorem wordsAt_append {offset first second : Nat} {front back : List Word}
    (hfront : buffer.wordsAt offset first = .ok front)
    (hback : buffer.wordsAt (offset + 4 * first) second = .ok back) :
    buffer.wordsAt offset (first + second) = .ok (front ++ back) := by
  induction first generalizing offset front with
  | zero =>
    cases hfront
    rw [Nat.zero_add, List.nil_append]
    exact hback
  | succ first ih =>
    simp only [Buffer.wordsAt] at hfront
    split at hfront
    · cases hfront
    · next word hword =>
      split at hfront
      · cases hfront
      · next rest hrest =>
        cases hfront
        have hcount : first + 1 + second = first + second + 1 := by omega
        have hnext : offset + 4 * (first + 1) = offset + 4 + 4 * first := by omega
        rw [hnext] at hback
        rw [hcount]
        simp only [Buffer.wordsAt, hword, ih hrest hback, List.cons_append]

theorem wordsAt_decodeOperand {opcode : Opcode} {header place offset : Nat} {operand : Operand}
    (h : decodeOperand buffer opcode header place offset = .ok operand) :
    buffer.wordsAt offset operand.width = .ok operand.raw := by
  obtain ⟨word, encoding, raw, resolved, -, -, -, hraw, -, rfl⟩ := decodeOperand_eq_ok h
  rw [Operand.width, length_wordsAt hraw]
  exact hraw

theorem wordsAt_decodeOperands {opcode : Opcode} {header count place offset : Nat}
    {operands : List Operand}
    (h : decodeOperands buffer opcode header count place offset = .ok operands) :
    operands.length = count ∧
      buffer.wordsAt offset (operands.map Operand.width).sum =
        .ok (operands.flatMap Operand.raw) := by
  induction count generalizing place offset operands with
  | zero =>
    cases h
    exact ⟨rfl, rfl⟩
  | succ count ih =>
    obtain ⟨operand, rest, hfirst, hrest, rfl⟩ := decodeOperands_succ_eq_ok h
    obtain ⟨hlength, hwords⟩ := ih hrest
    refine ⟨by rw [List.length_cons, hlength], ?_⟩
    rw [List.map_cons, List.sum_cons, List.flatMap_cons]
    exact wordsAt_append (wordsAt_decodeOperand hfirst) hwords

/-- Where an instruction is decoded, the buffer has its words. -/
theorem wordsAt_decode {offset : Nat} {instruction : Instruction}
    (h : decode buffer offset = .ok instruction) :
    buffer.wordsAt offset instruction.width = .ok instruction.words := by
  obtain ⟨word, header, operands, hword, hheader, hoperands, rfl⟩ := decode_eq_ok h
  obtain ⟨hlength, hwords⟩ := wordsAt_decodeOperands hoperands
  obtain ⟨hcode, harity, himmediate, -⟩ := Header.ofWord?_eq_some hheader
  have hfew := word.field_lt 8 8
  have hfirst : (⟨offset, header.opcode, header.immediate, operands⟩ : Instruction).header =
      word := by
    apply UInt32.toNat_inj.mp
    rw [toNat_header (by dsimp only; omega), word.toNat_eq_fields]
    dsimp only
    omega
  have hsingle : buffer.wordsAt offset 1 = .ok [word] := by
    simp only [Buffer.wordsAt, hword]
  rw [Instruction.words, hfirst]
  exact wordsAt_append hsingle hwords

end ScriptDisassembler
