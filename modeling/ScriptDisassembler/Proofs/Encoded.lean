import ScriptDisassembler.Proofs.Growth
import ScriptDisassembler.Proofs.Recoding

/-!
What every instruction of a script is: the one that the words at its offset encode, entered by
a scan that came to it and followed at once. The names that its operands are given on the way
have no part in this.
-/

namespace ScriptDisassembler

variable {buffer : Buffer} {signatures : Signatures}

/-- The words at the offset of an operand encode it. -/
structure Operand.Encoded (buffer : Buffer) (operand : Operand) : Prop where
  encoding : ∃ word, buffer.wordAt operand.offset = .ok word ∧
    Encoding.ofCode? (word.field 24 8) = some operand.encoding
  width : operand.raw.length = operand.encoding.width
  words : ∀ {place : Nat} {word : Word}, operand.raw[place]? = some word →
    buffer.wordAt (operand.offset + 4 * place) = .ok word

/-- The word at the offset of an instruction and those behind it encode the instruction. -/
structure Instruction.Encoded (buffer : Buffer) (instruction : Instruction) : Prop where
  header : ∃ word, buffer.wordAt instruction.offset = .ok word ∧
    Opcode.ofCode? (word.field 0 8) = some instruction.opcode ∧
    word.field 8 8 = instruction.operands.length ∧
    word.field 16 16 = instruction.immediate.toNat
  consecutive : Operand.Consecutive (instruction.offset + 4) instruction.operands
  operand : ∀ operand ∈ instruction.operands, operand.Encoded buffer

theorem wordAt_of_wordsAt {offset count place : Nat} {raw : List Word} {word : Word}
    (h : buffer.wordsAt offset count = .ok raw) (hplace : raw[place]? = some word) :
    buffer.wordAt (offset + 4 * place) = .ok word := by
  induction count generalizing offset place raw with
  | zero =>
    cases h
    simp at hplace
  | succ count ih =>
    simp only [Buffer.wordsAt] at h
    split at h
    · cases h
    · next first hfirst =>
      split at h
      · cases h
      · next rest hrest =>
        cases h
        cases place with
        | zero =>
          rw [List.getElem?_cons_zero, Option.some.injEq] at hplace
          rw [← hplace]
          exact hfirst
        | succ place =>
          have hnext := ih hrest hplace
          have hoffset : offset + 4 * (place + 1) = offset + 4 + 4 * place := by omega
          rw [hoffset, hnext]

theorem encoded_of_decodeOperand {opcode : Opcode} {header place offset : Nat}
    {operand : Operand} (h : decodeOperand buffer opcode header place offset = .ok operand) :
    operand.Encoded buffer := by
  have hwords := wordsAt_decodeOperand h
  obtain ⟨word, encoding, raw, resolved, hword, hencoding, -, hraw, -, rfl⟩ := decodeOperand_eq_ok h
  constructor
  · exact ⟨word, hword, hencoding⟩
  · exact length_wordsAt hraw
  · intro index other hindex
    exact wordAt_of_wordsAt hwords hindex

theorem encoded_of_decode {offset : Nat} {instruction : Instruction}
    (h : decode buffer offset = .ok instruction) : instruction.Encoded buffer := by
  obtain ⟨-, -, -, hconsecutive, -⟩ := decode_ok h
  have hoperand : ∀ operand ∈ instruction.operands, operand.Encoded buffer := by
    intro operand hmem
    obtain ⟨place, start, hread⟩ := exists_decodeOperand h hmem
    exact encoded_of_decodeOperand hread
  obtain ⟨word, header, operands, hword, hheader, hoperands, rfl⟩ := decode_eq_ok h
  obtain ⟨hcode, harity, himmediate, -⟩ := Header.ofWord?_eq_some hheader
  obtain ⟨hlength, -⟩ := wordsAt_decodeOperands hoperands
  refine ⟨⟨word, hword, ?_, ?_, himmediate.symm⟩, hconsecutive, hoperand⟩
  · rw [← hcode, Opcode.ofCode?_code]
  · rw [hlength, harity]

theorem Instruction.Encoded.of_bare {instruction : Instruction}
    (h : instruction.bare.Encoded buffer) : instruction.Encoded buffer := by
  constructor
  · obtain ⟨word, hword, hopcode, harity, himmediate⟩ := h.header
    rw [operands_bare, List.length_map] at harity
    exact ⟨word, hword, hopcode, harity, himmediate⟩
  · exact (Operand.consecutive_map_bare _ _).mp h.consecutive
  · intro operand hmem
    have hoperand := h.operand operand.bare (List.mem_map_of_mem hmem)
    exact ⟨hoperand.encoding, hoperand.width, hoperand.words⟩

theorem Script.Layout.encoded {script : Script} {instruction : Instruction}
    (h : script.Layout buffer) (hmem : .instruction instruction ∈ script.tokens) :
    instruction.Encoded buffer := by
  obtain ⟨id, htoken⟩ := Array.getElem?_of_mem hmem
  exact .of_bare (encoded_of_decode (h.decoded htoken))

/-- An instruction that a task adds to a script is the one that the task decodes and follows. -/
theorem Task.Performs.mem_instruction {task : Task} {survey after : Survey} {more : List Task}
    {instruction : Instruction} (h : Task.Performs buffer signatures survey task after more)
    (hmem : .instruction instruction ∈ after.script.tokens) :
    .instruction instruction ∈ survey.script.tokens ∨
      ∃ entered : Survey, task = .scan instruction.offset ∧
        decode buffer instruction.offset = .ok instruction.bare ∧
        Follows buffer signatures instruction.bare entered after more := by
  cases h with
  | probeKnown | scanEnd | scanUndecodable | scanRefused | argumentsDone | argumentValue
  | argumentUnknown | argumentOutside | probeNew => exact .inl hmem
  | argumentEntered =>
    rw [script_update, (Script.SameImage.insertRole _ _ _).tokens] at hmem
    exact .inl hmem
  | tableEntry =>
    rw [script_update, (Script.SameImage.insertDestination _ _ _).tokens] at hmem
    exact .inl hmem
  | @tableEnd _ table found =>
    obtain ⟨names, htokens⟩ := survey.script.mem_tokens_placeTable table found
    rw [script_closeTable, htokens] at hmem
    exact .inl (hmem.resolve_right nofun)
  | @scanEntered offset decoded entered _ _ hinside hdecode hclaim hfollow =>
    obtain ⟨named, hbare, htokens⟩ := Script.mem_tokens_claimInstruction hclaim
    obtain ⟨rfl, -, -, -, -, hsame⟩ := decode_ok hdecode
    rw [hfollow.sameImage.tokens, htokens] at hmem
    rcases hmem with hold | hnew | ⟨operand, -, hnew⟩
    · exact .inl hold
    · cases hnew
      rw [hsame] at hbare
      rw [← hbare] at hdecode hfollow
      refine .inr ⟨_, ?_, hdecode, hfollow⟩
      rw [← hbare]
      rfl
    · cases hnew

end ScriptDisassembler
