import Mathlib.Algebra.GroupWithZero.Nat
import ScriptDisassembler.Disassembly

/-!
What a decoded instruction is known to be. Its operands follow its first word without a
gap, each takes at least one word, and the last ends inside the buffer. Entering an
instruction adds names to its operands and changes nothing else about them, so an entered
instruction without its names is still the one that was decoded.
-/

namespace ScriptDisassembler

theorem Word.field_lt (word : Word) (low width : Nat) : word.field low width < 2 ^ width := by
  rw [field, Nat.one_shiftLeft]
  exact Nat.mod_lt _ (Nat.two_pow_pos width)

/-- The parts of a first word; only a call may have another number of operands than the
instruction set gives. -/
theorem Header.ofWord?_eq_some {word : Word} {header : Header}
    (h : Header.ofWord? word = some header) :
    header.opcode.code = word.field 0 8 ∧ header.arity = word.field 8 8 ∧
      header.immediate.toNat = word.field 16 16 ∧
      (header.opcode = .call ∨ header.opcode.operands.length = header.arity) := by
  simp only [Header.ofWord?] at h
  split at h
  · cases h
  · next opcode hopcode =>
    split at h
    · next hfits =>
      cases h
      refine ⟨Opcode.code_eq_of_ofCode? hopcode, rfl, ?_, hfits⟩
      have hlt := word.field_lt 16 16
      rw [UInt16.toNat_ofNat', Nat.mod_eq_of_lt hlt]
    · cases h

namespace Operand

/-- An operand without the name of the address that it denotes. -/
def bare (operand : Operand) : Operand :=
  { operand with label := none }

@[simp] theorem offset_bare (operand : Operand) : operand.bare.offset = operand.offset := rfl

@[simp] theorem width_bare (operand : Operand) : operand.bare.width = operand.width := rfl

/-- Operands that follow each other without a gap from `offset` on, none of them empty. -/
def Consecutive : (offset : Nat) → List Operand → Prop
  | _, [] => True
  | offset, operand :: rest =>
    operand.offset = offset ∧ 0 < operand.width ∧ Consecutive (offset + 4 * operand.width) rest

theorem consecutive_map_bare (offset : Nat) (operands : List Operand) :
    Consecutive offset (operands.map bare) ↔ Consecutive offset operands := by
  induction operands generalizing offset with
  | nil => rfl
  | cons operand rest ih =>
    simp only [List.map_cons, Consecutive, offset_bare, width_bare, ih]

/-- The place of an operand is fixed by the widths of those before it. -/
theorem Consecutive.offset_eq {offset : Nat} {operands : List Operand} {operand : Operand}
    {place : Nat} (h : Consecutive offset operands) (hplace : operands[place]? = some operand) :
    operand.offset = offset + 4 * ((operands.take place).map width).sum := by
  induction operands generalizing offset place with
  | nil => simp at hplace
  | cons head rest ih =>
    obtain ⟨hoffset, hwidth, hrest⟩ := h
    cases place with
    | zero =>
      simp only [List.getElem?_cons_zero, Option.some.injEq] at hplace
      subst hplace
      simp [hoffset]
    | succ place =>
      have hnext := ih hrest hplace
      simp only [List.take_succ_cons, List.map_cons, List.sum_cons]
      omega

end Operand

namespace Instruction

/-- An instruction without the names of the addresses that its operands denote. -/
def bare (instruction : Instruction) : Instruction :=
  { instruction with operands := instruction.operands.map Operand.bare }

@[simp] theorem offset_bare (instruction : Instruction) :
    instruction.bare.offset = instruction.offset := rfl

@[simp] theorem opcode_bare (instruction : Instruction) :
    instruction.bare.opcode = instruction.opcode := rfl

@[simp] theorem immediate_bare (instruction : Instruction) :
    instruction.bare.immediate = instruction.immediate := rfl

@[simp] theorem operands_bare (instruction : Instruction) :
    instruction.bare.operands = instruction.operands.map Operand.bare := rfl

theorem operandWidth_eq_sum (instruction : Instruction) :
    instruction.operandWidth = (instruction.operands.map Operand.width).sum := rfl

@[simp] theorem operandWidth_bare (instruction : Instruction) :
    instruction.bare.operandWidth = instruction.operandWidth := by
  simp only [operandWidth, bare, List.map_map]
  rfl

@[simp] theorem next_bare (instruction : Instruction) :
    instruction.bare.next = instruction.next := by
  simp only [next, width, operandWidth_bare, offset_bare]

@[simp] theorem branchOperand?_bare (instruction : Instruction) :
    instruction.bare.branchOperand? = instruction.branchOperand?.map Operand.bare := by
  unfold branchOperand?
  rw [opcode_bare]
  split <;> simp only [operands_bare, List.head?_map, List.getLast?_map, List.getElem?_map,
    Option.map_none]

@[simp] theorem branchValue?_bare (instruction : Instruction) :
    instruction.bare.branchValue? = instruction.branchValue? := by
  unfold branchValue?
  rw [branchOperand?_bare, Option.bind_map]
  rfl

end Instruction

variable {buffer : Buffer}

theorem wordAt_ok {offset : Nat} {word : Word} (h : buffer.wordAt offset = .ok word) :
    offset % 4 = 0 ∧ offset < buffer.length := by
  simp only [Buffer.wordAt] at h
  split at h
  · cases h
  · next haligned =>
    split at h
    · next hword =>
      have hlt := (Array.getElem?_eq_some_iff.mp hword).1
      simp only [Buffer.length, Buffer.wordCount]
      omega
    · cases h

theorem length_wordsAt {offset count : Nat} {raw : List Word}
    (h : buffer.wordsAt offset count = .ok raw) : raw.length = count := by
  induction count generalizing offset raw with
  | zero =>
    cases h
    rfl
  | succ count ih =>
    simp only [Buffer.wordsAt] at h
    split at h
    · cases h
    · split at h
      · cases h
      · next hrest =>
        cases h
        simp only [List.length_cons, ih hrest]

/-- The steps in which an operand is read. -/
theorem decodeOperand_eq_ok {opcode : Opcode} {header place offset : Nat} {operand : Operand}
    (h : decodeOperand buffer opcode header place offset = .ok operand) :
    ∃ word encoding raw resolved, buffer.wordAt offset = .ok word ∧
      Encoding.ofCode? (word.field 24 8) = some encoding ∧
      offset + 4 * encoding.width ≤ buffer.length ∧
      buffer.wordsAt offset encoding.width = .ok raw ∧
      buffer.resolve header offset (word.field 16 8) encoding = .ok resolved ∧
      operand = ⟨offset, encoding, raw, resolved, none⟩ := by
  simp only [decodeOperand] at h
  split at h
  · cases h
  · split at h
    · cases h
    · next word hword =>
      split at h
      · cases h
      · next encoding hencoding =>
        split at h
        · cases h
        · next hfits =>
          split at h
          · cases h
          · cases h
          · next raw resolved hraw hresolved =>
            cases h
            exact ⟨word, encoding, raw, resolved, hword, hencoding, Nat.le_of_not_lt hfits, hraw,
              hresolved, rfl⟩

theorem decodeOperands_succ_eq_ok {opcode : Opcode} {header count place offset : Nat}
    {operands : List Operand}
    (h : decodeOperands buffer opcode header (count + 1) place offset = .ok operands) :
    ∃ operand rest, decodeOperand buffer opcode header place offset = .ok operand ∧
      decodeOperands buffer opcode header count (place + 1) (offset + 4 * operand.width) =
        .ok rest ∧
      operands = operand :: rest := by
  simp only [decodeOperands] at h
  split at h
  · cases h
  · next operand hoperand =>
    split at h
    · cases h
    · next rest hrest =>
      cases h
      exact ⟨operand, rest, hoperand, hrest, rfl⟩

/-- The steps in which an instruction is read. -/
theorem decode_eq_ok {offset : Nat} {instruction : Instruction}
    (h : decode buffer offset = .ok instruction) :
    ∃ word header operands, buffer.wordAt offset = .ok word ∧
      Header.ofWord? word = some header ∧
      decodeOperands buffer header.opcode offset header.arity 0 (offset + 4) = .ok operands ∧
      instruction = ⟨offset, header.opcode, header.immediate, operands⟩ := by
  simp only [decode] at h
  split at h
  · cases h
  · next word hword =>
    split at h
    · cases h
    · next header hheader =>
      split at h
      · cases h
      · next operands hoperands =>
        cases h
        exact ⟨word, header, operands, hword, hheader, hoperands, rfl⟩

theorem exists_decodeOperand_of_mem {opcode : Opcode} {header count place offset : Nat}
    {operands : List Operand} {operand : Operand}
    (h : decodeOperands buffer opcode header count place offset = .ok operands)
    (hmem : operand ∈ operands) :
    ∃ place offset, decodeOperand buffer opcode header place offset = .ok operand := by
  induction count generalizing place offset operands with
  | zero =>
    cases h
    exact absurd hmem List.not_mem_nil
  | succ count ih =>
    obtain ⟨first, rest, hfirst, hrest, rfl⟩ := decodeOperands_succ_eq_ok h
    rcases List.mem_cons.mp hmem with rfl | hmem
    · exact ⟨place, offset, hfirst⟩
    · exact ih hrest hmem

/-- Each operand of a decoded instruction was read for it. -/
theorem exists_decodeOperand {offset : Nat} {instruction : Instruction} {operand : Operand}
    (h : decode buffer offset = .ok instruction) (hmem : operand ∈ instruction.operands) :
    ∃ place start,
      decodeOperand buffer instruction.opcode instruction.offset place start = .ok operand := by
  obtain ⟨word, header, operands, -, -, hoperands, rfl⟩ := decode_eq_ok h
  exact exists_decodeOperand_of_mem hoperands hmem

theorem decodeOperand_ok {opcode : Opcode} {header place offset : Nat} {operand : Operand}
    (h : decodeOperand buffer opcode header place offset = .ok operand) :
    operand.offset = offset ∧ 0 < operand.width ∧
      offset + 4 * operand.width ≤ buffer.length ∧ operand.bare = operand := by
  obtain ⟨word, encoding, raw, resolved, -, -, hfits, hraw, -, rfl⟩ := decodeOperand_eq_ok h
  have hlength := length_wordsAt hraw
  refine ⟨rfl, ?_, ?_, rfl⟩
  · rw [Operand.width, hlength]
    exact encoding.width_pos
  · rw [Operand.width, hlength]
    exact hfits

theorem decodeOperands_ok {opcode : Opcode} {header count place offset : Nat}
    {operands : List Operand} (hinside : offset ≤ buffer.length)
    (h : decodeOperands buffer opcode header count place offset = .ok operands) :
    Operand.Consecutive offset operands ∧
      offset + 4 * (operands.map Operand.width).sum ≤ buffer.length ∧
      operands.map Operand.bare = operands := by
  induction count generalizing place offset operands with
  | zero =>
    cases h
    exact ⟨trivial, by simpa using hinside, rfl⟩
  | succ count ih =>
    obtain ⟨operand, rest, hfirst, hrest, rfl⟩ := decodeOperands_succ_eq_ok h
    obtain ⟨hoffset, hwidth, hfits, hbare⟩ := decodeOperand_ok hfirst
    obtain ⟨hconsecutive, hend, hbares⟩ := ih hfits hrest
    refine ⟨⟨hoffset, hwidth, hconsecutive⟩, ?_, ?_⟩
    · simp only [List.map_cons, List.sum_cons]
      omega
    · rw [List.map_cons, hbare, hbares]

/-- A decoded instruction begins at a word, its operands lie behind it, and it ends inside
the buffer. No operand has a name yet. -/
theorem decode_ok {offset : Nat} {instruction : Instruction}
    (h : decode buffer offset = .ok instruction) :
    instruction.offset = offset ∧ offset % 4 = 0 ∧ offset < buffer.length ∧
      Operand.Consecutive (offset + 4) instruction.operands ∧
      instruction.next ≤ buffer.length ∧ instruction.bare = instruction := by
  obtain ⟨word, header, operands, hword, -, hoperands, rfl⟩ := decode_eq_ok h
  obtain ⟨haligned, hlt⟩ := wordAt_ok hword
  have hfits : offset + 4 ≤ buffer.length := by
    unfold Buffer.length at hlt ⊢
    omega
  obtain ⟨hconsecutive, hend, hbare⟩ := decodeOperands_ok hfits hoperands
  refine ⟨rfl, haligned, hlt, hconsecutive, ?_, ?_⟩
  · simp only [Instruction.next, Instruction.width, Instruction.operandWidth_eq_sum]
    omega
  · simp only [Instruction.bare, hbare]

/-- Naming operands changes nothing else about them. -/
theorem map_bare_labelOperands (operands : List Operand) (labels : Labels) :
    (Script.labelOperands operands labels).1.map Operand.bare = operands.map Operand.bare := by
  induction operands generalizing labels with
  | nil => rfl
  | cons operand rest ih =>
    simp only [Script.labelOperands]
    split
    · simp only [List.map_cons, ih]
    · simp only [List.map_cons, ih]
      rfl

end ScriptDisassembler
