import ScriptDisassembler.Proofs.Decoding
import ScriptDisassembler.Proofs.Room

/-!
Instructions as a moving read head reads them. The head walks from word to word, keeps the start
of the instruction and latches a byte with every operand code that it comes to; the byte is never
taken back, so it is still there when the next operand or the next instruction begins. What is
read does not depend on it. In a buffer whose length is a position, the head reads what is decoded
at its position, and stops where the instruction ends; its arithmetic does not fail there.
-/

namespace ScriptDisassembler

/-- Why a head comes to no instruction: there is none, or the head cannot be moved. -/
inductive HeadFault where
  | decode (fault : DecodeFault)
  | position (fault : PositionFault)
deriving DecidableEq

namespace Cursor

/-- Reads the operand at the head and moves the head behind it. -/
def operand (opcode : Opcode) (place : Nat) (head : Cursor) :
    Except HeadFault (Operand × Cursor) :=
  if head.hasMore then
    match head.operandCode with
    | .error fault => .error (.decode (.read fault))
    | .ok (code, latched) =>
      match Encoding.ofCode? code with
      | none => .error (.decode (.undecodable (.unknownEncoding opcode code)))
      | some encoding =>
        match latched.hasWords (.ofNat encoding.width) with
        | .error fault => .error (.position fault)
        | .ok false => .error (.decode (.undecodable (.truncated opcode place)))
        | .ok true =>
          match latched.buffer.wordsAt latched.current.toNat encoding.width,
              latched.buffer.resolve latched.header.toNat latched.current.toNat latched.secondary
                encoding with
          | .error fault, _ => .error (.decode (.read fault))
          | .ok _, .error fault => .error (.decode (.read fault))
          | .ok raw, .ok resolved =>
            match latched.advance (.ofNat encoding.width) with
            | .error fault => .error (.position fault)
            | .ok moved =>
              .ok (⟨latched.current.toNat, encoding, raw, resolved, none⟩, moved)
  else
    .error (.decode (.undecodable (.truncated opcode place)))

/-- Reads so many operands one after the other. -/
def operands (opcode : Opcode) :
    (count place : Nat) → Cursor → Except HeadFault (List Operand × Cursor)
  | 0, _, head => .ok ([], head)
  | count + 1, place, head =>
    match head.operand opcode place with
    | .error fault => .error fault
    | .ok (operand, moved) =>
      match operands opcode count (place + 1) moved with
      | .error fault => .error fault
      | .ok (rest, last) => .ok (operand :: rest, last)

/-- Reads the instruction at the head and moves the head behind it. -/
def instruction (head : Cursor) : Except HeadFault (Instruction × Cursor) :=
  let head := head.step
  match head.currentWord with
  | .error fault => .error (.decode (.read fault))
  | .ok word =>
    match Header.ofWord? word with
    | none => .error (.decode (.undecodable (.unknownHeader word)))
    | some header =>
      match head.advance 1 with
      | .error fault => .error (.position fault)
      | .ok first =>
        match operands header.opcode header.arity 0 first with
        | .error fault => .error fault
        | .ok (operands, moved) =>
          .ok (⟨head.header.toNat, header.opcode, header.immediate, operands⟩, moved)

/-- The head is in an instruction. Nothing is said of the byte that it has latched. -/
structure At (head : Cursor) (buffer : Buffer) (header offset : Nat) : Prop where
  buffer : head.buffer = buffer
  header : head.header.toNat = header
  current : head.current.toNat = offset

variable {buffer : Buffer} {header offset place : Nat} {opcode : Opcode} {head moved : Cursor}

theorem toNat_ofNat_of_le {words : Nat} (h : words ≤ 3) : (UInt64.ofNat words).toNat = words :=
  UInt64.toNat_ofNat_of_lt' (Nat.lt_of_le_of_lt h (by decide))

/-- A head that has some words before it moves behind them. -/
theorem At.exists_advance (h : head.At buffer header offset) {words : Nat} (hwords : words ≤ 3)
    (hfits : offset + 4 * words ≤ buffer.length) (hlength : buffer.length < UInt64.size) :
    ∃ moved, head.advance (.ofNat words) = .ok moved ∧
      moved.At buffer header (offset + 4 * words) := by
  have hposition : head.current.toNat + 4 * (UInt64.ofNat words).toNat < UInt64.size := by
    rw [h.current, toNat_ofNat_of_le hwords]
    exact Nat.lt_of_le_of_lt hfits hlength
  have hmoved := (advance_eq head (.ofNat words)).trans (if_pos hposition)
  obtain ⟨hbuffer, hheader, hcurrent⟩ := advance_ok hmoved
  rw [h.current, toNat_ofNat_of_le hwords] at hcurrent
  exact ⟨_, hmoved, hbuffer.trans h.buffer, (congrArg UInt64.toNat hheader).trans h.header,
    hcurrent⟩

theorem At.hasWords_eq {words : Nat} (h : head.At buffer header offset) (hwords : words ≤ 3)
    (hlength : buffer.length < UInt64.size) :
    head.hasWords (.ofNat words) = .ok (decide (offset + 4 * words ≤ buffer.length)) := by
  have hsmall : (UInt64.ofNat words).toNat < wordLimit := by
    rw [toNat_ofNat_of_le hwords]
    unfold wordLimit
    omega
  rw [hasWords_of_lt (by rw [h.buffer]; exact hlength) hsmall, toNat_ofNat_of_le hwords, h.buffer,
    h.current]

theorem At.currentWord_eq (h : head.At buffer header offset) :
    head.currentWord = buffer.wordAt offset := by
  rw [currentWord, Cursor.wordAt, h.buffer, h.current]

/-- The byte that is latched is the one below the operand's own code. -/
theorem At.exists_latched {word : Word} (h : head.At buffer header offset)
    (hword : buffer.wordAt offset = .ok word) :
    ∃ latched : Cursor, head.operandCode = .ok (word.field 24 8, latched) ∧
      latched.At buffer header offset ∧ latched.secondary = word.field 16 8 := by
  refine ⟨{ head with secondary := word.field 16 8 }, ?_, ⟨h.buffer, h.header, h.current⟩, rfl⟩
  rw [operandCode, h.currentWord_eq, hword]
  rfl

/-- The operand is the one that is decoded at the position of the head, whatever byte was latched
before, and the head moves behind it. -/
theorem At.operand_eq (h : head.At buffer header offset) (hlength : buffer.length < UInt64.size)
    (opcode : Opcode) (place : Nat) :
    match decodeOperand buffer opcode header place offset with
    | .error fault => head.operand opcode place = .error (.decode fault)
    | .ok operand => ∃ moved, head.operand opcode place = .ok (operand, moved) ∧
        moved.At buffer header (offset + 4 * operand.width) := by
  have hmore : head.hasMore = true ↔ ¬ buffer.length ≤ offset := by
    rw [hasMore, h.buffer, h.current, decide_eq_true_eq, Nat.not_le]
  rw [operand, decodeOperand]
  by_cases hinside : buffer.length ≤ offset
  · simp only [if_pos hinside, if_neg fun hhas => hmore.mp hhas hinside]
  · rw [if_neg hinside, if_pos (hmore.mpr hinside)]
    cases hword : buffer.wordAt offset with
    | error fault => simp only [operandCode, h.currentWord_eq, hword, bind, Except.bind]
    | ok word =>
      -- The byte that was latched before is gone as soon as the code of this operand is read.
      obtain ⟨latched, hcode, hlatched, hsecondary⟩ := h.exists_latched hword
      simp only [hcode]
      cases hencoding : Encoding.ofCode? (word.field 24 8) with
      | none => simp only
      | some encoding =>
        have hhas := hlatched.hasWords_eq encoding.width_le hlength
        simp only [hhas, hlatched.buffer, hlatched.header, hlatched.current, hsecondary]
        by_cases hfits : buffer.length < offset + 4 * encoding.width
        · simp only [if_pos hfits, decide_eq_false (Nat.not_le.mpr hfits)]
        · have hroom := Nat.le_of_not_lt hfits
          obtain ⟨moved, hmoved, hat⟩ := hlatched.exists_advance encoding.width_le hroom hlength
          simp only [if_neg hfits, decide_eq_true hroom, hmoved]
          cases hraw : buffer.wordsAt offset encoding.width with
          | error fault => simp only
          | ok raw =>
            cases buffer.resolve header offset (word.field 16 8) encoding with
            | error fault => simp only
            | ok resolved =>
              refine ⟨moved, rfl, ?_⟩
              rw [Operand.width, length_wordsAt hraw]
              exact hat

theorem At.operands_eq (h : head.At buffer header offset) (hlength : buffer.length < UInt64.size)
    (opcode : Opcode) (count place : Nat) :
    match decodeOperands buffer opcode header count place offset with
    | .error fault => head.operands opcode count place = .error (.decode fault)
    | .ok operands => ∃ moved, head.operands opcode count place = .ok (operands, moved) ∧
        moved.At buffer header (offset + 4 * (operands.map Operand.width).sum) := by
  induction count generalizing head place offset with
  | zero => exact ⟨head, rfl, h⟩
  | succ count ih =>
    have hfirst := h.operand_eq hlength opcode place
    rw [operands, decodeOperands]
    cases hoperand : decodeOperand buffer opcode header place offset with
    | error fault =>
      rw [hoperand] at hfirst
      simp only [hfirst]
    | ok operand =>
      rw [hoperand] at hfirst
      obtain ⟨between, hbetween, hat⟩ := hfirst
      have hrest := ih hat (place + 1)
      simp only [hbetween]
      cases hoperands : decodeOperands buffer opcode header count (place + 1)
          (offset + 4 * operand.width) with
      | error fault =>
        rw [hoperands] at hrest
        simp only [hrest]
      | ok rest =>
        rw [hoperands] at hrest
        obtain ⟨moved, hmoved, hlast⟩ := hrest
        refine ⟨moved, by simp only [hmoved], ?_⟩
        rw [List.map_cons, List.sum_cons, Nat.mul_add, ← Nat.add_assoc]
        exact hlast

/-- Whatever byte a head has latched on its way to an instruction, it reads the instruction and
goes on to the next. -/
theorem exists_moved {instruction : Instruction} (hlength : head.buffer.length < UInt64.size)
    (hdecode : decode head.buffer head.current.toNat = .ok instruction) :
    ∃ moved, head.instruction = .ok (instruction, moved) ∧ moved.buffer = head.buffer ∧
      moved.current.toNat = instruction.next := by
  have hstart : head.step.At head.buffer head.current.toNat head.current.toNat :=
    ⟨rfl, rfl, rfl⟩
  rw [decode] at hdecode
  split at hdecode
  · cases hdecode
  · next word hword =>
    split at hdecode
    · cases hdecode
    · next first hheader =>
      have hinside := wordAt_ok hword
      have hfits : head.current.toNat + 4 * 1 ≤ head.buffer.length := by
        unfold Buffer.length at hinside ⊢
        omega
      obtain ⟨behind, hbehind, hat⟩ := hstart.exists_advance (by decide) hfits hlength
      have hoperands := hat.operands_eq hlength first.opcode first.arity 0
      split at hdecode
      · cases hdecode
      · next operands hread =>
        cases hdecode
        rw [hread] at hoperands
        obtain ⟨moved, hmoved, hlast⟩ := hoperands
        refine ⟨moved, ?_, hlast.buffer, ?_⟩
        · have hcurrent : head.step.currentWord = .ok word := hword
          simp only [Cursor.instruction, hcurrent, hheader]
          rw [show head.step.advance 1 = .ok behind from hbehind]
          simp only [hmoved]
          rfl
        · rw [hlast.current, Instruction.next, Instruction.width, Instruction.operandWidth_eq_sum,
            Nat.mul_add, ← Nat.add_assoc]

end Cursor

end ScriptDisassembler
