import ScriptDisassembler.Proofs.Reads

/-!
What a buffer must hold for an instruction to begin at an address, and for one to stand there from
its first word to its last, said in terms of the words and of the tables of codes. The decoder
accepts only what is well-formed in this sense, and each reason that it gives for a refusal is a
fault of the words: of the first of the instruction, or of the first operand that cannot be read.
-/

namespace ScriptDisassembler

/-- The word has the form of the first word of an instruction: its low byte is the code of one, and
the byte above it the number of its operands, which for a call may be any. -/
def Word.Opens (word : Word) : Prop :=
  ∃ opcode ∈ Opcode.all, opcode.code = word.field 0 8 ∧
    (opcode = .call ∨ opcode.operands.length = word.field 8 8)

instance (word : Word) : Decidable word.Opens :=
  inferInstanceAs (Decidable (∃ _ ∈ _, _))

theorem Word.opens_of_header {word : Word} {header : Header} (h : Header.ofWord? word = some header) :
    word.Opens := by
  obtain ⟨hcode, harity, -, hfits⟩ := Header.ofWord?_eq_some h
  rw [harity] at hfits
  exact ⟨header.opcode, header.opcode.mem_all, hcode, hfits⟩

/-- Either no instruction has the code, or one has it that takes another number of operands. -/
theorem Header.ofWord?_eq_none {word : Word} (h : Header.ofWord? word = none) :
    (∀ opcode ∈ Opcode.all, opcode.code ≠ word.field 0 8) ∨
      ∃ opcode : Opcode, opcode.code = word.field 0 8 ∧ opcode ≠ .call ∧
        opcode.operands.length ≠ word.field 8 8 := by
  simp only [Header.ofWord?] at h
  split at h
  · next hopcode =>
    left
    intro opcode _ hcode
    rw [← hcode, Opcode.ofCode?_code] at hopcode
    cases hopcode
  · next opcode hopcode =>
    split at h
    · cases h
    · next hfits => exact .inr ⟨opcode, Opcode.code_eq_of_ofCode? hopcode, not_or.mp hfits⟩

theorem Word.opens_iff {word : Word} : word.Opens ↔ (Header.ofWord? word).isSome = true := by
  constructor
  · rintro ⟨opcode, -, hcode, hfits⟩
    rw [Header.ofWord?, ← hcode, Opcode.ofCode?_code]
    simp only [if_pos hfits, Option.isSome_some]
  · intro h
    obtain ⟨header, hheader⟩ := Option.isSome_iff_exists.mp h
    exact Word.opens_of_header hheader

namespace Buffer

/-- An instruction may begin at an address: it is that of a word of the buffer, and the word has
the form of the first word of an instruction. -/
def Begins (buffer : Buffer) (address : Nat) : Prop :=
  address % 4 = 0 ∧ address < buffer.length ∧
    ∃ first ∈ buffer.words[address / 4]?, first.Opens

instance (buffer : Buffer) : DecidablePred buffer.Begins :=
  fun _ => inferInstanceAs (Decidable (_ ∧ _ ∧ ∃ _ ∈ _, _))

variable {buffer : Buffer}

theorem headerOffset?_eq_some {address : Int} {offset : Nat} :
    buffer.headerOffset? address = some offset ↔
      (offset : Int) = address ∧ buffer.Begins offset := by
  by_cases hword : buffer.wordOffset? address = some offset
  · obtain ⟨heq, haligned, hinside⟩ := wordOffset?_eq_some.mp hword
    have hindex : offset / 4 < buffer.words.size := by
      unfold length wordCount at hinside
      omega
    have hfirst := Array.getElem?_eq_getElem hindex
    have hbegins : buffer.Begins offset ↔ buffer.words[offset / 4].Opens := by
      simp [Begins, haligned, hinside, hfirst]
    have hheader : buffer.headerOffset? address =
        if buffer.words[offset / 4].Opens then some offset else none := by
      simp only [headerOffset?, hword, wordAt, haligned, hfirst, Word.opens_iff, ne_eq,
        not_true_eq_false, ↓reduceIte]
    rw [hheader, hbegins, Option.ite_none_right_eq_some]
    simp only [heq, true_and, and_true]
  · constructor
    · intro hheader
      exact absurd (wordOffset?_of_headerOffset? hheader) hword
    · rintro ⟨heq, haligned, hinside, -⟩
      exact absurd (wordOffset?_eq_some.mpr ⟨heq, haligned, hinside⟩) hword

theorem headerOffset?_eq_none {address : Int} (h : buffer.headerOffset? address = none)
    {offset : Nat} (heq : (offset : Int) = address) : ¬ buffer.Begins offset := by
  intro hbegins
  rw [headerOffset?_eq_some.mpr ⟨heq, hbegins⟩] at h
  cases h

/-- So many operands stand one behind the other: the top byte of the first word of each is the code
of an encoding, and the words that the encoding takes are inside the buffer. The last ends at
`stop`. -/
inductive Operands (buffer : Buffer) : (offset count stop : Nat) → Prop
  | none {offset : Nat} : Operands buffer offset 0 offset
  | next {offset count stop : Nat} {word : Word} {encoding : Encoding}
      (hword : buffer.wordAt offset = .ok word) (hencoding : encoding ∈ Encoding.all)
      (hcode : encoding.code = word.field 24 8)
      (hfits : offset + 4 * encoding.width ≤ buffer.length)
      (hrest : Operands buffer (offset + 4 * encoding.width) count stop) :
      Operands buffer offset (count + 1) stop

/-- An instruction stands between two addresses, with as many operands as its first word says. -/
def Formed (buffer : Buffer) (address stop : Nat) : Prop :=
  ∃ word, buffer.wordAt address = .ok word ∧ word.Opens ∧
    buffer.Operands (address + 4) (word.field 8 8) stop

/-- No instruction stands at an address, for one of four reasons. The first two are faults of the
first word; the other two are faults of an operand behind as many well-formed ones as its place
says. -/
inductive Malformed (buffer : Buffer) (address : Nat) : Undecodable → Prop
  | unknownOpcode {word : Word} (hword : buffer.wordAt address = .ok word)
      (hunknown : ∀ opcode ∈ Opcode.all, opcode.code ≠ word.field 0 8) :
      Malformed buffer address (.unknownHeader word)
  | wrongCount {word : Word} {opcode : Opcode} (hword : buffer.wordAt address = .ok word)
      (hopcode : opcode ∈ Opcode.all) (hcode : opcode.code = word.field 0 8) (hcall : opcode ≠ .call)
      (hcount : opcode.operands.length ≠ word.field 8 8) :
      Malformed buffer address (.unknownHeader word)
  | unknownEncoding {word first : Word} {opcode : Opcode} {place offset : Nat}
      (hword : buffer.wordAt address = .ok word) (hopens : word.Opens)
      (hcode : opcode.code = word.field 0 8) (hplace : place < word.field 8 8)
      (hbefore : buffer.Operands (address + 4) place offset)
      (hfirst : buffer.wordAt offset = .ok first)
      (hunknown : ∀ encoding ∈ Encoding.all, encoding.code ≠ first.field 24 8) :
      Malformed buffer address (.unknownEncoding opcode (first.field 24 8))
  /-- The buffer ends in front of the operand or within it. -/
  | truncated {word : Word} {opcode : Opcode} {place offset : Nat}
      (hword : buffer.wordAt address = .ok word) (hopens : word.Opens)
      (hcode : opcode.code = word.field 0 8) (hplace : place < word.field 8 8)
      (hbefore : buffer.Operands (address + 4) place offset)
      (hends : buffer.length ≤ offset ∨ ∃ first, buffer.wordAt offset = .ok first ∧
        ∃ encoding ∈ Encoding.all, encoding.code = first.field 24 8 ∧
          buffer.length < offset + 4 * encoding.width) :
      Malformed buffer address (.truncated opcode place)

end Buffer

variable {buffer : Buffer}

theorem encoding_of_decodeOperand {opcode : Opcode} {header place offset : Nat} {operand : Operand}
    (h : decodeOperand buffer opcode header place offset = .ok operand) :
    ∃ word, buffer.wordAt offset = .ok word ∧ operand.encoding.code = word.field 24 8 ∧
      operand.width = operand.encoding.width ∧
      offset + 4 * operand.encoding.width ≤ buffer.length := by
  obtain ⟨word, encoding, raw, resolved, hword, hencoding, hfits, hraw, -, rfl⟩ :=
    decodeOperand_eq_ok h
  exact ⟨word, hword, Encoding.code_eq_of_ofCode? hencoding, length_wordsAt hraw, hfits⟩

/-- What is wrong with an operand that cannot be read. -/
theorem decodeOperand_undecodable {opcode : Opcode} {header place offset : Nat}
    {reason : Undecodable}
    (h : decodeOperand buffer opcode header place offset = .error (.undecodable reason)) :
    (∃ first, buffer.wordAt offset = .ok first ∧
      (∀ encoding ∈ Encoding.all, encoding.code ≠ first.field 24 8) ∧
      reason = .unknownEncoding opcode (first.field 24 8)) ∨
    (buffer.length ≤ offset ∨ ∃ first, buffer.wordAt offset = .ok first ∧
      ∃ encoding ∈ Encoding.all, encoding.code = first.field 24 8 ∧
        buffer.length < offset + 4 * encoding.width) ∧
      reason = .truncated opcode place := by
  simp only [decodeOperand] at h
  split at h
  · next hends =>
    cases h
    exact .inr ⟨.inl hends, rfl⟩
  · split at h
    · cases h
    · next first hfirst =>
      split at h
      · next hencoding =>
        cases h
        refine .inl ⟨first, hfirst, ?_, rfl⟩
        intro encoding _ hcode
        rw [← hcode, Encoding.ofCode?_code] at hencoding
        cases hencoding
      · next encoding hencoding =>
        split at h
        · next hends =>
          cases h
          have hcode := Encoding.code_eq_of_ofCode? hencoding
          exact .inr ⟨.inr ⟨first, hfirst, encoding, encoding.mem_all, hcode, hends⟩, rfl⟩
        · split at h <;> cases h

theorem operands_of_decodeOperands {opcode : Opcode} {header count place offset : Nat}
    {operands : List Operand}
    (h : decodeOperands buffer opcode header count place offset = .ok operands) :
    buffer.Operands offset count (offset + 4 * (operands.map Operand.width).sum) := by
  induction count generalizing place offset operands with
  | zero =>
    cases h
    exact .none
  | succ count ih =>
    obtain ⟨operand, rest, hoperand, hrest, rfl⟩ := decodeOperands_succ_eq_ok h
    obtain ⟨word, hword, hcode, hwidth, hfits⟩ := encoding_of_decodeOperand hoperand
    have hbehind := ih hrest
    rw [hwidth] at hbehind
    rw [List.map_cons, List.sum_cons, hwidth, Nat.mul_add, ← Nat.add_assoc]
    exact .next hword operand.encoding.mem_all hcode hfits hbehind

/-- Reading operands fails at the first that cannot be read. -/
theorem decodeOperands_error {opcode : Opcode} {header count place offset : Nat}
    {fault : DecodeFault}
    (h : decodeOperands buffer opcode header count place offset = .error fault) :
    ∃ before < count, ∃ stop, buffer.Operands offset before stop ∧
      decodeOperand buffer opcode header (place + before) stop = .error fault := by
  induction count generalizing place offset with
  | zero => cases h
  | succ count ih =>
    simp only [decodeOperands] at h
    split at h
    · next hoperand =>
      cases h
      exact ⟨0, Nat.succ_pos count, offset, .none, hoperand⟩
    · next operand hoperand =>
      split at h
      · next hrest =>
        cases h
        obtain ⟨word, hword, hcode, hwidth, hfits⟩ := encoding_of_decodeOperand hoperand
        obtain ⟨before, hbefore, stop, hoperands, herror⟩ := ih hrest
        rw [hwidth] at hoperands
        rw [Nat.add_assoc, Nat.add_comm 1 before] at herror
        exact ⟨before + 1, Nat.succ_lt_succ hbefore, stop,
          .next hword operand.encoding.mem_all hcode hfits hoperands, herror⟩
      · cases h

theorem formed_of_decode {address : Nat} {instruction : Instruction}
    (h : decode buffer address = .ok instruction) : buffer.Formed address instruction.next := by
  obtain ⟨word, header, operands, hword, hheader, hoperands, rfl⟩ := decode_eq_ok h
  obtain ⟨-, harity, -⟩ := Header.ofWord?_eq_some hheader
  have hbehind := operands_of_decodeOperands hoperands
  rw [harity, Nat.add_assoc] at hbehind
  refine ⟨word, hword, Word.opens_of_header hheader, ?_⟩
  rw [Instruction.next, Instruction.width, Instruction.operandWidth_eq_sum, Nat.mul_add]
  exact hbehind

theorem malformed_of_decode {address : Nat} {reason : Undecodable}
    (h : decode buffer address = .error (.undecodable reason)) :
    buffer.Malformed address reason := by
  simp only [decode] at h
  split at h
  · cases h
  · next word hword =>
    split at h
    · next hheader =>
      cases h
      rcases Header.ofWord?_eq_none hheader with hunknown | ⟨opcode, hcode, hcall, hcount⟩
      · exact .unknownOpcode hword hunknown
      · exact .wrongCount hword opcode.mem_all hcode hcall hcount
    · next header hheader =>
      split at h
      · next hoperands =>
        cases h
        obtain ⟨hcode, harity, -⟩ := Header.ofWord?_eq_some hheader
        obtain ⟨place, hplace, offset, hbefore, hoperand⟩ := decodeOperands_error hoperands
        rw [harity] at hplace
        rw [Nat.zero_add] at hoperand
        have hopens := Word.opens_of_header hheader
        rcases decodeOperand_undecodable hoperand with ⟨first, hfirst, hunknown, rfl⟩ | ⟨hends, rfl⟩
        · exact .unknownEncoding hword hopens hcode hplace hbefore hfirst hunknown
        · exact .truncated hword hopens hcode hplace hbefore hends
      · cases h

end ScriptDisassembler
