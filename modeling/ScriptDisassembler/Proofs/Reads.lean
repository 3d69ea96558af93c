import ScriptDisassembler.Proofs.Phases

/-!
Every word that is asked for is there. A word can be read wherever an aligned offset is
inside the buffer, and the decoder, the search for entrypoints and the filling of gaps look
at the length of the buffer before they read. So none of them fails for a read.
-/

namespace ScriptDisassembler

variable {buffer : Buffer}

theorem exists_wordAt {offset : Nat} (haligned : offset % 4 = 0)
    (hinside : offset < buffer.length) : ∃ word, buffer.wordAt offset = .ok word := by
  have hindex : offset / 4 < buffer.wordCount := by
    unfold Buffer.length at hinside
    omega
  have hoffset : 4 * (offset / 4) = offset := by omega
  have hword := buffer.wordAt_mul_four hindex
  rw [hoffset] at hword
  exact ⟨_, hword⟩

theorem exists_wordsAt {offset count : Nat} (haligned : offset % 4 = 0)
    (hfits : offset + 4 * count ≤ buffer.length) :
    ∃ raw, buffer.wordsAt offset count = .ok raw := by
  induction count generalizing offset with
  | zero => exact ⟨[], rfl⟩
  | succ count ih =>
    obtain ⟨word, hword⟩ := exists_wordAt haligned (by omega : offset < buffer.length)
    obtain ⟨rest, hrest⟩ := ih (by omega : (offset + 4) % 4 = 0) (by omega)
    refine ⟨word :: rest, ?_⟩
    simp only [Buffer.wordsAt, hword, hrest]

/-- The value of an operand is found in the operand's own words. -/
theorem exists_resolve {offset : Nat} {encoding : Encoding} (header secondary : Nat)
    (haligned : offset % 4 = 0) (hfits : offset + 4 * encoding.width ≤ buffer.length) :
    ∃ value, buffer.resolve header offset secondary encoding = .ok value := by
  have hwidth := encoding.width_pos
  obtain ⟨word, hword⟩ := exists_wordAt haligned (by omega : offset < buffer.length)
  cases encoding with
  | nextImmediate =>
    have htwo : Encoding.nextImmediate.width = 2 := rfl
    obtain ⟨next, hnext⟩ := exists_wordAt (by omega : (offset + 4) % 4 = 0)
      (by omega : offset + 4 < buffer.length)
    exact ⟨some next.signed, by rw [Buffer.resolve, hnext]; rfl⟩
  | immediate | inline1 | inline2 | inline3 | inline5 =>
    exact ⟨_, by rw [Buffer.resolve, hword]; rfl⟩
  | _ => exact ⟨_, rfl⟩

theorem decodeOperand_ne_read {offset : Nat} (haligned : offset % 4 = 0) (opcode : Opcode)
    (header place : Nat) (fault : ReadFault) :
    decodeOperand buffer opcode header place offset ≠ .error (.read fault) := by
  intro h
  simp only [decodeOperand] at h
  split at h
  · cases h
  · next hinside =>
    obtain ⟨word, hword⟩ := exists_wordAt haligned (Nat.lt_of_not_le hinside)
    simp only [hword] at h
    split at h
    · cases h
    · next encoding _ =>
      split at h
      · cases h
      · next hfits =>
        obtain ⟨raw, hraw⟩ := exists_wordsAt haligned (Nat.le_of_not_lt hfits)
        obtain ⟨value, hvalue⟩ := exists_resolve header (word.field 16 8) haligned
          (Nat.le_of_not_lt hfits)
        simp only [hraw, hvalue] at h
        cases h

theorem decodeOperands_ne_read {offset : Nat} (haligned : offset % 4 = 0) (opcode : Opcode)
    (header count place : Nat) (fault : ReadFault) :
    decodeOperands buffer opcode header count place offset ≠ .error (.read fault) := by
  induction count generalizing place offset with
  | zero => exact nofun
  | succ count ih =>
    intro h
    simp only [decodeOperands] at h
    split at h
    · next hfirst =>
      cases h
      exact decodeOperand_ne_read haligned _ _ _ _ hfirst
    · next operand _ =>
      split at h
      · next hrest =>
        cases h
        exact ih (by omega : (offset + 4 * operand.width) % 4 = 0) _ hrest
      · cases h

/-- An instruction that begins at a word of the buffer is decoded or undecodable. -/
theorem decode_ne_read {offset : Nat} (haligned : offset % 4 = 0)
    (hinside : offset < buffer.length) (fault : ReadFault) :
    decode buffer offset ≠ .error (.read fault) := by
  intro h
  obtain ⟨word, hword⟩ := exists_wordAt haligned hinside
  simp only [decode, hword] at h
  split at h
  · cases h
  · split at h
    · next hoperands =>
      cases h
      exact decodeOperands_ne_read (by omega : (offset + 4) % 4 = 0) _ _ _ _ _ hoperands
    · cases h

theorem Buffer.aligned_of_wordOffset? {address : Int} {offset : Nat}
    (h : buffer.wordOffset? address = some offset) : offset % 4 = 0 :=
  (Buffer.wordOffset?_eq_some.mp h).2.1

theorem Buffer.wordOffset?_of_headerOffset? {address : Int} {offset : Nat}
    (h : buffer.headerOffset? address = some offset) :
    buffer.wordOffset? address = some offset := by
  simp only [headerOffset?] at h
  split at h
  · cases h
  · next hword =>
    split at h
    · cases h
    · split at h
      · rw [← h, hword]
      · cases h

theorem exists_findEntrypoints (buffer : Buffer) (limit index : Nat) (script : Script) :
    ∃ found, findEntrypoints buffer limit index script = .ok found := by
  induction limit generalizing index script with
  | zero => exact ⟨script, rfl⟩
  | succ limit ih =>
    simp only [findEntrypoints]
    split
    · exact ⟨script, rfl⟩
    · next hinside =>
      obtain ⟨word, hword⟩ := exists_wordAt (by omega : 4 * index % 4 = 0)
        (Nat.lt_of_not_le hinside)
      simp only [hword]
      split
      · exact ⟨script, rfl⟩
      · exact ih _ _

theorem exists_fillGaps {count index : Nat} (hfits : index + count ≤ buffer.wordCount)
    (script : Script) : ∃ filled, fillGaps buffer count index script = .ok filled := by
  induction count generalizing index script with
  | zero => exact ⟨script, rfl⟩
  | succ count ih =>
    simp only [fillGaps]
    split
    · exact ih (by omega) _
    · have hword := buffer.wordAt_mul_four (by omega : index < buffer.wordCount)
      simp only [hword]
      exact ih (by omega) _

end ScriptDisassembler
