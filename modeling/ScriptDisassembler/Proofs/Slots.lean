import ScriptDisassembler.Proofs.Decoding

/-!
What placing a token does to the slots of a script. A token whose slots are all free gets
them and no others; one that meets a claimed slot is kept and owns nothing. An instruction
is entered exactly if the slots of its words are free, and then its token and those of its
operands come to lie side by side.
-/

namespace ScriptDisassembler

namespace Token

/-- The slots that a token asks for. -/
def Covers (token : Token) (index : Nat) : Prop :=
  token.offset / 4 ≤ index ∧ index < token.offset / 4 + token.width

instance (token : Token) (index : Nat) : Decidable (token.Covers index) :=
  inferInstanceAs (Decidable (_ ∧ _))

/-- A token of one word asks for the slot of that word. -/
theorem covers_word {token : Token} {index other : Nat} (hoffset : token.offset = 4 * index)
    (hwidth : token.width = 1) : token.Covers other ↔ other = index := by
  unfold Covers
  omega

theorem covers_table {table : Table} {index : Nat} :
    (Token.table table).Covers index ↔ index = table.offset / 4 := by
  unfold Covers offset width
  dsimp only
  omega

theorem covers_instruction {instruction : Instruction} {index : Nat} :
    (Token.instruction instruction).Covers index ↔ index = instruction.offset / 4 := by
  unfold Covers offset width
  dsimp only
  omega

def IsTable : Token → Prop
  | table _ => True
  | instruction _ | operand _ | data _ _ | entrypoint _ _ _ => False

end Token

namespace Script

theorem isClaimed_iff {script : Script} {index : Nat} :
    script.isClaimed index = true ↔ ∃ id, script.owner? index = some id := by
  rw [isClaimed, Option.isSome_iff_exists]

theorem owner?_congr {script other : Script} (hslots : other.slots = script.slots)
    (index : Nat) : other.owner? index = script.owner? index := by
  rw [owner?, owner?, hslots]

theorem slots_of_owner? {script : Script} {index id : Nat}
    (h : script.owner? index = some id) : script.slots[index]? = some (some id) := by
  simp only [owner?, Option.join_eq_some_iff] at h
  exact h

theorem tokenAt?_eq {script : Script} {index id : Nat} {token : Token}
    (howner : script.owner? index = some id) (htoken : script.tokens[id]? = some token) :
    script.tokenAt? index = some token := by
  rw [tokenAt?, howner]
  exact htoken

theorem free_of_isClaimed {script : Script} {index : Nat} (hlt : index < script.wordCount)
    (h : script.isClaimed index = false) : script.slots[index]? = some none := by
  have hslot : script.slots[index]? = some script.slots[index] :=
    Array.getElem?_eq_getElem hlt
  cases howner : script.slots[index] with
  | none => rw [hslot, howner]
  | some id =>
    simp [isClaimed, owner?, hslot, howner] at h

theorem size_fill (slots : Array (Option Nat)) (id index count : Nat) :
    (fill slots id index count).size = slots.size := by
  induction count generalizing slots index with
  | zero => rfl
  | succ count ih => rw [fill, ih, Array.size_setIfInBounds]

/-- Placing a token adds it to the tokens and touches nothing else but the slots. -/
theorem place_eq (script : Script) (token : Token) :
    ∃ slots : Array (Option Nat), slots.size = script.slots.size ∧
      script.place token =
        { script with tokens := script.tokens.push token, slots := slots } := by
  by_cases hall : areFree script.slots (token.offset / 4) token.width = true
  · refine ⟨fill script.slots script.tokens.size (token.offset / 4) token.width,
      size_fill .., ?_⟩
    simp only [place, push, claim?, hall, ↓reduceIte, Option.getD_some]
  · refine ⟨script.slots, rfl, ?_⟩
    simp only [place, push, claim?, hall, Bool.false_eq_true, ↓reduceIte, Option.getD_none]

@[simp] theorem tokens_place (script : Script) (token : Token) :
    (script.place token).tokens = script.tokens.push token := by
  obtain ⟨slots, hsize, heq⟩ := script.place_eq token
  rw [heq]

/-- A token that is there keeps its number. -/
theorem getElem?_place {script : Script} {token placed : Token} {id : Nat}
    (h : script.tokens[id]? = some placed) :
    (script.place token).tokens[id]? = some placed := by
  have hlt := (Array.getElem?_eq_some_iff.mp h).1
  rw [tokens_place, Array.getElem?_push, if_neg (by omega), h]

theorem eq_or_of_place {script : Script} {token placed : Token} {id : Nat}
    (h : (script.place token).tokens[id]? = some placed) :
    id = script.tokens.size ∧ placed = token ∨ script.tokens[id]? = some placed := by
  rw [tokens_place, Array.getElem?_push] at h
  split at h
  · next hid => exact .inl ⟨hid, (Option.some.inj h).symm⟩
  · exact .inr h

@[simp] theorem wordCount_place (script : Script) (token : Token) :
    (script.place token).wordCount = script.wordCount := by
  obtain ⟨slots, hsize, heq⟩ := script.place_eq token
  rw [heq]
  exact hsize

/-- A token whose slots are all free gets them. -/
theorem slots_place_free {script : Script} {token : Token}
    (hfree : ∀ index, token.Covers index → script.slots[index]? = some none)
    (hwidth : 0 < token.width) (index : Nat) :
    (script.place token).slots[index]? =
      if token.Covers index then some (some script.tokens.size) else script.slots[index]? := by
  have hlast := hfree (token.offset / 4 + (token.width - 1)) ⟨by omega, by omega⟩
  have hsize := (Array.getElem?_eq_some_iff.mp hlast).1
  have hall : areFree script.slots (token.offset / 4) token.width = true :=
    areFree_iff.mpr ⟨by omega, fun i hle hlt => hfree i ⟨hle, hlt⟩⟩
  simp only [place, push, claim?, hall, ↓reduceIte, Option.getD_some, getElem?_fill]
  by_cases hcovers : token.Covers index
  · obtain ⟨hlower, hupper⟩ := hcovers
    have hlt : index < script.slots.size := by omega
    rw [if_pos ⟨hlower, hupper, hlt⟩, if_pos ⟨hlower, hupper⟩]
  · rw [if_neg fun h => hcovers ⟨h.1, h.2.1⟩, if_neg hcovers]

theorem owner?_place_free {script : Script} {token : Token}
    (hfree : ∀ index, token.Covers index → script.slots[index]? = some none)
    (hwidth : 0 < token.width) (index : Nat) :
    (script.place token).owner? index =
      if token.Covers index then some script.tokens.size else script.owner? index := by
  rw [owner?, slots_place_free hfree hwidth]
  split <;> rfl

theorem slots_place_word {script : Script} {token : Token} {index : Nat}
    (hfree : script.slots[index]? = some none) (hoffset : token.offset = 4 * index)
    (hwidth : token.width = 1) (other : Nat) :
    (script.place token).slots[other]? =
      if other = index then some (some script.tokens.size) else script.slots[other]? := by
  have hcovers : ∀ other, token.Covers other ↔ other = index :=
    fun other => Token.covers_word hoffset hwidth
  have hslots : ∀ other, token.Covers other → script.slots[other]? = some none := by
    intro other hother
    rw [(hcovers other).mp hother]
    exact hfree
  rw [slots_place_free hslots (by omega)]
  simp only [hcovers]

theorem owner?_place_word {script : Script} {token : Token} {index : Nat}
    (hfree : script.slots[index]? = some none) (hoffset : token.offset = 4 * index)
    (hwidth : token.width = 1) (other : Nat) :
    (script.place token).owner? other =
      if other = index then some script.tokens.size else script.owner? other := by
  rw [owner?, slots_place_word hfree hoffset hwidth]
  split <;> rfl

theorem slots_placeEntrypoint {script : Script} {index target : Nat}
    (hfree : script.slots[index]? = some none) (other : Nat) :
    (script.placeEntrypoint index target).slots[other]? =
      if other = index then some (some script.tokens.size) else script.slots[other]? := by
  unfold placeEntrypoint
  apply slots_place_word
  · exact hfree
  · rfl
  · rfl

/-- A token that meets a slot that is not free owns nothing. -/
theorem slots_place_taken {script : Script} {token : Token} {index : Nat}
    (hcovers : token.Covers index) (htaken : script.slots[index]? ≠ some none) :
    (script.place token).slots = script.slots := by
  have hnot : ¬ areFree script.slots (token.offset / 4) token.width = true := by
    intro hall
    exact htaken ((areFree_iff.mp hall).2 index hcovers.1 hcovers.2)
  simp only [place, push, claim?, hnot, Bool.false_eq_true, ↓reduceIte, Option.getD_none]

theorem foldl_place_eq (operands : List Operand) (script : Script) :
    ∃ slots : Array (Option Nat), slots.size = script.slots.size ∧
      operands.foldl (fun script operand => script.place (.operand operand)) script =
        { script with
          tokens := script.tokens ++ (operands.map Token.operand).toArray
          slots := slots } := by
  induction operands generalizing script with
  | nil => exact ⟨script.slots, rfl, by simp⟩
  | cons operand rest ih =>
    obtain ⟨first, hfirst, hplace⟩ := script.place_eq (.operand operand)
    obtain ⟨slots, hsize, hrest⟩ := ih (script.place (.operand operand))
    refine ⟨slots, ?_, ?_⟩
    · rw [hsize, hplace]
      exact hfirst
    · rw [List.foldl_cons, hrest, hplace]
      simp

/-- The token of an instruction is followed by those of its operands, and nothing but
tokens and slots is touched. -/
theorem placeInstruction_eq (script : Script) (instruction : Instruction) :
    ∃ slots : Array (Option Nat), slots.size = script.slots.size ∧
      script.placeInstruction instruction =
        { script with
          tokens := script.tokens ++ (Token.instruction instruction ::
            instruction.operands.map Token.operand).toArray
          slots := slots } := by
  obtain ⟨first, hfirst, hplace⟩ := script.place_eq (.instruction instruction)
  obtain ⟨slots, hsize, hrest⟩ := foldl_place_eq instruction.operands
    (script.place (.instruction instruction))
  refine ⟨slots, ?_, ?_⟩
  · rw [hsize, hplace]
    exact hfirst
  · rw [placeInstruction, hrest, hplace]
    simp

/-- An instruction is entered only where all of its slots are free. -/
theorem claimInstruction_ok {script entered : Script} {instruction : Instruction}
    (h : script.claimInstruction instruction = .ok entered) :
    script.slots[instruction.offset / 4]? = some none ∧
      (∀ index, instruction.offset / 4 < index →
        index < instruction.offset / 4 + instruction.width →
          script.isClaimed index = false) ∧
      entered =
        { script with
          labels := (labelOperands instruction.operands script.labels).2 }.placeInstruction
          { instruction with
            operands := (labelOperands instruction.operands script.labels).1 } := by
  simp only [claimInstruction] at h
  split at h
  · cases h
  · split at h
    · split at h <;> cases h
    · cases h
  · next hfree =>
    split at h
    · cases h
    · next hnone =>
      cases h
      refine ⟨hfree, ?_, rfl⟩
      intro index hlower hupper
      have hall := List.any_eq_false.mp (Bool.eq_false_iff.mpr hnone) index
      apply Bool.eq_false_iff.mpr
      apply hall
      rw [List.mem_range'_1]
      unfold Instruction.width at hupper
      omega

section

variable {script entered : Script} {instruction : Instruction} {buffer : Buffer} {offset : Nat}

/-- What is placed is the instruction with the names that its operands have got. -/
theorem placed_of_claimInstruction
    (hclaim : script.claimInstruction instruction = .ok entered) :
    ∃ (labels : Labels) (named : Instruction), named.bare = instruction.bare ∧
      entered = { script with labels := labels }.placeInstruction named := by
  obtain ⟨-, -, hentered⟩ := claimInstruction_ok hclaim
  refine ⟨_, _, ?_, hentered⟩
  simp only [Instruction.bare, map_bare_labelOperands]

/-- A decoded instruction is inside the buffer, and so all of its slots are free if it can be
entered. -/
theorem free_of_claimInstruction (hcount : script.wordCount = buffer.wordCount)
    (hdecode : decode buffer offset = .ok instruction)
    (hclaim : script.claimInstruction instruction = .ok entered) {index : Nat}
    (hlower : instruction.offset / 4 ≤ index)
    (hupper : index < instruction.offset / 4 + instruction.width) :
    script.slots[index]? = some none := by
  obtain ⟨rfl, -, -, -, hnext, -⟩ := decode_ok hdecode
  obtain ⟨hfirst, hrest, -⟩ := claimInstruction_ok hclaim
  rcases Nat.eq_or_lt_of_le hlower with rfl | hlt
  · exact hfirst
  · refine free_of_isClaimed ?_ (hrest index hlt hupper)
    rw [hcount]
    unfold Instruction.next Buffer.length at hnext
    omega

end

/-- What stands in the way of an instruction inside the buffer: the same instruction,
entered before, another token on its first word, or any token on one of its operands. -/
theorem claimInstruction_error {script : Script} {instruction : Instruction} {refusal : Event}
    (hinside : instruction.offset / 4 < script.wordCount)
    (h : script.claimInstruction instruction = .error refusal) :
    (∃ existing, script.tokenAt? (instruction.offset / 4) = some (.instruction existing) ∧
        existing.offset = instruction.offset ∧ refusal = .joined instruction.offset) ∨
      script.isClaimed (instruction.offset / 4) = true ∧
        refusal = .overlap instruction.opcode instruction.offset ∨
      ∃ index, instruction.offset / 4 < index ∧
        index < instruction.offset / 4 + instruction.width ∧ script.isClaimed index = true ∧
        refusal = .operandOverlap instruction.opcode instruction.offset := by
  simp only [claimInstruction] at h
  split at h
  · next hslot =>
    have hnone := Array.getElem?_eq_none_iff.mp hslot
    unfold wordCount at hinside
    omega
  · next id hslot =>
    have howner : script.owner? (instruction.offset / 4) = some id := by
      rw [owner?, hslot]
      rfl
    have hclaimed := isClaimed_iff.mpr ⟨id, howner⟩
    split at h
    · next existing htoken =>
      split at h
      · next hoffset =>
        cases h
        refine .inl ⟨existing, ?_, hoffset, rfl⟩
        rw [tokenAt?, howner]
        exact htoken
      · cases h
        exact .inr (.inl ⟨hclaimed, rfl⟩)
    · cases h
      exact .inr (.inl ⟨hclaimed, rfl⟩)
  · split at h
    · next hany =>
      cases h
      obtain ⟨index, hmem, hclaimed⟩ := List.any_eq_true.mp hany
      rw [List.mem_range'_1] at hmem
      refine .inr (.inr ⟨index, by omega, ?_, hclaimed, rfl⟩)
      unfold Instruction.width
      omega
    · cases h

end Script

end ScriptDisassembler
