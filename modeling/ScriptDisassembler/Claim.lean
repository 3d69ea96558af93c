import ScriptDisassembler.Event
import ScriptDisassembler.Script

/-!
Entering a decoded instruction into a script. It is entered whole, with a name for every
code address that its operands denote, or not at all. An instruction that is entered uses
up at least one free slot, which is what bounds a disassembly.
-/

namespace ScriptDisassembler

namespace Operand

/-- The code address that an inline operand denotes. Negative values are no addresses. -/
def codeAddress? (operand : Operand) : Option Nat :=
  if operand.encoding.isInline then
    match operand.resolved with
    | some value => if 0 ≤ value.toInt then some value.toInt.toNat else none
    | none => none
  else
    none

end Operand

namespace Script

/-- Gives each operand the name of the code address that it denotes. -/
def labelOperands : List Operand → Labels → List Operand × Labels
  | [], labels => ([], labels)
  | operand :: rest, labels =>
    match operand.codeAddress? with
    | none =>
      let (operands, labels) := labelOperands rest labels
      (operand :: operands, labels)
    | some address =>
      let (name, labels) := labels.add address fun number => (Label.code number).text
      let (operands, labels) := labelOperands rest labels
      ({ operand with label := some name } :: operands, labels)

/-- Adds the token of an instruction and those of its operands. -/
def placeInstruction (script : Script) (instruction : Instruction) : Script :=
  instruction.operands.foldl (fun script operand => script.place (.operand operand))
    (script.place (.instruction instruction))

/-- Enters an instruction, or says what stands in its way. A scan is determined by where it
is, so one that meets an instruction decoded before would go on as that one did. There is a
slot for the first word of every instruction that was decoded; without one the instruction is
refused, though nothing stands in its way. -/
def claimInstruction (script : Script) (instruction : Instruction) : Except Event Script :=
  let index := instruction.offset / 4
  match script.slots[index]? with
  | none => .error (.overlap instruction.opcode instruction.offset)
  | some (some id) =>
    match script.tokens[id]? with
    | some (.instruction existing) =>
      if existing.offset = instruction.offset then
        .error (.joined instruction.offset)
      else
        .error (.overlap instruction.opcode instruction.offset)
    | _ => .error (.overlap instruction.opcode instruction.offset)
  | some none =>
    if (List.range' (index + 1) instruction.operandWidth).any script.isClaimed then
      .error (.operandOverlap instruction.opcode instruction.offset)
    else
      let (operands, labels) := labelOperands instruction.operands script.labels
      .ok ({ script with labels }.placeInstruction { instruction with operands })

theorem countP_setIfInBounds_le (slots : Array (Option Nat)) (index id : Nat) :
    (slots.setIfInBounds index (some id)).countP Option.isNone ≤
      slots.countP Option.isNone := by
  by_cases h : index < slots.size
  · rw [Array.setIfInBounds, dif_pos h, Array.countP_set h]
    simp
  · exact Nat.le_of_eq (by rw [Array.setIfInBounds, dif_neg h])

theorem countP_fill_le (id count index : Nat) (slots : Array (Option Nat)) :
    (fill slots id index count).countP Option.isNone ≤ slots.countP Option.isNone := by
  induction count generalizing slots index with
  | zero => exact Nat.le_refl _
  | succ count ih =>
    exact Nat.le_trans (ih (index + 1) _) (countP_setIfInBounds_le slots index id)

theorem unclaimed_place_le (script : Script) (token : Token) :
    (script.place token).unclaimed ≤ script.unclaimed := by
  simp only [place, claim?]
  split
  · exact countP_fill_le ..
  · exact Nat.le_refl _

theorem unclaimed_foldl_place_le (operands : List Operand) (script : Script) :
    (operands.foldl (fun script operand => script.place (.operand operand)) script).unclaimed ≤
      script.unclaimed := by
  induction operands generalizing script with
  | nil => exact Nat.le_refl _
  | cons operand rest ih =>
    exact Nat.le_trans (ih _) (unclaimed_place_le script (.operand operand))

theorem unclaimed_place_instruction_lt {script : Script} {instruction : Instruction}
    (h : script.slots[instruction.offset / 4]? = some none) :
    (script.place (.instruction instruction)).unclaimed < script.unclaimed := by
  obtain ⟨hlt, hnone⟩ := Array.getElem?_eq_some_iff.mp h
  have hpos : 0 < script.slots.countP Option.isNone :=
    Array.countP_pos_iff.mpr ⟨none, hnone ▸ Array.getElem_mem hlt, rfl⟩
  have hfree : areFree script.slots (instruction.offset / 4) 1 = true := by
    simp only [areFree, h, BEq.rfl, Bool.true_and, decide_eq_true_eq]
    omega
  simp only [place, push, claim?, Token.offset, Token.width, hfree, ↓reduceIte,
    Option.getD_some, unclaimed, fill, Array.setIfInBounds, hlt, ↓reduceDIte, Array.countP_set hlt, hnone,
    Option.isNone_none, Option.isNone_some]
  simp only [Bool.false_eq_true, ↓reduceIte]
  omega

/-- An instruction that is entered uses up a free slot. -/
theorem unclaimed_claimInstruction_lt {script entered : Script} {instruction : Instruction}
    (h : script.claimInstruction instruction = .ok entered) :
    entered.unclaimed < script.unclaimed := by
  simp only [claimInstruction] at h
  split at h
  · cases h
  · split at h
    · split at h <;> cases h
    · cases h
  · next hfree =>
    split at h
    · cases h
    · cases h
      exact Nat.lt_of_le_of_lt (unclaimed_foldl_place_le _ _)
        (unclaimed_place_instruction_lt hfree)

end Script

end ScriptDisassembler
