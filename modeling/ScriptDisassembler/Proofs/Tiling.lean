import ScriptDisassembler.Proofs.Slots

/-!
The slots and the tokens of a script agree. Every claimed slot belongs to a token that asks
for it, and every token but a table owns all the slots that it asks for; a table whose
first word is taken owns nothing. Placing a token keeps this, and so does placing an
instruction with its operands where all of its slots are free.
-/

namespace ScriptDisassembler

namespace Script

/-- The slots and the tokens of a script agree. -/
structure Tiled (script : Script) : Prop where
  aligned : ∀ {id : Nat} {token : Token}, script.tokens[id]? = some token →
    token.offset % 4 = 0
  width_pos : ∀ {id : Nat} {token : Token}, script.tokens[id]? = some token →
    0 < token.width
  owned : ∀ {index id : Nat}, script.owner? index = some id →
    ∃ token, script.tokens[id]? = some token ∧ token.Covers index
  owns : ∀ {id : Nat} {token : Token}, script.tokens[id]? = some token → ¬ token.IsTable →
    ∀ index, token.Covers index → script.owner? index = some id

namespace Tiled

variable {script : Script}

theorem covers {index id : Nat} {token : Token} (h : script.Tiled)
    (howner : script.owner? index = some id) (htoken : script.tokens[id]? = some token) :
    token.Covers index := by
  obtain ⟨placed, hplaced, hcovers⟩ := h.owned howner
  rw [htoken, Option.some.injEq] at hplaced
  rw [hplaced]
  exact hcovers

theorem place_free {token : Token} (h : script.Tiled)
    (hfree : ∀ index, token.Covers index → script.slots[index]? = some none)
    (haligned : token.offset % 4 = 0) (hwidth : 0 < token.width) :
    (script.place token).Tiled := by
  constructor
  · intro id placed hplaced
    rcases eq_or_of_place hplaced with ⟨-, rfl⟩ | hold
    · exact haligned
    · exact h.aligned hold
  · intro id placed hplaced
    rcases eq_or_of_place hplaced with ⟨-, rfl⟩ | hold
    · exact hwidth
    · exact h.width_pos hold
  · intro index id howner
    rw [owner?_place_free hfree hwidth] at howner
    split at howner
    · next hcovers =>
      cases howner
      refine ⟨token, ?_, hcovers⟩
      rw [tokens_place, Array.getElem?_push_size]
    · obtain ⟨placed, hplaced, hcovers⟩ := h.owned howner
      exact ⟨placed, getElem?_place hplaced, hcovers⟩
  · intro id placed hplaced htable index hcovers
    rw [owner?_place_free hfree hwidth]
    rcases eq_or_of_place hplaced with ⟨rfl, rfl⟩ | hold
    · rw [if_pos hcovers]
    · have howner := h.owns hold htable index hcovers
      have hnot : ¬ token.Covers index := by
        intro hnew
        have hslot := hfree index hnew
        rw [slots_of_owner? howner] at hslot
        simp at hslot
      rw [if_neg hnot, howner]

theorem congr {other : Script} (h : script.Tiled) (htokens : other.tokens = script.tokens)
    (hslots : other.slots = script.slots) : other.Tiled := by
  have howner := owner?_congr hslots
  constructor
  · intro id token htoken
    exact h.aligned (htokens ▸ htoken)
  · intro id token htoken
    exact h.width_pos (htokens ▸ htoken)
  · intro index id hindex
    rw [howner] at hindex
    rw [htokens]
    exact h.owned hindex
  · intro id token htoken htable index hcovers
    rw [howner]
    exact h.owns (htokens ▸ htoken) htable index hcovers

/-- A table whose first word is taken is kept, and the slots stay as they are. -/
theorem place_table {table : Table} (h : script.Tiled) (haligned : table.offset % 4 = 0) :
    (script.place (.table table)).Tiled := by
  by_cases hfree : script.slots[table.offset / 4]? = some none
  · refine h.place_free ?_ haligned Nat.one_pos
    intro index hindex
    rw [Token.covers_table.mp hindex]
    exact hfree
  · have hslots := slots_place_taken (Token.covers_table.mpr rfl) hfree
    have howner := owner?_congr hslots
    constructor
    · intro id token htoken
      rcases eq_or_of_place htoken with ⟨-, rfl⟩ | hold
      · exact haligned
      · exact h.aligned hold
    · intro id token htoken
      rcases eq_or_of_place htoken with ⟨-, rfl⟩ | hold
      · exact Nat.one_pos
      · exact h.width_pos hold
    · intro index id hindex
      rw [howner] at hindex
      obtain ⟨token, htoken, hcovered⟩ := h.owned hindex
      exact ⟨token, getElem?_place htoken, hcovered⟩
    · intro id token htoken htable index hindex
      rw [howner]
      rcases eq_or_of_place htoken with ⟨-, rfl⟩ | hold
      · exact absurd trivial htable
      · exact h.owns hold htable index hindex

theorem place_operands {operands : List Operand} {offset : Nat} (h : script.Tiled)
    (haligned : offset % 4 = 0) (hconsecutive : Operand.Consecutive offset operands)
    (hfree : ∀ index, offset / 4 ≤ index →
      index < offset / 4 + (operands.map Operand.width).sum →
        script.slots[index]? = some none) :
    (operands.foldl (fun script operand => script.place (.operand operand)) script).Tiled := by
  induction operands generalizing script offset with
  | nil => exact h
  | cons operand rest ih =>
    obtain ⟨rfl, hwidth, hrest⟩ := hconsecutive
    simp only [List.map_cons, List.sum_cons] at hfree
    have hslots : ∀ index, (Token.operand operand).Covers index →
        script.slots[index]? = some none := by
      intro index hindex
      simp only [Token.Covers, Token.offset, Token.width] at hindex
      exact hfree index hindex.1 (by omega)
    refine ih (h.place_free hslots haligned hwidth) (by omega) hrest ?_
    intro index hlower hupper
    have hnot : ¬ (Token.operand operand).Covers index := by
      simp only [Token.Covers, Token.offset, Token.width]
      omega
    rw [slots_place_free hslots hwidth, if_neg hnot]
    exact hfree index (by omega) (by omega)

theorem place_instruction {instruction : Instruction} (h : script.Tiled)
    (haligned : instruction.offset % 4 = 0)
    (hconsecutive : Operand.Consecutive (instruction.offset + 4) instruction.operands)
    (hfree : ∀ index, instruction.offset / 4 ≤ index →
      index < instruction.offset / 4 + instruction.width → script.slots[index]? = some none) :
    (script.placeInstruction instruction).Tiled := by
  have hslots : ∀ index, (Token.instruction instruction).Covers index →
      script.slots[index]? = some none := by
    intro index hindex
    simp only [Token.Covers, Token.offset, Token.width] at hindex
    refine hfree index hindex.1 ?_
    unfold Instruction.width
    omega
  refine place_operands (h.place_free hslots haligned Nat.one_pos) ?_ hconsecutive ?_
  · omega
  · intro index hlower hupper
    have hnot : ¬ (Token.instruction instruction).Covers index := by
      simp only [Token.Covers, Token.offset, Token.width]
      omega
    rw [slots_place_free hslots Nat.one_pos, if_neg hnot]
    refine hfree index (by omega) ?_
    rw [Instruction.width, Instruction.operandWidth_eq_sum]
    omega

end Tiled

end Script

end ScriptDisassembler
