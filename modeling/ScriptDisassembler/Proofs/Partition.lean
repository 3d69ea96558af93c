import Mathlib
import ScriptDisassembler.Proofs.Entries
import ScriptDisassembler.Proofs.Layout

/-!
A disassembly takes its buffer apart without a rest: every word belongs to one token, every
token but a table has all of its words, and the operands of an instruction are the tokens
after its own and lie directly behind its first word.
-/

namespace ScriptDisassembler

theorem length_wordsOf (bytes : List UInt8) :
    (Buffer.wordsOf bytes).length = bytes.length / 4 := by
  fun_induction Buffer.wordsOf bytes with
  | case1 b₀ b₁ b₂ b₃ rest ih =>
    simp only [List.length_cons, ih]
    omega
  | case2 bytes hshort =>
    match bytes, hshort with
    | [], _ | [_], _ | [_, _], _ | [_, _, _], _ => simp
    | b₀ :: b₁ :: b₂ :: b₃ :: rest, hshort => exact absurd rfl (hshort b₀ b₁ b₂ b₃ rest)

theorem wordCount_ofBytes (bytes : List UInt8) :
    (Buffer.ofBytes bytes).wordCount = bytes.length / 4 := by
  rw [Buffer.wordCount, Buffer.ofBytes, List.size_toArray, length_wordsOf]

namespace Script

/-- The tokens of a script share out a number of words among them. -/
structure Partitions (script : Script) (count : Nat) : Prop where
  wordCount_eq : script.wordCount = count
  /-- Every slot holds the number of a token that asks for it. -/
  owned : ∀ index < count, ∃ id token, script.slots[index]? = some (some id) ∧
    script.tokens[id]? = some token ∧ token.offset % 4 = 0 ∧
    token.offset / 4 ≤ index ∧ index < token.offset / 4 + token.width
  /-- Any token but a table owns the slots that it asks for, and no others. -/
  owns : ∀ {id : Nat} {token : Token}, script.tokens[id]? = some token →
    (∀ table, token ≠ .table table) → ∀ index : Nat, script.slots[index]? = some (some id) ↔
      token.offset / 4 ≤ index ∧ index < token.offset / 4 + token.width
  /-- A table owns its slot or nothing. -/
  table : ∀ {id : Nat} {table : Table}, script.tokens[id]? = some (.table table) →
    (∀ index : Nat, script.slots[index]? = some (some id) ↔ index = table.offset / 4) ∨
      ∀ index : Nat, script.slots[index]? ≠ some (some id)
  /-- The entries are the tokens that own slots, each of them once. -/
  entries : ∃ ids : List Nat, ids.Nodup ∧
    (∀ id, id ∈ ids ↔ ∃ index : Nat, script.slots[index]? = some (some id)) ∧
    script.entries.map some = ids.map (script.tokens[·]?)
  ascending : script.entries.Pairwise fun first second => first.offset < second.offset
  total : (script.entries.map Token.width).sum = count
  /-- The operands of an instruction are the tokens after its own, as it has them itself,
  and take the slots after its own one after the other. -/
  operands : ∀ {id : Nat} {instruction : Instruction},
    script.tokens[id]? = some (.instruction instruction) →
      ∀ {place : Nat} {operand : Operand}, instruction.operands[place]? = some operand →
        let first := instruction.offset / 4 + 1 +
          ((instruction.operands.take place).map Operand.width).sum
        script.tokens[id + 1 + place]? = some (.operand operand) ∧ operand.offset = 4 * first ∧
        ∀ index : Nat, script.slots[index]? = some (some (id + 1 + place)) ↔
          first ≤ index ∧ index < first + operand.width

variable {script : Script}

theorem owner?_eq_some {index id : Nat} :
    script.owner? index = some id ↔ script.slots[index]? = some (some id) := by
  rw [owner?, Option.join_eq_some_iff]

theorem Tiled.covers_iff {id : Nat} {token : Token} (h : script.Tiled)
    (htoken : script.tokens[id]? = some token) (htable : ¬ token.IsTable) (index : Nat) :
    script.slots[index]? = some (some id) ↔ token.Covers index := by
  rw [← owner?_eq_some]
  constructor
  · intro howner
    exact h.covers howner htoken
  · exact h.owns htoken htable index

theorem Tiled.table_slots {id : Nat} {table : Table} (h : script.Tiled)
    (htoken : script.tokens[id]? = some (.table table)) :
    (∀ index : Nat, script.slots[index]? = some (some id) ↔ index = table.offset / 4) ∨
      ∀ index : Nat, script.slots[index]? ≠ some (some id) := by
  have honly : ∀ {index : Nat}, script.owner? index = some id → index = table.offset / 4 := by
    intro index howner
    exact Token.covers_table.mp (h.covers howner htoken)
  by_cases howner : script.owner? (table.offset / 4) = some id
  · left
    intro index
    rw [← owner?_eq_some]
    refine ⟨honly, ?_⟩
    rintro rfl
    exact howner
  · right
    intro index hslot
    have hindex := owner?_eq_some.mpr hslot
    rw [honly hindex] at hindex
    exact howner hindex

theorem Layout.operand_slots {buffer : Buffer} {id place : Nat} {instruction : Instruction}
    {operand : Operand} (h : script.Layout buffer)
    (htoken : script.tokens[id]? = some (.instruction instruction))
    (hplace : instruction.operands[place]? = some operand) :
    let first := instruction.offset / 4 + 1 +
      ((instruction.operands.take place).map Operand.width).sum
    script.tokens[id + 1 + place]? = some (.operand operand) ∧ operand.offset = 4 * first ∧
      ∀ index : Nat, script.slots[index]? = some (some (id + 1 + place)) ↔
        first ≤ index ∧ index < first + operand.width := by
  intro first
  have hoperand := h.grouped htoken hplace
  obtain ⟨-, haligned, -, hconsecutive, -, -⟩ := decode_ok (h.decoded htoken)
  have hoffset := ((Operand.consecutive_map_bare _ _).mp hconsecutive).offset_eq hplace
  have hfirst : operand.offset = 4 * first := by omega
  refine ⟨hoperand, hfirst, ?_⟩
  intro index
  rw [h.tiled.covers_iff hoperand (fun htable => htable)]
  unfold Token.Covers
  simp only [Token.offset, Token.width]
  have hdiv : operand.offset / 4 = first := by omega
  rw [hdiv]

end Script

theorem partitions_of_disassemble {bytes : List UInt8} {signatures : Signatures}
    {script : Script} (h : disassemble bytes signatures = .ok script) :
    script.Partitions (bytes.length / 4) := by
  obtain ⟨hlayout, hcomplete⟩ := Script.Layout.disassembled h
  obtain ⟨owners, hspans, hentries⟩ := hlayout.tiled.entries_spans hcomplete
  have hcount : script.wordCount = bytes.length / 4 := by
    rw [hlayout.wordCount_eq, wordCount_ofBytes]
  constructor
  case wordCount_eq => exact hcount
  case owned =>
    intro index hlt
    obtain ⟨id, howner⟩ := Script.isClaimed_iff.mp (hcomplete index (by omega))
    obtain ⟨token, htoken, hcovers⟩ := hlayout.tiled.owned howner
    exact ⟨id, token, Script.owner?_eq_some.mp howner, htoken, hlayout.tiled.aligned htoken,
      hcovers⟩
  case owns =>
    intro id token htoken hkind
    refine hlayout.tiled.covers_iff htoken ?_
    intro htable
    cases token with
    | table table => exact hkind table rfl
    | instruction | operand | data | entrypoint => exact htable
  case table =>
    intro id table htoken
    exact hlayout.tiled.table_slots htoken
  case entries =>
    refine ⟨owners.map Prod.fst, hspans.nodup_ids, ?_, ?_⟩
    · intro id
      simp only [hspans.mem_ids, Script.owner?_eq_some]
    · rw [hentries]
      exact hspans.map_tokens
  case ascending =>
    rw [hentries, List.pairwise_map]
    exact hspans.pairwise_offset
  case total =>
    have hsum := hspans.sum_width
    rw [hentries, List.map_map, ← hcount]
    rw [Nat.zero_add] at hsum
    exact hsum
  case operands =>
    intro id instruction htoken place operand hplace
    exact hlayout.operand_slots htoken hplace

/-- The only entry of the table leads to the table's own first word, which is the token of
an instruction by the time that the table is placed. -/
def overlappedTable : List UInt8 :=
  [0x04, 0, 0, 0, 0x44, 2, 0, 0, 0, 0, 0, 0, 3, 0, 0, 0x09, 0, 0, 0, 0, 0x49, 0, 0, 0, 0xff]

theorem partitions_of_overlappedTable :
    ∃ script, disassemble overlappedTable .empty = .ok script ∧ script.tokens.size = 7 ∧
      script.Partitions 6 := by
  have hsize : (disassemble overlappedTable .empty).toOption.map (·.tokens.size) = some 7 := by
    cbv
  obtain ⟨script, h, hseven⟩ := exists_disassemble hsize
  exact ⟨script, h, hseven, partitions_of_disassemble h⟩

end ScriptDisassembler
