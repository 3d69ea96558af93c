import ScriptDisassembler.Proofs.Faithful
import ScriptDisassembler.Proofs.Partition
import ScriptDisassembler.Proofs.Recoding

/-!
The entries of a script say what its buffer was. An instruction and its operands lie in a
block of slots behind each other, and every other token is a block of its own; where one
block ends the next begins. The token at the head of a block tells the words of the block,
so the entries in their order tell all the words, but for those of tables that have no
destination.
-/

namespace ScriptDisassembler

namespace Token

/-- The words that a token tells. Those of an operand are told by its instruction, and a
table without destinations does not tell its word. -/
def recode : Token → List (Option Word)
  | instruction i => i.words.map some
  | operand _ => []
  | data _ value => [some value]
  | entrypoint _ target _ => [some (UInt32.ofNat target)]
  | table t =>
    match t.destinations with
    | [] => [none]
    | destination :: _ => [some (UInt32.ofInt (((destination : Int) - t.offset) / 4))]

/-- The number of slots of the block that a token heads. -/
def breadth : Token → Nat
  | instruction i => i.width
  | operand o => o.width
  | data _ _ | entrypoint _ _ _ | table _ => 1

theorem width_eq_one {token : Token} (h : ¬ token.IsOperand) : token.width = 1 := by
  cases token with
  | operand operand => exact absurd trivial h
  | instruction | data | entrypoint | table => rfl

theorem breadth_pos {token : Token} (h : ¬ token.IsOperand) : 0 < token.breadth := by
  cases token with
  | operand operand => exact absurd trivial h
  | instruction instruction =>
    simp only [breadth, Instruction.width]
    omega
  | data | entrypoint | table => exact Nat.one_pos

end Token

theorem exists_place_of_lt_sum {widths : List Nat} {index : Nat} (h : index < widths.sum) :
    ∃ place width, widths[place]? = some width ∧ (widths.take place).sum ≤ index ∧
      index < (widths.take place).sum + width := by
  induction widths generalizing index with
  | nil => simp at h
  | cons head rest ih =>
    rw [List.sum_cons] at h
    by_cases hfirst : index < head
    · refine ⟨0, head, rfl, ?_, ?_⟩
      · simp
      · simpa using hfirst
    · obtain ⟨place, width, hplace, hlower, hupper⟩ := ih (by omega : index - head < rest.sum)
      refine ⟨place + 1, width, hplace, ?_, ?_⟩
      · rw [List.take_succ_cons, List.sum_cons]
        omega
      · rw [List.take_succ_cons, List.sum_cons]
        omega

namespace Buffer

variable {buffer : Buffer}

theorem words_of_wordAt {index : Nat} {word : Word} (h : buffer.wordAt (4 * index) = .ok word) :
    buffer.words[index]? = some word := by
  have hlt := (wordAt_ok h).2
  have hindex : index < buffer.wordCount := by
    unfold Buffer.length at hlt
    omega
  rw [buffer.wordAt_mul_four hindex, Except.ok.injEq] at h
  rw [← h]
  exact Array.getElem?_eq_getElem hindex

theorem words_of_wordsAt {index count : Nat} {raw : List Word}
    (h : buffer.wordsAt (4 * index) count = .ok raw) :
    (List.range' index count).map (buffer.words[·]?) = raw.map some := by
  induction count generalizing index raw with
  | zero =>
    cases h
    rfl
  | succ count ih =>
    simp only [Buffer.wordsAt] at h
    split at h
    · cases h
    · next word hword =>
      split at h
      · cases h
      · next rest hrest =>
        cases h
        have hnext : 4 * index + 4 = 4 * (index + 1) := by omega
        rw [hnext] at hrest
        rw [List.range'_succ, List.map_cons, List.map_cons, ih hrest, words_of_wordAt hword]

end Buffer

namespace Script

/-- The words that the entries tell, in their order. -/
def recode (script : Script) : List (Option Word) :=
  script.entries.flatMap Token.recode

/-- Whether a slot is that of a table without destinations. -/
def isUntold (script : Script) (index : Nat) : Bool :=
  match script.tokenAt? index with
  | some (.table table) => table.destinations.isEmpty
  | _ => false

/-- The word of a slot, unless nothing tells it. -/
def told? (script : Script) (buffer : Buffer) (index : Nat) : Option Word :=
  if script.isUntold index then none else buffer.words[index]?

theorem told?_of_token {script : Script} {buffer : Buffer} {index : Nat} {token : Token}
    (htoken : script.tokenAt? index = some token) (htable : ¬ token.IsTable) :
    script.told? buffer index = buffer.words[index]? := by
  have htold : script.isUntold index = false := by
    unfold isUntold
    rw [htoken]
    cases token with
    | table table => exact absurd trivial htable
    | instruction | operand | data | entrypoint => rfl
  unfold told?
  rw [htold]
  rfl

/-- The token with a number heads the block to which a slot belongs: the slot is its own or
that of one of its operands. -/
def Heads (script : Script) (first index : Nat) : Prop :=
  ∃ id, script.owner? index = some id ∧
    (id = first ∨ ∃ instruction place operand, id = first + 1 + place ∧
      script.tokens[first]? = some (.instruction instruction) ∧
      instruction.operands[place]? = some operand)

/-- A block begins at a slot. -/
def Begins (script : Script) (index first : Nat) (token : Token) : Prop :=
  script.owner? index = some first ∧ script.tokens[first]? = some token ∧ ¬ token.IsOperand

namespace Layout

variable {buffer : Buffer} {script : Script}

/-- No instruction is an operand of another, so a slot belongs to one block. -/
theorem heads_unique {first second index : Nat} {token other : Token}
    (h : script.Layout buffer) (htoken : script.tokens[first]? = some token)
    (hother : script.tokens[second]? = some other) (hkind : ¬ token.IsOperand)
    (hotherKind : ¬ other.IsOperand) (hfirst : script.Heads first index)
    (hsecond : script.Heads second index) : first = second := by
  have hbehind : ∀ {first place : Nat} {instruction : Instruction} {token : Token},
      script.tokens[first]? = some (.instruction instruction) →
      place < instruction.operands.length → script.tokens[first + 1 + place]? = some token →
      token.IsOperand := by
    intro first place instruction token hfirst hplace htoken
    rw [h.grouped hfirst (List.getElem?_eq_getElem hplace), Option.some.injEq] at htoken
    rw [← htoken]
    trivial
  obtain ⟨id, howner, hid⟩ := hfirst
  obtain ⟨same, hsame, hids⟩ := hsecond
  rw [howner, Option.some.injEq] at hsame
  subst hsame
  rcases hid with rfl | ⟨instruction, place, operand, hid, hinstruction, hplace⟩
  · rcases hids with rfl | ⟨instruction, place, operand, rfl, hinstruction, hplace⟩
    · rfl
    · have hlt := (List.getElem?_eq_some_iff.mp hplace).1
      exact absurd (hbehind hinstruction hlt htoken) hkind
  · have hlt := (List.getElem?_eq_some_iff.mp hplace).1
    rcases hids with rfl | ⟨instruction', place', operand', hid', hinstruction', hplace'⟩
    · rw [hid] at hother
      exact absurd (hbehind hinstruction hlt hother) hotherKind
    · have hlt' := (List.getElem?_eq_some_iff.mp hplace').1
      rcases Nat.lt_trichotomy first second with hless | heq | hmore
      · obtain ⟨between, hbetween⟩ := Nat.exists_eq_add_of_lt hless
        have hsecond : second = first + 1 + between := by omega
        rw [hsecond] at hother
        exact absurd (hbehind hinstruction (by omega) hother) hotherKind
      · exact heq
      · obtain ⟨between, hbetween⟩ := Nat.exists_eq_add_of_lt hmore
        have hfirst : first = second + 1 + between := by omega
        rw [hfirst] at htoken
        exact absurd (hbehind hinstruction' (by omega) htoken) hkind

/-- The slots of an operand lie behind the first slot of its instruction, in the same block. -/
theorem operand_inside {first place index : Nat} {instruction : Instruction} {operand : Operand}
    (h : script.Layout buffer) (hfirst : script.tokens[first]? = some (.instruction instruction))
    (hplace : instruction.operands[place]? = some operand)
    (howner : script.owner? index = some (first + 1 + place)) :
    instruction.offset / 4 < index ∧ index < instruction.offset / 4 + instruction.width := by
  obtain ⟨hoperand, hoffset, hslots⟩ := h.operand_slots hfirst hplace
  obtain ⟨hlower, hupper⟩ := (hslots index).mp (owner?_eq_some.mp howner)
  obtain ⟨hlt, hget⟩ := List.getElem?_eq_some_iff.mp hplace
  have hsum : ((instruction.operands.take place).map Operand.width).sum + operand.width ≤
      instruction.operandWidth := by
    have hsplit := List.take_append_drop place instruction.operands
    have hdrop := List.drop_eq_getElem_cons hlt
    rw [Instruction.operandWidth_eq_sum, ← hsplit, hdrop, hget, List.map_append, List.sum_append,
      List.map_cons, List.sum_cons, List.take_left']
    · omega
    · rw [List.length_take]
      omega
  unfold Instruction.width
  omega

theorem heads_instruction {first index : Nat} {instruction : Instruction}
    (h : script.Layout buffer) (hfirst : script.tokens[first]? = some (.instruction instruction))
    (hlower : instruction.offset / 4 ≤ index)
    (hupper : index < instruction.offset / 4 + instruction.width) :
    script.Heads first index := by
  rcases Nat.eq_or_lt_of_le hlower with rfl | hlt
  · refine ⟨first, h.tiled.owns hfirst (fun htable => htable) _ ?_, .inl rfl⟩
    exact ⟨Nat.le_refl _, Nat.lt_succ_self _⟩
  · have hinside : index - (instruction.offset / 4 + 1) <
        (instruction.operands.map Operand.width).sum := by
      rw [Instruction.width, Instruction.operandWidth_eq_sum] at hupper
      omega
    obtain ⟨place, width, hwidth, hstart, hstop⟩ := exists_place_of_lt_sum hinside
    rw [List.getElem?_map, Option.map_eq_some_iff] at hwidth
    obtain ⟨operand, hplace, rfl⟩ := hwidth
    obtain ⟨hoperand, hoffset, hslots⟩ := h.operand_slots hfirst hplace
    rw [← List.map_take] at hstart hstop
    refine ⟨first + 1 + place, owner?_eq_some.mpr ((hslots index).mpr ⟨by omega, by omega⟩),
      .inr ⟨instruction, place, operand, rfl, hfirst, hplace⟩⟩

theorem offset_of_begins {start first : Nat} {token : Token} (h : script.Layout buffer)
    (hbegins : script.Begins start first token) : token.offset = 4 * start := by
  obtain ⟨howner, htoken, hkind⟩ := hbegins
  have hcovers := h.tiled.covers howner htoken
  have haligned := h.tiled.aligned htoken
  unfold Token.Covers at hcovers
  rw [Token.width_eq_one hkind] at hcovers
  omega

theorem heads_of_begins {start first index : Nat} {token : Token} (h : script.Layout buffer)
    (hbegins : script.Begins start first token) (hlower : start ≤ index)
    (hupper : index < start + token.breadth) : script.Heads first index := by
  have hoffset := h.offset_of_begins hbegins
  obtain ⟨howner, htoken, hkind⟩ := hbegins
  cases token with
  | instruction instruction =>
    have hstart : instruction.offset / 4 = start := by
      simp only [Token.offset] at hoffset
      omega
    exact h.heads_instruction htoken (by omega) (by rw [hstart]; exact hupper)
  | operand operand => exact absurd trivial hkind
  | data | entrypoint | table =>
    have hindex : index = start := by
      simp only [Token.breadth] at hupper
      omega
    rw [hindex]
    exact ⟨first, howner, .inl rfl⟩

/-- Where a block has ended, the next one begins. -/
theorem begins_after {start first id : Nat} {token next : Token} (h : script.Layout buffer)
    (hfaithful : script.Faithful buffer) (hbegins : script.Begins start first token)
    (howner : script.owner? (start + token.breadth) = some id)
    (hnext : script.tokens[id]? = some next) :
    script.Begins (start + token.breadth) id next := by
  refine ⟨howner, hnext, ?_⟩
  intro hkind
  have hbreadth := token.breadth_pos hbegins.2.2
  cases next with
  | instruction | data | entrypoint | table => exact hkind
  | operand operand =>
    obtain ⟨other, instruction, place, rfl, hinstruction, hplace⟩ := hfaithful.belongs hnext
    obtain ⟨hlower, hupper⟩ := h.operand_inside hinstruction hplace howner
    -- The last slot of the block is one of the instruction as well, so it is its block.
    have hlast := h.heads_of_begins hbegins (by omega : start ≤ start + token.breadth - 1)
      (by omega)
    have hshared := h.heads_instruction hinstruction
      (by omega : instruction.offset / 4 ≤ start + token.breadth - 1) (by omega)
    have hsame := h.heads_unique hbegins.2.1 hinstruction hbegins.2.2 (fun hkind => hkind) hlast
      hshared
    have htoken := hbegins.2.1
    rw [hsame, hinstruction, Option.some.injEq] at htoken
    have hoffset := h.offset_of_begins hbegins
    rw [← htoken] at hupper hoffset
    simp only [Token.breadth, Token.offset] at hupper hoffset
    omega

theorem begins_first {id : Nat} {token : Token} (h : script.Layout buffer)
    (hfaithful : script.Faithful buffer) (howner : script.owner? 0 = some id)
    (htoken : script.tokens[id]? = some token) : script.Begins 0 id token := by
  refine ⟨howner, htoken, ?_⟩
  intro hkind
  cases token with
  | instruction | data | entrypoint | table => exact hkind
  | operand operand =>
    obtain ⟨first, instruction, place, rfl, hinstruction, hplace⟩ := hfaithful.belongs htoken
    have hinside := h.operand_inside hinstruction hplace howner
    omega

/-- The slots of a block, of which the first is known to lie in the buffer, all lie there. -/
theorem begins_fits {start first : Nat} {token : Token} (h : script.Layout buffer)
    (hbegins : script.Begins start first token) :
    start + token.breadth ≤ script.wordCount := by
  have hbreadth := token.breadth_pos hbegins.2.2
  obtain ⟨last, hlast, -⟩ := h.heads_of_begins hbegins
    (by omega : start ≤ start + token.breadth - 1) (by omega)
  have hinside := (Array.getElem?_eq_some_iff.mp (slots_of_owner? hlast)).1
  unfold wordCount
  omega

/-- What holds of no slots, and of a block and the slots behind it if it holds of those, holds of
all the slots from the beginning of a block on. -/
theorem blocks_induction {motive : Nat → Nat → Prop} {start count : Nat}
    (h : script.Layout buffer) (hfaithful : script.Faithful buffer)
    (hcomplete : ∀ index < script.wordCount, script.isClaimed index = true)
    (hcount : start + count = script.wordCount)
    (hstart : ∀ {id : Nat} {token : Token}, script.owner? start = some id →
      script.tokens[id]? = some token → script.Begins start id token)
    (hend : ∀ start, motive start 0)
    (hblock : ∀ {start count first : Nat} {token : Token}, script.Begins start first token →
      motive (start + token.breadth) count → motive start (token.breadth + count)) :
    motive start count := by
  induction count using Nat.strongRecOn generalizing start with
  | ind count ih =>
    rcases Nat.eq_zero_or_pos count with rfl | hpos
    · exact hend start
    · obtain ⟨id, howner⟩ := isClaimed_iff.mp (hcomplete start (by omega))
      obtain ⟨token, htoken, -⟩ := h.tiled.owned howner
      have hbegins := hstart howner htoken
      have hbreadth := token.breadth_pos hbegins.2.2
      have hfits := h.begins_fits hbegins
      obtain ⟨rest, rfl⟩ := Nat.exists_eq_add_of_le (by omega : token.breadth ≤ count)
      exact hblock hbegins (ih rest (by omega) (by omega) (h.begins_after hfaithful hbegins))

end Layout

/-- What the token tells that begins at a slot, if one does. -/
def tells (script : Script) (index : Nat) : List (Option Word) :=
  ((script.startAt? index).map Token.recode).getD []

theorem recode_eq (script : Script) :
    script.recode = (List.range' 0 script.wordCount).flatMap script.tells := by
  rw [recode, entries_eq]
  generalize List.range' 0 script.wordCount = indices
  induction indices with
  | nil => rfl
  | cons index rest ih =>
    rw [List.flatMap_cons, ← ih, tells]
    cases hstart : script.startAt? index with
    | none => rw [List.filterMap_cons_none hstart]; rfl
    | some token => rw [List.filterMap_cons_some hstart, List.flatMap_cons]; rfl

namespace Layout

variable {buffer : Buffer} {script : Script}

theorem startAt?_of_begins {start first : Nat} {token : Token} (h : script.Layout buffer)
    (hbegins : script.Begins start first token) : script.startAt? start = some token := by
  have hoffset := h.offset_of_begins hbegins
  exact startAt?_eq_some.mpr ⟨tokenAt?_eq hbegins.1 hbegins.2.1, by omega⟩

/-- Inside of a block there are operands only. -/
theorem isOperand_inside {start first index : Nat} {token other : Token}
    (h : script.Layout buffer) (hbegins : script.Begins start first token)
    (hlower : start < index) (hupper : index < start + token.breadth)
    (hother : script.startAt? index = some other) : other.IsOperand := by
  obtain ⟨hat, -⟩ := startAt?_eq_some.mp hother
  obtain ⟨id, howner, hid⟩ := h.heads_of_begins hbegins (Nat.le_of_lt hlower) hupper
  rcases hid with rfl | ⟨instruction, place, operand, rfl, hinstruction, hplace⟩
  · have hcovers := h.tiled.covers howner hbegins.2.1
    have hoffset := h.offset_of_begins hbegins
    unfold Token.Covers at hcovers
    rw [Token.width_eq_one hbegins.2.2] at hcovers
    omega
  · rw [tokenAt?_eq howner (h.grouped hinstruction hplace), Option.some.injEq] at hat
    rw [← hat]
    trivial

theorem tells_of_begins {start first : Nat} {token : Token} (h : script.Layout buffer)
    (hbegins : script.Begins start first token) : script.tells start = token.recode := by
  rw [tells, h.startAt?_of_begins hbegins]
  rfl

/-- The operands inside of a block tell nothing. -/
theorem tells_inside {start first index : Nat} {token : Token} (h : script.Layout buffer)
    (hbegins : script.Begins start first token) (hlower : start < index)
    (hupper : index < start + token.breadth) : script.tells index = [] := by
  rw [tells]
  cases hother : script.startAt? index with
  | none => rfl
  | some other =>
    have hkind := h.isOperand_inside hbegins hlower hupper hother
    cases other with
    | operand => rfl
    | instruction | data | entrypoint | table => exact absurd hkind id

theorem flatMap_tells_block {start first : Nat} {token : Token} (h : script.Layout buffer)
    (hbegins : script.Begins start first token) :
    (List.range' start token.breadth).flatMap script.tells = token.recode := by
  have hpos := token.breadth_pos hbegins.2.2
  obtain ⟨more, hmore⟩ := Nat.exists_eq_succ_of_ne_zero (Nat.ne_of_gt hpos)
  have hrest : (List.range' (start + 1) more).flatMap script.tells = [] := by
    rw [List.flatMap_eq_nil_iff]
    intro index hindex
    rw [List.mem_range'_1] at hindex
    exact h.tells_inside hbegins (by omega) (by omega)
  rw [hmore, List.range'_succ, List.flatMap_cons, hrest, List.append_nil, h.tells_of_begins hbegins]

/-- The token at the head of a block tells the words of the block. -/
theorem recode_block {start first : Nat} {token : Token} (h : script.Layout buffer)
    (hfaithful : script.Faithful buffer) (hbegins : script.Begins start first token) :
    token.recode = (List.range' start token.breadth).map (script.told? buffer) := by
  have hoffset := h.offset_of_begins hbegins
  have hreads := hfaithful.reads token (Array.mem_of_getElem? hbegins.2.1)
  have hat := tokenAt?_eq hbegins.1 hbegins.2.1
  have hheads : ∀ {index : Nat}, start ≤ index → index < start + token.breadth →
      script.Heads first index := h.heads_of_begins hbegins
  obtain ⟨howner, htoken, hkind⟩ := hbegins
  cases token with
  | operand operand => exact absurd trivial hkind
  | instruction instruction =>
    have hwords := wordsAt_decode (h.decoded htoken)
    simp only [Token.offset] at hoffset
    simp only [Instruction.words_bare, Instruction.width, Instruction.operandWidth_bare,
      hoffset] at hwords
    rw [Token.recode, ← Buffer.words_of_wordsAt hwords]
    refine List.map_congr_left ?_
    intro index hindex
    rw [List.mem_range'_1] at hindex
    obtain ⟨id, hid, hblock⟩ := hheads hindex.1 hindex.2
    rcases hblock with rfl | ⟨other, place, operand, rfl, hother, hplace⟩
    · exact (told?_of_token (tokenAt?_eq hid htoken) (fun htable => htable)).symm
    · exact (told?_of_token (tokenAt?_eq hid (h.grouped hother hplace)) (fun htable => htable)).symm
  | data offset value =>
    simp only [Token.offset] at hoffset
    subst hoffset
    simp only [Token.recode, Token.breadth, List.range'_one, List.map_cons, List.map_nil,
      told?_of_token hat (fun htable => htable), Buffer.words_of_wordAt hreads]
  | entrypoint offset target label =>
    simp only [Token.offset] at hoffset
    subst hoffset
    obtain ⟨word, hword, rfl⟩ := hreads
    simp only [Token.recode, Token.breadth, List.range'_one, List.map_cons, List.map_nil,
      told?_of_token hat (fun htable => htable), Buffer.words_of_wordAt hword, UInt32.ofNat_toNat]
  | table table =>
    simp only [Token.recode, Token.breadth, List.range'_one, List.map_cons, List.map_nil, told?,
      isUntold, hat]
    cases hdestinations : table.destinations with
    | nil => rfl
    | cons destination rest =>
      simp only [Token.Reads] at hreads
      obtain ⟨word, hword, hlead⟩ := @hreads 0 destination (by rw [hdestinations]; rfl)
      simp only [Token.offset] at hoffset
      rw [hoffset, Nat.mul_zero, Nat.add_zero] at hword
      have hback : ((destination : Int) - table.offset) / 4 = word.signed.toInt := by omega
      simp only [hback, Word.ofInt_toInt_signed, List.isEmpty_cons, Bool.false_eq_true, ↓reduceIte,
        Buffer.words_of_wordAt hword]

/-- From the beginning of a block on, the tokens tell all the words. -/
theorem flatMap_tells {start count : Nat} (h : script.Layout buffer)
    (hfaithful : script.Faithful buffer)
    (hcomplete : ∀ index < script.wordCount, script.isClaimed index = true)
    (hcount : start + count = script.wordCount)
    (hstart : ∀ {id : Nat} {token : Token}, script.owner? start = some id →
      script.tokens[id]? = some token → script.Begins start id token) :
    (List.range' start count).flatMap script.tells =
      (List.range' start count).map (script.told? buffer) := by
  refine h.blocks_induction (motive := fun start count =>
    (List.range' start count).flatMap script.tells =
      (List.range' start count).map (script.told? buffer))
    hfaithful hcomplete hcount hstart (fun _ => rfl) ?_
  intro start count first token hbegins hrest
  rw [← List.range'_append_1, List.flatMap_append, List.map_append, hrest,
    h.flatMap_tells_block hbegins, h.recode_block hfaithful hbegins]

end Layout

end Script

/-- The entries of a script that is returned tell every word of the buffer, slot by slot, and
only the word of a table without destinations is not told. -/
theorem recode_of_disassemble {bytes : List UInt8} {signatures : Signatures} {script : Script}
    (h : disassemble bytes signatures = .ok script) :
    script.recode = (List.range (bytes.length / 4)).map (script.told? (.ofBytes bytes)) := by
  obtain ⟨hlayout, hcomplete⟩ := Script.Layout.disassembled h
  have hfaithful := faithful_of_disassemble h
  rw [Script.recode_eq, hlayout.flatMap_tells hfaithful hcomplete (Nat.zero_add _)
    (hlayout.begins_first hfaithful), hlayout.wordCount_eq, wordCount_ofBytes, List.range_eq_range']

/-- A table with a destination, a subroutine whose address takes two words, a call and a table
that is full before its first entry. -/
def twoTables : List UInt8 :=
  [4, 0, 0, 0, 0x44, 2, 0, 0, 0, 0, 0, 0, 3, 0, 0, 0x09, 3, 0, 0, 0, 0x64, 0, 0, 0,
    0xef, 0xbe, 0xad, 0xde, 0x48, 1, 0, 0, 4, 0, 0, 0x0a, 0xff, 0xff, 0xff, 0xff, 0x38, 0, 1, 0,
    0x4a, 2, 0, 0, 0, 0, 0, 0, 4, 0, 0, 0x09, 0x49, 0, 0, 0, 0xff, 0xff, 0xff, 0x7f]

theorem recode_of_twoTables :
    ∃ script, disassemble twoTables ⟨[⟨"idle", []⟩, ⟨"wake", []⟩]⟩ = .ok script ∧
      (List.range 16).filter script.isUntold = [15] ∧
      script.recode = (List.range 16).map (script.told? (.ofBytes twoTables)) := by
  have huntold : (disassemble twoTables ⟨[⟨"idle", []⟩, ⟨"wake", []⟩]⟩).toOption.map
      (fun script => (List.range 16).filter script.isUntold) = some [15] := by
    cbv
  obtain ⟨script, h, hlast⟩ := exists_disassemble huntold
  exact ⟨script, h, hlast, recode_of_disassemble h⟩

end ScriptDisassembler
