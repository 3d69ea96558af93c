import ScriptDisassembler.Proofs.Parts
import ScriptDisassembler.Proofs.References

/-!
An instruction is entered whole or not at all. Where one of its slots is claimed, nothing of the
script is touched. Where none is, its token and those of its operands are added, each gets all the
slots of its words, and no other slot changes. The names that are given out are counted by the
addresses which they are for: one for each address that an operand denotes and that had none,
however many operands denote it.
-/

namespace ScriptDisassembler

/-- The slots of an instruction are that of its first word and those of its operands. -/
def Instruction.Takes (instruction : Instruction) (index : Nat) : Prop :=
  index = instruction.offset / 4 ∨
    ∃ operand ∈ instruction.operands, (Token.operand operand).Covers index

/-- Operands without a gap between them take all the slots from the first to the last. -/
theorem Operand.Consecutive.covers_iff {offset : Nat} {operands : List Operand}
    (h : Operand.Consecutive offset operands) (haligned : offset % 4 = 0) (index : Nat) :
    (∃ operand ∈ operands, (Token.operand operand).Covers index) ↔
      offset / 4 ≤ index ∧ index < offset / 4 + (operands.map Operand.width).sum := by
  induction operands generalizing offset with
  | nil => simp
  | cons operand rest ih =>
    obtain ⟨rfl, -, hrest⟩ := h
    have hbehind := ih hrest (by omega)
    simp only [List.mem_cons, exists_eq_or_imp, hbehind, List.map_cons, List.sum_cons]
    unfold Token.Covers
    simp only [Token.offset, Token.width]
    omega

@[simp] theorem Instruction.takes_bare {instruction : Instruction} {index : Nat} :
    instruction.bare.Takes index ↔ instruction.Takes index := by
  simp only [Takes, offset_bare, operands_bare, List.mem_map, exists_exists_and_eq_and]
  rfl

theorem Instruction.takes_iff {instruction : Instruction} {offset : Nat} {buffer : Buffer}
    (h : decode buffer offset = .ok instruction) (index : Nat) :
    instruction.Takes index ↔ instruction.offset / 4 ≤ index ∧
      index < instruction.offset / 4 + instruction.width := by
  obtain ⟨rfl, haligned, -, hconsecutive, -, -⟩ := decode_ok h
  rw [Takes, hconsecutive.covers_iff (by omega), width, operandWidth_eq_sum]
  omega

namespace Labels

/-- The addresses that operands denote and that have no name. -/
def unnamed (labels : Labels) (operands : List Operand) : Finset Nat :=
  (operands.filterMap Operand.codeAddress?).toFinset.filter (labels.find? · = none)

variable {labels : Labels} {operand : Operand} {rest : List Operand} {address : Nat}

theorem mem_unnamed {operands : List Operand} :
    address ∈ labels.unnamed operands ↔
      (∃ operand ∈ operands, operand.codeAddress? = some address) ∧
        labels.find? address = none := by
  rw [unnamed, Finset.mem_filter, List.mem_toFinset, List.mem_filterMap]

theorem unnamed_cons_plain (haddress : operand.codeAddress? = none) :
    labels.unnamed (operand :: rest) = labels.unnamed rest := by
  rw [unnamed, List.filterMap_cons_none haddress, unnamed]

theorem unnamed_cons_named {name : String} (haddress : operand.codeAddress? = some address)
    (hname : labels.find? address = some name) :
    labels.unnamed (operand :: rest) = labels.unnamed rest := by
  ext other
  simp only [mem_unnamed, List.mem_cons, exists_eq_or_imp, haddress, Option.some.injEq]
  constructor
  · rintro ⟨rfl | hrest, hnone⟩
    · rw [hname] at hnone
      cases hnone
    · exact ⟨hrest, hnone⟩
  · exact fun h => ⟨.inr h.1, h.2⟩

/-- An address that gets a name is counted once, whichever operands come later. -/
theorem unnamed_cons_new (haddress : operand.codeAddress? = some address)
    (hnone : labels.find? address = none) (make : Nat → String) :
    labels.unnamed (operand :: rest) =
      insert address ((labels.add address make).2.unnamed rest) := by
  ext other
  simp only [mem_unnamed, Finset.mem_insert, List.mem_cons, exists_eq_or_imp, haddress,
    Option.some.injEq, find?_add]
  by_cases hother : other = address
  · subst hother
    simp [hnone]
  · simp [hother, Ne.symm hother]

end Labels

namespace Script

/-- As many names are given out as there are addresses without one. -/
theorem count_labelOperands (operands : List Operand) (labels : Labels) :
    (labelOperands operands labels).2.count = labels.count + (labels.unnamed operands).card := by
  induction operands generalizing labels with
  | nil => rfl
  | cons operand rest ih =>
    simp only [labelOperands]
    split
    · next haddress => rw [ih, Labels.unnamed_cons_plain haddress]
    · next address haddress =>
      cases hfind : labels.find? address with
      | some name =>
        rw [ih, Labels.add_of_some hfind, Labels.unnamed_cons_named haddress hfind]
      | none =>
        have hnot : address ∉ (labels.add address fun number =>
            (Label.code number).text).2.unnamed rest := by
          rw [Labels.mem_unnamed, Labels.find?_add_self]
          exact fun hmem => Option.some_ne_none _ hmem.2
        have hcount : (labels.add address fun number => (Label.code number).text).2.count =
            labels.count + 1 := by rw [Labels.add_of_none hfind]
        rw [ih, Labels.unnamed_cons_new haddress hfind, Finset.card_insert_of_notMem hnot, hcount]
        omega

variable {script : Script}

/-- Placing a token touches no slot but those that it asks for. -/
theorem slots_place_off {token : Token} {index : Nat} (hoff : ¬ token.Covers index) :
    (script.place token).slots[index]? = script.slots[index]? := by
  by_cases hall : areFree script.slots (token.offset / 4) token.width = true
  · simp only [place, push, claim?, hall, ↓reduceIte, Option.getD_some, getElem?_fill]
    exact if_neg fun h => hoff ⟨h.1, h.2.1⟩
  · simp only [place, push, claim?, hall, Bool.false_eq_true, ↓reduceIte, Option.getD_none]

theorem slots_placeOperands_off {operands : List Operand} {index : Nat}
    (hoff : ∀ operand ∈ operands, ¬ (Token.operand operand).Covers index) :
    (operands.foldl (fun script operand => script.place (.operand operand)) script).slots[index]? =
      script.slots[index]? := by
  induction operands generalizing script with
  | nil => rfl
  | cons operand rest ih =>
    obtain ⟨hfirst, hrest⟩ := List.forall_mem_cons.mp hoff
    rw [List.foldl_cons, ih hrest, slots_place_off hfirst]

/-- Operands whose slots are all free get them, one after the other. -/
theorem owner?_placeOperands {operands : List Operand} {offset : Nat}
    (haligned : offset % 4 = 0) (hconsecutive : Operand.Consecutive offset operands)
    (hfree : ∀ operand ∈ operands, ∀ index, (Token.operand operand).Covers index →
      script.slots[index]? = some none)
    {place index : Nat} {operand : Operand} (hplace : operands[place]? = some operand)
    (hcovers : (Token.operand operand).Covers index) :
    (operands.foldl (fun script operand => script.place (.operand operand)) script).owner? index =
      some (script.tokens.size + place) := by
  induction operands generalizing script offset place with
  | nil => simp at hplace
  | cons head rest ih =>
    obtain ⟨rfl, hwidth, hrest⟩ := hconsecutive
    obtain ⟨hslots, hbehind⟩ := List.forall_mem_cons.mp hfree
    rw [List.foldl_cons]
    cases place with
    | zero =>
      rw [List.getElem?_cons_zero, Option.some.injEq] at hplace
      subst hplace
      apply (Extends.placeOperands rest _).owner
      rw [owner?_place_free hslots hwidth, if_pos hcovers, Nat.add_zero]
    | succ place =>
      rw [List.getElem?_cons_succ] at hplace
      have hnext : (head.offset + 4 * head.width) % 4 = 0 := by omega
      have hlater : ∀ operand ∈ rest, ∀ index, (Token.operand operand).Covers index →
          (script.place (.operand head)).slots[index]? = some none := by
        intro operand hmem index hcovers
        rw [slots_place_off, hbehind operand hmem index hcovers]
        -- The operands behind the first one begin where it ends.
        have hlower := ((hrest.covers_iff hnext index).mp ⟨operand, hmem, hcovers⟩).1
        unfold Token.Covers
        simp only [Token.offset, Token.width]
        omega
      rw [ih hnext hrest hlater hplace, tokens_place, Array.size_push]
      congr 1
      omega

section

variable {instruction : Instruction} {index : Nat}

theorem slots_placeInstruction_off (hoff : ¬ instruction.Takes index) :
    (script.placeInstruction instruction).slots[index]? = script.slots[index]? := by
  rw [Instruction.Takes, not_or, not_exists] at hoff
  rw [placeInstruction, slots_placeOperands_off fun operand hmem => not_and.mp (hoff.2 operand) hmem,
    slots_place_off]
  rw [Token.covers_instruction]
  exact hoff.1

theorem owner?_placeInstruction_operand (haligned : instruction.offset % 4 = 0)
    (hconsecutive : Operand.Consecutive (instruction.offset + 4) instruction.operands)
    (hfree : ∀ index, instruction.Takes index → script.slots[index]? = some none)
    {place : Nat} {operand : Operand} (hplace : instruction.operands[place]? = some operand)
    (hcovers : (Token.operand operand).Covers index) :
    (script.placeInstruction instruction).owner? index =
      some (script.tokens.size + 1 + place) := by
  have hnext : (instruction.offset + 4) % 4 = 0 := by omega
  rw [placeInstruction, owner?_placeOperands hnext hconsecutive ?_ hplace hcovers, tokens_place,
    Array.size_push]
  intro other hmem index hother
  rw [slots_place_off, hfree index (.inr ⟨other, hmem, hother⟩)]
  have hlower := ((hconsecutive.covers_iff hnext index).mp ⟨other, hmem, hother⟩).1
  rw [Token.covers_instruction]
  omega

theorem isClaimed_placeInstruction (haligned : instruction.offset % 4 = 0)
    (hconsecutive : Operand.Consecutive (instruction.offset + 4) instruction.operands)
    (hfree : ∀ index, instruction.Takes index → script.slots[index]? = some none) (index : Nat) :
    (script.placeInstruction instruction).isClaimed index = true ↔
      script.isClaimed index = true ∨ instruction.Takes index := by
  by_cases htakes : instruction.Takes index
  · refine iff_of_true ?_ (.inr htakes)
    rcases htakes with rfl | ⟨operand, hmem, hcovers⟩
    · exact isClaimed_iff.mpr ⟨_, owner?_placeInstruction_first (hfree _ (.inl rfl))⟩
    · obtain ⟨place, hplace⟩ := List.mem_iff_getElem?.mp hmem
      exact isClaimed_iff.mpr
        ⟨_, owner?_placeInstruction_operand haligned hconsecutive hfree hplace hcovers⟩
  · rw [isClaimed, owner?, slots_placeInstruction_off htakes, or_iff_left htakes]
    rfl

end

/-- The instruction has been entered: its own token and those of its operands have been added, and
they have got their slots. -/
structure Receives (script : Script) (instruction : Instruction) (entered : Script) : Prop where
  free : ∀ index, instruction.Takes index → script.isClaimed index = false
  claimed : ∀ index, entered.isClaimed index = true ↔
    script.isClaimed index = true ∨ instruction.Takes index
  tokens : ∃ named : Instruction, named.bare = instruction ∧
    entered.tokens = script.tokens ++
      (Token.instruction named :: named.operands.map Token.operand).toArray
  first : entered.owner? (instruction.offset / 4) = some script.tokens.size
  operand : ∀ {place : Nat} {operand : Operand}, instruction.operands[place]? = some operand →
    ∀ index, (Token.operand operand).Covers index →
      entered.owner? index = some (script.tokens.size + 1 + place)
  others : ∀ index, ¬ instruction.Takes index → entered.slots[index]? = script.slots[index]?
  /-- A name is given out for each address without one that an inline operand denotes. -/
  count : ∃ fresh : Finset Nat,
    (∀ address, address ∈ fresh ↔ script.labels.find? address = none ∧
      ∃ operand ∈ instruction.operands, operand.encoding.isInline = true ∧
        ∃ value, operand.resolved = some value ∧ value.toInt = address) ∧
    entered.labels.count = script.labels.count + fresh.card
  /-- Nothing else is touched, and so no set of addresses. -/
  rest : entered =
    { script with tokens := entered.tokens, slots := entered.slots, labels := entered.labels }

/-- An instruction is entered whole, or the scan that came to it ends with the script as it was. -/
structure EntersWhole (buffer : Buffer) (signatures : Signatures) (script : Script)
    (instruction : Instruction) : Prop where
  entered : ∀ {entered : Script}, script.claimInstruction instruction = .ok entered →
    script.Receives instruction entered
  refused : ∀ {refusal : Event}, script.claimInstruction instruction = .error refusal →
    (∃ index, instruction.Takes index ∧ script.isClaimed index = true) ∧
    ∀ log, scanStep buffer signatures instruction.offset ⟨script, log⟩ =
      (⟨script, log.push refusal⟩, .ok [])

variable {buffer : Buffer} {signatures : Signatures} {instruction : Instruction} {offset : Nat}

theorem count_of_claimInstruction {entered : Script}
    (hclaim : script.claimInstruction instruction = .ok entered) :
    ∃ fresh : Finset Nat,
      (∀ address, address ∈ fresh ↔ script.labels.find? address = none ∧
        ∃ operand ∈ instruction.operands, operand.encoding.isInline = true ∧
          ∃ value, operand.resolved = some value ∧ value.toInt = address) ∧
      entered.labels.count = script.labels.count + fresh.card := by
  refine ⟨script.labels.unnamed instruction.operands, fun address => ?_, ?_⟩
  · rw [Labels.mem_unnamed, and_comm]
    simp only [Operand.codeAddress?_eq_some]
  · rw [labels_claimInstruction hclaim, count_labelOperands]

theorem receives_of_claimInstruction {entered : Script}
    (hcount : script.wordCount = buffer.wordCount)
    (hdecode : decode buffer offset = .ok instruction)
    (hclaim : script.claimInstruction instruction = .ok entered) :
    script.Receives instruction entered := by
  have htakes := Instruction.takes_iff hdecode
  have htaken : ∀ index, instruction.Takes index → script.slots[index]? = some none := by
    intro index hindex
    obtain ⟨hlower, hupper⟩ := (htakes index).mp hindex
    exact free_of_claimInstruction hcount hdecode hclaim hlower hupper
  have hnames := count_of_claimInstruction hclaim
  obtain ⟨labels, named, hsame, rfl⟩ := placed_of_claimInstruction hclaim
  obtain ⟨rfl, hstart, -, hconsecutive, -, hbare⟩ := decode_ok hdecode
  obtain rfl : named.bare = instruction := hsame.trans hbare
  have haligned : named.offset % 4 = 0 := hstart
  have hrow : Operand.Consecutive (named.offset + 4) named.operands :=
    (Operand.consecutive_map_bare _ _).mp hconsecutive
  generalize hlabelled : ({ script with labels := labels } : Script) = labelled at hnames ⊢
  have hslots : labelled.slots = script.slots := by rw [← hlabelled]
  have htokens : labelled.tokens = script.tokens := by rw [← hlabelled]
  have hfree : ∀ index, named.Takes index → labelled.slots[index]? = some none := by
    intro index hindex
    rw [hslots]
    exact htaken index (Instruction.takes_bare.mpr hindex)
  obtain ⟨slots, -, hplaced⟩ := placeInstruction_eq labelled named
  constructor
  case free =>
    intro index hindex
    rw [isClaimed, owner?, htaken index hindex]
    rfl
  case claimed =>
    intro index
    rw [Instruction.takes_bare, isClaimed_placeInstruction haligned hrow hfree, isClaimed, owner?,
      hslots]
    rfl
  case tokens => exact ⟨named, rfl, by rw [hplaced, htokens]⟩
  case first =>
    rw [← htokens, Instruction.offset_bare]
    exact owner?_placeInstruction_first (hfree _ (.inl rfl))
  case operand =>
    intro place operand hplace index hcovers
    rw [Instruction.operands_bare, List.getElem?_map, Option.map_eq_some_iff] at hplace
    obtain ⟨operand, hplace, rfl⟩ := hplace
    rw [← htokens]
    exact owner?_placeInstruction_operand haligned hrow hfree hplace hcovers
  case others =>
    intro index hoff
    rw [← hslots]
    exact slots_placeInstruction_off (mt Instruction.takes_bare.mpr hoff)
  case count => exact hnames
  case rest => rw [hplaced, ← hlabelled]

/-- This holds wherever a run has come to, between two names or two tokens as well. -/
theorem enters_whole (hreached : script.Reachable buffer signatures)
    (hdecode : decode buffer offset = .ok instruction) :
    script.EntersWhole buffer signatures instruction := by
  have hcount := hreached.wordCount_eq
  have htakes := Instruction.takes_iff hdecode
  obtain ⟨rfl, -, hinside, -⟩ := decode_ok hdecode
  constructor
  case entered =>
    intro entered hclaim
    exact receives_of_claimInstruction hcount hdecode hclaim
  case refused =>
    intro refusal hclaim
    constructor
    · have hslot : instruction.offset / 4 < script.wordCount := by
        rw [hcount]
        unfold Buffer.length at hinside
        omega
      rcases claimInstruction_error hslot hclaim with ⟨existing, htoken, -⟩ | ⟨hclaimed, -⟩ |
        ⟨index, hlower, hupper, hclaimed, -⟩
      · obtain ⟨id, howner, -⟩ := Option.bind_eq_some_iff.mp htoken
        exact ⟨_, .inl rfl, isClaimed_iff.mpr ⟨id, howner⟩⟩
      · exact ⟨_, .inl rfl, hclaimed⟩
      · exact ⟨index, (htakes index).mpr ⟨Nat.le_of_lt hlower, hupper⟩, hclaimed⟩
    · intro log
      simp only [scanStep, if_neg (Nat.not_le.mpr hinside), hdecode, hclaim]
      rfl

/-- A conditional jump with three inline operands, of which one denotes the entrypoint and two the
same other address. The operand between these takes two words. -/
def repeatedTarget : List UInt8 :=
  [4, 0, 0, 0, 0x41, 4, 0, 0, 0, 0, 0, 9, 6, 0, 0, 9, 0, 0, 0, 1, 7, 0, 0, 0, 6, 0, 0, 9]

/-- The instruction that stands behind the entrypoint of `repeatedTarget`. -/
def repeatedTargetJump : Instruction :=
  ⟨4, .jmpCmp, 0,
    [⟨8, .inline1, [0x09000000], some 4, none⟩, ⟨12, .inline1, [0x09000006], some 28, none⟩,
      ⟨16, .nextImmediate, [0x01000000, 7], some 7, none⟩,
      ⟨24, .inline1, [0x09000006], some 28, none⟩]⟩

theorem enters_whole_on_repeatedTarget :
    ∃ script entered : Script, script.Reachable (.ofBytes repeatedTarget) .empty ∧
      decode (.ofBytes repeatedTarget) 4 = .ok repeatedTargetJump ∧
      script.claimInstruction repeatedTargetJump = .ok entered ∧
      (script.slots, script.labels.count) =
        (#[some 0, none, none, none, none, none, none], 1) ∧
      (entered.slots, entered.labels.count) =
        (#[some 0, some 1, some 2, some 3, some 4, some 4, some 5], 2) ∧
      script.EntersWhole (.ofBytes repeatedTarget) .empty repeatedTargetJump := by
  have hdecode : decode (.ofBytes repeatedTarget) 4 = .ok repeatedTargetJump := by cbv
  have hruns : (findEntrypoints (.ofBytes repeatedTarget) entrypointLimit 0
      (.blank (Buffer.ofBytes repeatedTarget).wordCount)).toOption.map (fun script =>
        ((script.slots, script.labels.count),
          (script.claimInstruction repeatedTargetJump).toOption.map fun entered =>
            (entered.slots, entered.labels.count))) =
      some ((#[some 0, none, none, none, none, none, none], 1),
        some (#[some 0, some 1, some 2, some 3, some 4, some 4, some 5], 2)) := by
    cbv
  obtain ⟨script, hfound⟩ := exists_findEntrypoints (.ofBytes repeatedTarget) entrypointLimit 0
    (.blank (Buffer.ofBytes repeatedTarget).wordCount)
  have hreachable : script.Reachable (.ofBytes repeatedTarget) .empty :=
    .entering (Nat.le_refl _) hfound
  rw [hfound] at hruns
  obtain ⟨hstart, hend⟩ := Prod.mk.inj (Option.some.inj hruns)
  cases hclaim : script.claimInstruction repeatedTargetJump with
  | error refusal =>
    rw [hclaim] at hend
    cases hend
  | ok entered =>
    rw [hclaim] at hend
    exact ⟨script, entered, hreachable, hdecode, hclaim, hstart, Option.some.inj hend,
      enters_whole hreachable hdecode⟩

end Script

end ScriptDisassembler
