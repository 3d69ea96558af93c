import ScriptDisassembler.Proofs.Layout

/-!
What is known of the image of a script is never taken back: a token keeps its number and a
slot its owner. The tokens that an instruction and a table add are named here, once for all
that is said about the tokens of a script; there are no entrypoints and no data among them.
-/

namespace ScriptDisassembler

namespace Token

def IsData : Token → Prop
  | data _ _ => True
  | instruction _ | operand _ | entrypoint _ _ _ | table _ => False

def IsEntrypoint : Token → Prop
  | entrypoint _ _ _ => True
  | instruction _ | operand _ | data _ _ | table _ => False

end Token

namespace Script

/-- The later of two scripts has the tokens and the owners of the earlier one. -/
structure Extends (before after : Script) : Prop where
  token : ∀ {id : Nat} {token : Token}, before.tokens[id]? = some token →
    after.tokens[id]? = some token
  owner : ∀ {index id : Nat}, before.owner? index = some id → after.owner? index = some id

variable {script : Script}

namespace Extends

theorem refl (script : Script) : script.Extends script :=
  ⟨fun htoken => htoken, fun howner => howner⟩

theorem trans {before between after : Script} (hfirst : before.Extends between)
    (hsecond : between.Extends after) : before.Extends after :=
  ⟨fun htoken => hsecond.token (hfirst.token htoken),
    fun howner => hsecond.owner (hfirst.owner howner)⟩

theorem congr {before after : Script} (htokens : after.tokens = before.tokens)
    (hslots : after.slots = before.slots) : before.Extends after := by
  constructor
  · intro id token htoken
    rw [htokens, htoken]
  · intro index id howner
    rw [owner?_congr hslots, howner]

theorem relabelled (script : Script) (labels : Labels) :
    script.Extends { script with labels } :=
  congr rfl rfl

theorem place (script : Script) (token : Token) : script.Extends (script.place token) := by
  constructor
  · intro id placed hplaced
    exact getElem?_place hplaced
  · intro index id howner
    have hslot := slots_of_owner? howner
    by_cases hall : areFree script.slots (token.offset / 4) token.width = true
    · have hoff : ¬ (token.offset / 4 ≤ index ∧ index < token.offset / 4 + token.width ∧
          index < script.slots.size) := by
        intro hcovered
        obtain ⟨hlower, hupper, hinside⟩ := hcovered
        have hfree := (areFree_iff.mp hall).2 index hlower hupper
        rw [hslot] at hfree
        cases hfree
      simp only [Script.place, push, claim?, hall, ↓reduceIte, Option.getD_some, owner?,
        getElem?_fill, if_neg hoff, hslot, Option.join_some]
    · simp only [Script.place, push, claim?, hall, Bool.false_eq_true, ↓reduceIte,
        Option.getD_none]
      exact howner

theorem placeOperands (operands : List Operand) (script : Script) :
    script.Extends
      (operands.foldl (fun script operand => script.place (.operand operand)) script) := by
  induction operands generalizing script with
  | nil => exact refl script
  | cons operand rest ih => exact (place script (.operand operand)).trans (ih _)

theorem placeInstruction (script : Script) (instruction : Instruction) :
    script.Extends (script.placeInstruction instruction) :=
  (place script (.instruction instruction)).trans (placeOperands _ _)

theorem claimInstruction {instruction : Instruction} {entered : Script}
    (h : script.claimInstruction instruction = .ok entered) : script.Extends entered := by
  obtain ⟨-, -, rfl⟩ := claimInstruction_ok h
  exact (relabelled script _).trans (placeInstruction _ _)

theorem placeTable (script : Script) (table : Nat) (found : List Nat) :
    script.Extends (script.placeTable table found) := by
  unfold Script.placeTable
  exact (relabelled script _).trans (place _ _)

theorem sameImage {before after : Script} (h : before.SameImage after) : before.Extends after :=
  congr h.tokens h.slots

theorem tokenAt? {before after : Script} {index : Nat} {token : Token}
    (h : before.Extends after) (htoken : before.tokenAt? index = some token) :
    after.tokenAt? index = some token := by
  obtain ⟨id, howner, hid⟩ := Option.bind_eq_some_iff.mp htoken
  exact tokenAt?_eq (h.owner howner) (h.token hid)

theorem mem_tokens {before after : Script} {token : Token} (h : before.Extends after)
    (hmem : token ∈ before.tokens) : token ∈ after.tokens := by
  obtain ⟨id, hid⟩ := Array.getElem?_of_mem hmem
  exact Array.mem_of_getElem? (h.token hid)

end Extends

/-- The first token that an instruction adds owns the slot of the first word. -/
theorem owner?_placeInstruction_first {instruction : Instruction}
    (hfree : script.slots[instruction.offset / 4]? = some none) :
    (script.placeInstruction instruction).owner? (instruction.offset / 4) =
      some script.tokens.size := by
  have hslots : ∀ index, (Token.instruction instruction).Covers index →
      script.slots[index]? = some none := by
    intro index hcovers
    rw [Token.covers_instruction.mp hcovers]
    exact hfree
  apply (Extends.placeOperands instruction.operands _).owner
  rw [owner?_place_free hslots Nat.one_pos, if_pos (Token.covers_instruction.mpr rfl)]

/-- An instruction that is entered adds itself and its operands, all of them named, and
touches nothing but tokens, slots and names. -/
theorem claimInstruction_eq {instruction : Instruction} {entered : Script}
    (h : script.claimInstruction instruction = .ok entered) :
    ∃ (named : Instruction) (slots : Array (Option Nat)) (labels : Labels),
      named.bare = instruction.bare ∧
      entered =
        { script with
          tokens := script.tokens ++ (Token.instruction named ::
            named.operands.map Token.operand).toArray
          slots := slots
          labels := labels } := by
  obtain ⟨labels, named, hsame, rfl⟩ := placed_of_claimInstruction h
  obtain ⟨slots, -, heq⟩ := placeInstruction_eq { script with labels := labels } named
  exact ⟨named, slots, labels, hsame, heq⟩

theorem mem_tokens_claimInstruction {instruction : Instruction} {entered : Script}
    (h : script.claimInstruction instruction = .ok entered) :
    ∃ named : Instruction, named.bare = instruction.bare ∧
      ∀ token, token ∈ entered.tokens ↔ token ∈ script.tokens ∨ token = .instruction named ∨
        ∃ operand ∈ named.operands, token = .operand operand := by
  obtain ⟨named, slots, labels, hbare, rfl⟩ := claimInstruction_eq h
  refine ⟨named, hbare, ?_⟩
  intro token
  have hadded : token ∈ (Token.instruction named :: named.operands.map Token.operand).toArray ↔
      token = .instruction named ∨ ∃ operand ∈ named.operands, token = .operand operand := by
    rw [List.mem_toArray, List.mem_cons, List.mem_map]
    simp only [eq_comm]
  rw [Array.mem_append, hadded]

theorem placeTable_eq (script : Script) (table : Nat) (found : List Nat) :
    ∃ (names : List String) (slots : Array (Option Nat)) (labels : Labels),
      script.placeTable table found =
        { script with
          tokens := script.tokens.push (.table ⟨table, found, names⟩)
          slots := slots
          labels := labels } := by
  obtain ⟨slots, -, heq⟩ := place_eq
    { script with labels := (labelDestinations table 0 found script.labels).2 }
    (.table ⟨table, found, (labelDestinations table 0 found script.labels).1⟩)
  exact ⟨_, slots, _, heq⟩

theorem mem_tokens_placeTable (script : Script) (table : Nat) (found : List Nat) :
    ∃ names : List String, ∀ token, token ∈ (script.placeTable table found).tokens ↔
      token ∈ script.tokens ∨ token = .table ⟨table, found, names⟩ := by
  obtain ⟨names, slots, labels, heq⟩ := script.placeTable_eq table found
  refine ⟨names, ?_⟩
  intro token
  rw [heq, Array.mem_push]

theorem placeEntrypoint_eq (script : Script) (index target : Nat) :
    ∃ (name : String) (slots : Array (Option Nat)) (labels : Labels),
      script.placeEntrypoint index target =
        { script with
          tokens := script.tokens.push (.entrypoint (4 * index) target name)
          slots := slots
          labels := labels
          entrypoints := script.entrypoints ++ [target] } := by
  obtain ⟨slots, -, heq⟩ := place_eq
    { script with
      labels := (script.labels.add target fun _ => (Label.entrypoint index).text).2
      entrypoints := script.entrypoints ++ [target] }
    (.entrypoint (4 * index) target
      (script.labels.add target fun _ => (Label.entrypoint index).text).1)
  exact ⟨_, slots, _, heq⟩

end Script

variable {buffer : Buffer} {signatures : Signatures}

theorem Task.Places.extends {task : Task} {script after : Script}
    (h : task.Places buffer script after) : script.Extends after := by
  cases h with
  | nothing hsame => exact .sameImage hsame
  | instruction hdecode hclaim hsame =>
    exact (Script.Extends.claimInstruction hclaim).trans (.sameImage hsame)
  | table => exact .placeTable script _ _

theorem Task.Places.entrypoints {task : Task} {script after : Script}
    (h : task.Places buffer script after) : after.entrypoints = script.entrypoints := by
  cases h with
  | nothing hsame => exact hsame.entrypoints
  | instruction hdecode hclaim hsame =>
    obtain ⟨named, slots, labels, -, rfl⟩ := Script.claimInstruction_eq hclaim
    exact hsame.entrypoints
  | @table _ table found =>
    obtain ⟨names, slots, labels, heq⟩ := script.placeTable_eq table found
    rw [heq]

theorem Task.Places.mem_tokens {task : Task} {script after : Script} {token : Token}
    (h : task.Places buffer script after) (hmem : token ∈ after.tokens) :
    token ∈ script.tokens ∨ ¬ token.IsData ∧ ¬ token.IsEntrypoint := by
  cases h with
  | nothing hsame =>
    rw [hsame.tokens] at hmem
    exact .inl hmem
  | instruction hdecode hclaim hsame =>
    obtain ⟨named, hbare, htokens⟩ := Script.mem_tokens_claimInstruction hclaim
    rw [hsame.tokens, htokens] at hmem
    rcases hmem with hold | rfl | ⟨operand, hoperand, rfl⟩
    · exact .inl hold
    · exact .inr ⟨id, id⟩
    · exact .inr ⟨id, id⟩
  | @table kind table found =>
    obtain ⟨names, htokens⟩ := script.mem_tokens_placeTable table found
    rw [htokens] at hmem
    rcases hmem with hold | rfl
    · exact .inl hold
    · exact .inr ⟨id, id⟩

/-- Nothing has been explored: the tokens are entrypoints and no address has a role. -/
structure Script.Unexplored (script : Script) : Prop where
  tokens : ∀ token ∈ script.tokens, token.IsEntrypoint
  rest : script =
    { Script.blank script.wordCount with
      tokens := script.tokens
      slots := script.slots
      labels := script.labels
      entrypoints := script.entrypoints }

theorem Script.Unexplored.not_mem_instruction {script : Script} (h : script.Unexplored)
    (instruction : Instruction) : .instruction instruction ∉ script.tokens :=
  fun hmem => h.tokens _ hmem

theorem Script.Unexplored.blank (wordCount : Nat) : (Script.blank wordCount).Unexplored := by
  constructor
  · intro token hmem
    simp [Script.blank] at hmem
  · simp [Script.blank, Script.wordCount]

theorem Script.Unexplored.placeEntrypoint {script : Script} (h : script.Unexplored)
    (index target : Nat) : (script.placeEntrypoint index target).Unexplored := by
  obtain ⟨name, slots, labels, heq⟩ := script.placeEntrypoint_eq index target
  rw [heq]
  constructor
  · intro token hmem
    rcases Array.mem_push.mp hmem with hold | rfl
    · exact h.tokens token hold
    · trivial
  · rw [h.rest]
    rfl

theorem findEntrypoints_unexplored {limit : Nat} {found : Script}
    (hfound : findEntrypoints buffer limit 0 (.blank buffer.wordCount) = .ok found) :
    found.Unexplored := by
  have hinvariant := findEntrypoints_induction (fun _ script => script.Unexplored)
    ?_ (.blank buffer.wordCount) hfound
  · obtain ⟨stop, hunexplored⟩ := hinvariant
    exact hunexplored
  · intro index target word script hword htarget h
    exact h.placeEntrypoint index target

/-- All that is known is kept, and nothing but data is new. -/
structure Script.Filled (before after : Script) : Prop where
  extends_before : before.Extends after
  tokens : ∀ token ∈ after.tokens, token ∈ before.tokens ∨ token.IsData
  rest : after = { before with tokens := after.tokens, slots := after.slots }

theorem Script.Filled.placeData {before after : Script} (h : before.Filled after) (offset : Nat)
    (value : Word) : before.Filled (after.place (.data offset value)) := by
  obtain ⟨slots, -, heq⟩ := after.place_eq (.data offset value)
  constructor
  · exact h.extends_before.trans (.place after _)
  · intro token hmem
    rw [tokens_place, Array.mem_push] at hmem
    rcases hmem with hold | rfl
    · exact h.tokens token hold
    · exact .inr trivial
  · rw [heq, h.rest]

theorem fillGaps_filled {count : Nat} {script filled : Script}
    (hfilled : fillGaps buffer count 0 script = .ok filled) : script.Filled filled := by
  refine fillGaps_induction (fun _ filled => script.Filled filled) ?_ ?_ ?_ hfilled
  · intro index filled hclaimed h
    exact h
  · intro index word filled hunclaimed hword h
    exact h.placeData (4 * index) word
  · exact ⟨.refl script, fun _ => .inl, rfl⟩

end ScriptDisassembler
