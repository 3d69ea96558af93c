import ScriptDisassembler.Proofs.Phases
import ScriptDisassembler.Proofs.Placement
import ScriptDisassembler.Proofs.Successors
import ScriptDisassembler.Proofs.Tiling

/-!
How the tokens of a script lie in its buffer at every moment of a disassembly. The slots
and the tokens agree, the operands of an instruction are the tokens after its own, and
without the names given to them the instruction is the one that is decoded at its offset.
Each way in which tokens are placed keeps this, from the entrypoint words over the whole
exploration to the gaps.
-/

namespace ScriptDisassembler

namespace Script

structure Layout (buffer : Buffer) (script : Script) : Prop where
  wordCount_eq : script.wordCount = buffer.wordCount
  tiled : script.Tiled
  grouped : ∀ {id : Nat} {instruction : Instruction},
    script.tokens[id]? = some (.instruction instruction) →
      ∀ {place : Nat} {operand : Operand}, instruction.operands[place]? = some operand →
        script.tokens[id + 1 + place]? = some (.operand operand)
  decoded : ∀ {id : Nat} {instruction : Instruction},
    script.tokens[id]? = some (.instruction instruction) →
      decode buffer instruction.offset = .ok instruction.bare

namespace Layout

variable {buffer : Buffer} {script : Script}

theorem blank (buffer : Buffer) : (Script.blank buffer.wordCount).Layout buffer := by
  have hslots : ∀ index, (Script.blank buffer.wordCount).owner? index = none := by
    intro index
    simp only [owner?, Script.blank, Array.getElem?_replicate]
    split <;> rfl
  constructor
  · simp [wordCount, Script.blank]
  · constructor
    · intro id token htoken
      simp [Script.blank] at htoken
    · intro id token htoken
      simp [Script.blank] at htoken
    · intro index id howner
      rw [hslots] at howner
      cases howner
    · intro id token htoken
      simp [Script.blank] at htoken
  · intro id instruction htoken
    simp [Script.blank] at htoken
  · intro id instruction htoken
    simp [Script.blank] at htoken

theorem congr {other : Script} (h : script.Layout buffer)
    (htokens : other.tokens = script.tokens) (hslots : other.slots = script.slots) :
    other.Layout buffer := by
  constructor
  · rw [← h.wordCount_eq, wordCount, wordCount, hslots]
  · exact h.tiled.congr htokens hslots
  · intro id instruction htoken place operand hplace
    rw [htokens] at htoken ⊢
    exact h.grouped htoken hplace
  · intro id instruction htoken
    rw [htokens] at htoken
    exact h.decoded htoken

/-- Placing a token of any other kind leaves the instructions as they were. -/
theorem place {token : Token} (h : script.Layout buffer)
    (hkind : ∀ instruction, token ≠ .instruction instruction)
    (htiled : (script.place token).Tiled) : (script.place token).Layout buffer := by
  have hcases : ∀ {id : Nat} {instruction : Instruction},
      (script.place token).tokens[id]? = some (.instruction instruction) →
        script.tokens[id]? = some (.instruction instruction) := by
    intro id instruction htoken
    rcases eq_or_of_place htoken with ⟨-, heq⟩ | hold
    · exact absurd heq.symm (hkind instruction)
    · exact hold
  constructor
  · rw [wordCount_place, h.wordCount_eq]
  · exact htiled
  · intro id instruction htoken place operand hplace
    exact getElem?_place (h.grouped (hcases htoken) hplace)
  · intro id instruction htoken
    exact h.decoded (hcases htoken)

/-- A token of one word that is free, which is no instruction. -/
theorem place_word {token : Token} {index : Nat} (h : script.Layout buffer)
    (hkind : ∀ instruction, token ≠ .instruction instruction)
    (hfree : script.slots[index]? = some none) (hoffset : token.offset = 4 * index)
    (hwidth : token.width = 1) : (script.place token).Layout buffer := by
  refine h.place hkind (h.tiled.place_free ?_ ?_ ?_)
  · intro other hcovers
    rw [(Token.covers_word hoffset hwidth).mp hcovers]
    exact hfree
  · omega
  · omega

/-- A decoded instruction begins at a slot. -/
theorem first_lt {offset : Nat} {instruction : Instruction} (h : script.Layout buffer)
    (hdecode : decode buffer offset = .ok instruction) :
    instruction.offset / 4 < script.wordCount := by
  obtain ⟨hoffset, -, hinside, -⟩ := decode_ok hdecode
  rw [h.wordCount_eq]
  simp only [Buffer.length] at hinside
  omega

theorem placeTable {table : Nat} {found : List Nat} (h : script.Layout buffer)
    (haligned : table % 4 = 0) : (script.placeTable table found).Layout buffer := by
  unfold Script.placeTable
  have hlabelled : ({ script with
      labels := (labelDestinations table 0 found script.labels).2 } : Script).Layout buffer :=
    h.congr rfl rfl
  refine hlabelled.place (fun instruction => ?_) (hlabelled.tiled.place_table haligned)
  exact Token.noConfusion

/-- The tokens that an instruction adds are those of its operands after its own. -/
theorem placeInstruction {instruction : Instruction} (h : script.Layout buffer)
    (hdecode : decode buffer instruction.offset = .ok instruction.bare)
    (htiled : (script.placeInstruction instruction).Tiled) :
    (script.placeInstruction instruction).Layout buffer := by
  obtain ⟨slots, hsize, heq⟩ := script.placeInstruction_eq instruction
  rw [heq] at htiled ⊢
  have hcases : ∀ {id : Nat} {other : Instruction},
      (script.tokens ++ (Token.instruction instruction ::
          instruction.operands.map Token.operand).toArray)[id]? = some (.instruction other) →
        script.tokens[id]? = some (.instruction other) ∨
          id = script.tokens.size ∧ other = instruction := by
    intro id other htoken
    rw [Array.getElem?_append] at htoken
    split at htoken
    · exact .inl htoken
    · next hge =>
      rw [List.getElem?_toArray] at htoken
      cases hid : id - script.tokens.size with
      | zero =>
        rw [hid, List.getElem?_cons_zero] at htoken
        cases htoken
        exact .inr ⟨by omega, rfl⟩
      | succ place => simp [hid] at htoken
  constructor
  · exact hsize.trans h.wordCount_eq
  · exact htiled
  · intro id other htoken place operand hplace
    rw [Array.getElem?_append]
    rcases hcases htoken with hold | ⟨rfl, rfl⟩
    · have hoperand := h.grouped hold hplace
      have hlt := (Array.getElem?_eq_some_iff.mp hoperand).1
      rw [if_pos hlt, hoperand]
    · have hplace' : script.tokens.size + 1 + place - script.tokens.size = place + 1 := by omega
      rw [if_neg (by omega), hplace', List.getElem?_toArray, List.getElem?_cons_succ,
        List.getElem?_map, hplace, Option.map_some]
  · intro id other htoken
    rcases hcases htoken with hold | ⟨-, rfl⟩
    · exact h.decoded hold
    · exact hdecode

theorem claimInstruction {offset : Nat} {instruction : Instruction} {entered : Script}
    (h : script.Layout buffer) (hdecode : decode buffer offset = .ok instruction)
    (hclaim : script.claimInstruction instruction = .ok entered) : entered.Layout buffer := by
  have hfree : ∀ index, instruction.offset / 4 ≤ index →
      index < instruction.offset / 4 + instruction.width → script.slots[index]? = some none :=
    fun _ => free_of_claimInstruction h.wordCount_eq hdecode hclaim
  obtain ⟨labels, named, hsame, rfl⟩ := placed_of_claimInstruction hclaim
  obtain ⟨rfl, haligned, -, hconsecutive, -, hbare⟩ := decode_ok hdecode
  obtain rfl : named.bare = instruction := hsame.trans hbare
  have hlabelled : ({ script with labels := labels } : Script).Layout buffer := h.congr rfl rfl
  refine hlabelled.placeInstruction hdecode (hlabelled.tiled.place_instruction haligned
    ((Operand.consecutive_map_bare _ _).mp hconsecutive) ?_)
  intro index hlower hupper
  refine hfree index hlower ?_
  rw [Instruction.width, Instruction.operandWidth_bare]
  exact hupper

theorem placeEntrypoint {index target : Nat} (h : script.Layout buffer)
    (hfree : script.slots[index]? = some none) :
    (script.placeEntrypoint index target).Layout buffer := by
  unfold Script.placeEntrypoint
  have hnamed : ({ script with
      labels := (script.labels.add target fun _ => (Label.entrypoint index).text).2
      entrypoints := script.entrypoints ++ [target] } : Script).Layout buffer :=
    h.congr rfl rfl
  exact hnamed.place_word (fun _ => Token.noConfusion) hfree rfl rfl

theorem placeData {index : Nat} {value : Word} (h : script.Layout buffer)
    (hfree : script.slots[index]? = some none) :
    (script.place (.data (4 * index) value)).Layout buffer :=
  h.place_word (fun _ => Token.noConfusion) hfree rfl rfl

end Layout

end Script

variable {buffer : Buffer} {signatures : Signatures}

/-- A table that is read begins at a word. -/
def Task.TableAligned : Task → Prop
  | .entries _ table _ => table % 4 = 0
  | .probe _ | .scan _ | .arguments _ _ _ => True

theorem Task.Performs.tableAligned {task : Task} {survey after : Survey} {tasks : List Task}
    (h : Task.Performs buffer signatures survey task after tasks)
    (haligned : task.TableAligned) : ∀ more ∈ tasks, more.TableAligned := by
  intro more hmore
  cases h.leaves more hmore with
  | scan | arguments | argument | destination => trivial
  | entries => exact haligned
  | followed hdecode hleaves =>
    cases hleaves with
    | onward | beside | target | arguments => trivial
    | table htable => exact (Buffer.wordOffset?_eq_some.mp htable).2.1

namespace Script.Layout

theorem sameImage {before after : Script} (h : before.Layout buffer)
    (hsame : before.SameImage after) : after.Layout buffer :=
  h.congr hsame.tokens hsame.slots

theorem places {script after : Script} {task : Task} (h : script.Layout buffer)
    (haligned : task.TableAligned) (hplaces : task.Places buffer script after) :
    after.Layout buffer := by
  cases hplaces with
  | nothing hsame => exact h.sameImage hsame
  | instruction hdecode hclaim hsame => exact (h.claimInstruction hdecode hclaim).sameImage hsame
  | table => exact h.placeTable haligned

end Script.Layout

/-- The image is laid out, and the tables that are still read begin at words. -/
structure Progress (buffer : Buffer) (tasks : List Task) (survey : Survey) : Prop where
  layout : survey.script.Layout buffer
  aligned : ∀ task ∈ tasks, task.TableAligned

namespace Progress

theorem step {task : Task} {tasks rest : List Task} {survey after : Survey}
    (hperform : Task.Performs buffer signatures survey task after tasks)
    (h : Progress buffer (task :: rest) survey) : Progress buffer (tasks ++ rest) after := by
  have htask := h.aligned task List.mem_cons_self
  refine ⟨h.layout.places htask hperform.places, ?_⟩
  intro other hother
  rcases List.mem_append.mp hother with hmore | hrest
  · exact hperform.tableAligned htask other hmore
  · exact h.aligned other (List.mem_cons_of_mem task hrest)

theorem probes {script : Script} {starts : List Nat} {log : Array Event}
    (h : script.Layout buffer) : Progress buffer (starts.map .probe) ⟨script, log⟩ := by
  refine ⟨h, ?_⟩
  intro task htask
  obtain ⟨start, hstart, rfl⟩ := List.mem_map.mp htask
  trivial

theorem run {tasks : List Task} {survey explored : Survey} (h : Progress buffer tasks survey)
    (hrun : run buffer signatures tasks survey = (explored, .ok ())) :
    Progress buffer [] explored :=
  run_induction (Progress buffer) step h hrun

end Progress

namespace Script.Layout

/-- The words of the entrypoints lie before all the free ones, so the next is free too. -/
theorem found {limit : Nat} {found : Script}
    (hfound : findEntrypoints buffer limit 0 (.blank buffer.wordCount) = .ok found) :
    found.Layout buffer := by
  have hinvariant := findEntrypoints_induction (fun index script =>
    script.Layout buffer ∧
      ∀ other, index ≤ other → other < buffer.wordCount → script.slots[other]? = some none)
    ?_ ⟨blank buffer, ?_⟩ hfound
  · obtain ⟨stop, hlayout, hfree⟩ := hinvariant
    exact hlayout
  · intro index target word script hword htarget hinvariant
    obtain ⟨hlayout, hfree⟩ := hinvariant
    have hlt := (wordAt_ok hword).2
    simp only [Buffer.length] at hlt
    have hslot := hfree index (Nat.le_refl index) (by omega)
    refine ⟨hlayout.placeEntrypoint hslot, ?_⟩
    intro other hlower hupper
    rw [slots_placeEntrypoint hslot, if_neg (by omega)]
    exact hfree other (by omega) hupper
  · intro other hlower hupper
    simp [Script.blank, hupper]

/-- Where all slots have been passed over or filled, none is left unclaimed. -/
theorem filled {script filled : Script} (h : script.Layout buffer)
    (hfilled : fillGaps buffer buffer.wordCount 0 script = .ok filled) :
    filled.Layout buffer ∧ ∀ index < filled.wordCount, filled.isClaimed index = true := by
  have hinvariant := fillGaps_induction (fun index script =>
    script.Layout buffer ∧ ∀ other < index, script.isClaimed other = true) ?_ ?_
    ⟨h, fun other hlt => absurd hlt (Nat.not_lt_zero other)⟩ hfilled
  · obtain ⟨hlayout, hclaimed⟩ := hinvariant
    rw [hlayout.wordCount_eq]
    simp only [Nat.zero_add] at hclaimed
    exact ⟨hlayout, hclaimed⟩
  · intro index script hclaimed hinvariant
    obtain ⟨hlayout, hbefore⟩ := hinvariant
    refine ⟨hlayout, ?_⟩
    intro other hlt
    rcases Nat.lt_succ_iff_lt_or_eq.mp hlt with hlt | rfl
    · exact hbefore other hlt
    · exact hclaimed
  · intro index word script hunclaimed hword hinvariant
    obtain ⟨hlayout, hbefore⟩ := hinvariant
    have hlt := (wordAt_ok hword).2
    simp only [Buffer.length] at hlt
    have hslot : script.slots[index]? = some none := by
      apply free_of_isClaimed _ hunclaimed
      rw [hlayout.wordCount_eq]
      omega
    refine ⟨hlayout.placeData hslot, ?_⟩
    intro other hother
    rw [isClaimed, owner?_place_word hslot rfl rfl]
    split
    · rfl
    · exact hbefore other (by omega)

/-- What a disassembly returns is laid out in full. -/
theorem disassembled {bytes : List UInt8} {script : Script}
    (h : disassemble bytes signatures = .ok script) :
    script.Layout (.ofBytes bytes) ∧ ∀ index < script.wordCount, script.isClaimed index = true := by
  obtain ⟨found, explored, hfound, hrun, hfilled, -⟩ := disassemble_ok h
  have hlayout := Layout.found hfound
  rw [hlayout.wordCount_eq] at hfilled
  exact ((Progress.probes hlayout).run hrun).layout.filled hfilled

end Script.Layout

end ScriptDisassembler
