import Mathlib
import ScriptDisassembler.Proofs.Encoded
import ScriptDisassembler.Proofs.Provenance
import ScriptDisassembler.Proofs.Retention

/-!
Nothing becomes code without a reason. From an entrypoint every instruction of a script is
reached by way of others: each is followed by the instructions to which control can go from it,
which its opcode, its operands and the tables of the script say. The proof takes the script as
it is in the end, since a table is placed only after all of its destinations are explored.
-/

namespace ScriptDisassembler

namespace Instruction

/-- Control does not go on to the next instruction. -/
def Halts (instruction : Instruction) : Prop :=
  instruction.opcode.flow = .terminal ∨
    (instruction.opcode = .jmp ∨ instruction.opcode = .jmpTable) ∧
      ∃ value, instruction.branchValue? = some value

theorem halts_iff {instruction : Instruction} :
    instruction.Halts ↔ instruction.opcode.flow = .terminal ∨
      (instruction.opcode.flow = .jump ∨ instruction.opcode.flow = .jumpTable) ∧
        ∃ value, instruction.branchValue? = some value := by
  rw [Halts, Opcode.flow_eq_jump, Opcode.flow_eq_jumpTable]

/-- The instructions that have the address to which they branch in an operand. -/
def Branches (instruction : Instruction) : Prop :=
  instruction.opcode = .jmp ∨ instruction.opcode = .jmpCmp ∨ instruction.opcode = .jmpCmp0 ∨
    instruction.opcode = .gosub ∨ instruction.opcode = .fork

/-- The instructions that have the address of a table in an operand. -/
def Selects (instruction : Instruction) : Prop :=
  instruction.opcode = .jmpTable ∨ instruction.opcode = .gosubTable

theorem selects_of_flow {instruction : Instruction} {kind : TableKind}
    (hflow : instruction.opcode.flow = kind.flow) : instruction.Selects := by
  cases kind with
  | jump => exact .inl (Opcode.flow_eq_jumpTable.mp hflow)
  | subroutine => exact .inr (Opcode.flow_eq_gosubTable.mp hflow)

end Instruction

/-- The addresses to which control can go from an instruction of a script. -/
inductive Script.Precedes (buffer : Buffer) (signatures : Signatures) (script : Script)
    (instruction : Instruction) : Nat → Prop
  | onward (hruns : ¬ instruction.Halts) : Precedes buffer signatures script instruction instruction.next
  | target {address : Nat} (hbranches : instruction.Branches)
      (hdenotes : instruction.Denotes buffer address) :
      Precedes buffer signatures script instruction address
  | argument {method : Method} {role : BranchRole} {address : Nat}
      (hopcode : instruction.opcode = .call)
      (hmethod : signatures.method? instruction.immediate.toNat = some method)
      (hrole : role ≠ .none)
      (hpasses : Passes buffer role (instruction.operands.zip method.parameters) address) :
      Precedes buffer signatures script instruction address
  | destination {table : Table} {address : Nat} (hselects : instruction.Selects)
      (hdenotes : instruction.Denotes buffer table.offset)
      (htable : .table table ∈ script.tokens) (hmem : address ∈ table.destinations) :
      Precedes buffer signatures script instruction address

/-- Control can go from one address, at which an instruction was entered, to another. -/
def Script.Succession (buffer : Buffer) (signatures : Signatures) (script : Script)
    (address next : Nat) : Prop :=
  ∃ instruction, .instruction instruction ∈ script.tokens ∧ instruction.offset = address ∧
    script.Precedes buffer signatures instruction next

/-- Control can come to an address from an entrypoint. -/
def Script.Reaches (buffer : Buffer) (signatures : Signatures) (script : Script)
    (address : Nat) : Prop :=
  ∃ start ∈ script.entrypoints,
    Relation.ReflTransGen (script.Succession buffer signatures) start address

variable {buffer : Buffer} {signatures : Signatures} {script : Script}

theorem Script.Precedes.of_bare {instruction : Instruction} {address : Nat}
    (h : script.Precedes buffer signatures instruction.bare address) :
    script.Precedes buffer signatures instruction address := by
  cases h with
  | onward hruns =>
    rw [Instruction.next_bare]
    refine .onward ?_
    unfold Instruction.Halts at hruns ⊢
    rwa [Instruction.opcode_bare, Instruction.branchValue?_bare] at hruns
  | target hbranches hdenotes => exact .target hbranches (Instruction.denotes_bare.mp hdenotes)
  | argument hopcode hmethod hrole hpasses =>
    exact .argument hopcode hmethod hrole (Instruction.passes_bare.mp hpasses)
  | destination hselects hdenotes htable hmem =>
    exact .destination hselects (Instruction.denotes_bare.mp hdenotes) htable hmem

theorem Script.Reaches.next {instruction : Instruction} {address : Nat}
    (h : script.Reaches buffer signatures instruction.offset)
    (hmem : .instruction instruction ∈ script.tokens)
    (hnext : script.Precedes buffer signatures instruction address) :
    script.Reaches buffer signatures address := by
  obtain ⟨start, hstart, hchain⟩ := h
  exact ⟨start, hstart, hchain.tail ⟨instruction, hmem, rfl, hnext⟩⟩

/-- What a task leads to is reached in a script. -/
def Task.Led (buffer : Buffer) (signatures : Signatures) (script : Script) : Task → Prop
  | .probe start => script.Reaches buffer signatures start
  | .scan offset => script.Reaches buffer signatures offset
  | .arguments _ _ pending => ∀ role address, role ≠ .none → Passes buffer role pending address →
    script.Reaches buffer signatures address
  | .entries _ table _ => ∀ placed, .table placed ∈ script.tokens → placed.offset = table →
    ∀ address ∈ placed.destinations, script.Reaches buffer signatures address

theorem Follows.led {instruction : Instruction} {survey after : Survey} {tasks : List Task}
    (h : Follows buffer signatures instruction survey after tasks)
    (hreaches : ∀ address, script.Precedes buffer signatures instruction address →
      script.Reaches buffer signatures address) :
    ∀ task ∈ tasks, task.Led buffer signatures script := by
  have hnext : ¬ instruction.Halts → script.Reaches buffer signatures instruction.next :=
    fun hruns => hreaches _ (.onward hruns)
  have htarget : ∀ {value : Int32} {target : Nat}, instruction.Branches →
      instruction.branchValue? = some value → buffer.wordOffset? value.toInt = some target →
        script.Reaches buffer signatures target :=
    fun hbranches hvalue hoffset =>
      hreaches _ (.target hbranches ((Instruction.denotes_iff hvalue).mpr hoffset))
  have honward : ∀ kind : TableKind, instruction.opcode.flow = kind.flow →
      ∀ task ∈ kind.onward instruction, task.Led buffer signatures script := by
    intro kind hflow task hmem
    obtain ⟨rfl, rfl⟩ := TableKind.mem_onward.mp hmem
    exact hnext (by simp [Instruction.halts_iff, hflow, TableKind.flow])
  cases h with
  | stop => exact nofun
  | onward hflow =>
    have hruns : ¬ instruction.Halts := by
      rcases hflow with hflow | hflow <;> simp [Instruction.halts_iff, hflow]
    exact List.forall_mem_singleton.mpr (hnext hruns)
  | call hflow hmethod =>
    refine List.forall_mem_cons.mpr ⟨?_, List.forall_mem_singleton.mpr ?_⟩
    · intro role address hrole hpasses
      exact hreaches address (.argument (Opcode.flow_eq_call.mp hflow) hmethod hrole hpasses)
    · exact hnext (by simp [Instruction.halts_iff, hflow])
  | unknown hflow hvalue =>
    have hruns : ¬ instruction.Halts := by
      rw [Instruction.halts_iff, hvalue]
      rintro (hterminal | ⟨-, value, hsome⟩)
      · rw [hterminal] at hflow
        exact hflow
      · cases hsome
    exact List.forall_mem_singleton.mpr (hnext hruns)
  | jump hflow hvalue =>
    intro task hmem
    obtain ⟨target, hoffset, rfl⟩ := List.mem_map.mp hmem
    exact htarget (.inl (Opcode.flow_eq_jump.mp hflow)) hvalue (Option.mem_toList.mp hoffset)
  | conditional hflow hvalue =>
    have hbranches : instruction.Branches := by
      rcases Opcode.flow_eq_conditional.mp hflow with hopcode | hopcode <;>
        simp [Instruction.Branches, hopcode]
    refine List.forall_mem_cons.mpr ⟨hnext (by simp [Instruction.halts_iff, hflow]), ?_⟩
    intro task hmem
    obtain ⟨target, hoffset, rfl⟩ := List.mem_map.mp hmem
    exact htarget hbranches hvalue (Option.mem_toList.mp hoffset)
  | outside hflow =>
    have hruns : ¬ instruction.Halts := by
      rcases hflow with hflow | hflow <;> simp [Instruction.halts_iff, hflow]
    exact List.forall_mem_singleton.mpr (hnext hruns)
  | gosub hflow hvalue hoffset =>
    have hbranches : instruction.Branches := by
      simp [Instruction.Branches, Opcode.flow_eq_gosub.mp hflow]
    refine List.forall_mem_cons.mpr ⟨htarget hbranches hvalue hoffset, ?_⟩
    exact List.forall_mem_singleton.mpr (hnext (by simp [Instruction.halts_iff, hflow]))
  | fork hflow hvalue hoffset =>
    have hbranches : instruction.Branches := by
      simp [Instruction.Branches, Opcode.flow_eq_fork.mp hflow]
    refine List.forall_mem_cons.mpr ⟨htarget hbranches hvalue hoffset, ?_⟩
    exact List.forall_mem_singleton.mpr (hnext (by simp [Instruction.halts_iff, hflow]))
  | tableOutside hflow | tableKnown hflow => exact honward _ hflow
  | tableNew hflow hvalue htable =>
    refine List.forall_mem_cons.mpr ⟨?_, honward _ hflow⟩
    intro placed hplaced hoffset address hmem
    have hdenotes : instruction.Denotes buffer placed.offset := by
      rw [hoffset]
      exact (Instruction.denotes_iff hvalue).mpr htable
    exact hreaches address
      (.destination (Instruction.selects_of_flow hflow) hdenotes hplaced hmem)

/-- A task hands on what it is reached for. The destination that a table has come to is among
those that it has when it is placed. -/
theorem Task.Performs.led {task : Task} {survey after : Survey} {more : List Task}
    (h : Task.Performs buffer signatures survey task after more)
    (hled : task.Led buffer signatures script)
    (hinstructions : ∀ instruction, .instruction instruction ∈ after.script.tokens →
      .instruction instruction ∈ script.tokens)
    (hplaced : ∀ {kind table found}, .entries kind table found ∈ more →
      ∃ placed, .table placed ∈ script.tokens ∧ placed.offset = table ∧
        found <+: placed.destinations) :
    ∀ other ∈ more, other.Led buffer signatures script := by
  cases h with
  | probeKnown | scanEnd | scanUndecodable | scanRefused | argumentsDone | tableEnd => exact nofun
  | probeNew => exact List.forall_mem_singleton.mpr hled
  | @scanEntered offset decoded entered _ _ hinside hdecode hclaim hfollow =>
    obtain ⟨named, hbare, htokens⟩ := Script.mem_tokens_claimInstruction hclaim
    obtain ⟨rfl, -, -, -, -, hsame⟩ := decode_ok hdecode
    rw [hsame] at hbare
    have hmem : .instruction named ∈ script.tokens := by
      apply hinstructions
      rw [hfollow.sameImage.tokens, htokens]
      exact .inr (.inl rfl)
    have hoffset : named.offset = decoded.offset := by rw [← hbare, Instruction.offset_bare]
    have hreached : script.Reaches buffer signatures named.offset := by
      rw [hoffset]
      exact hled
    apply hfollow.led
    intro address hprecedes
    rw [← hbare] at hprecedes
    exact hreached.next hmem hprecedes.of_bare
  | argumentValue | argumentUnknown | argumentOutside =>
    refine List.forall_mem_singleton.mpr ?_
    intro role address hrole hpasses
    exact hled role address hrole (passes_cons.mpr (.inr hpasses))
  | @argumentEntered _ _ _ parameter _ _ _ hrole hvalue htarget =>
    refine List.forall_mem_cons.mpr ⟨?_, List.forall_mem_singleton.mpr ?_⟩
    · have hdenotes := (Operand.denotes_iff hvalue).mpr htarget
      exact hled parameter.role _ hrole (passes_cons.mpr (.inl ⟨rfl, hdenotes⟩))
    · intro role address hrole hpasses
      exact hled role address hrole (passes_cons.mpr (.inr hpasses))
  | @tableEntry kind table destination found hentry =>
    obtain ⟨placed, hmem, hoffset, hprefix⟩ := hplaced
      (List.mem_cons_of_mem _ (List.mem_singleton.mpr rfl))
    have hdestination : destination ∈ placed.destinations :=
      hprefix.subset (List.mem_append_right _ (List.mem_singleton.mpr rfl))
    refine List.forall_mem_cons.mpr ⟨?_, List.forall_mem_singleton.mpr hled⟩
    exact hled placed hmem hoffset destination hdestination

namespace Exploring

variable {tasks : List Task} {survey explored : Survey}

/-- A table that is read is placed before the exploration is over, with all the destinations
that it has so far. -/
theorem placed {kind : TableKind} {table : Nat} {found : List Nat}
    (h : Exploring buffer signatures tasks survey)
    (hend : Exploring buffer signatures [] explored)
    (hmem : .entries kind table found ∈ tasks) :
    ∃ placed, .table placed ∈ explored.script.tokens ∧ placed.offset = table ∧
      found <+: placed.destinations := by
  have hinvariant := run_induction (fun tasks survey =>
    (∃ later, .entries kind table later ∈ tasks ∧ found <+: later) ∨
      ∃ placed, .table placed ∈ survey.script.tokens ∧ placed.offset = table ∧
        found <+: placed.destinations)
    ?_ (.inl ⟨found, hmem, List.prefix_refl found⟩) (h.run_ending hend)
  · rcases hinvariant with ⟨later, hlater, -⟩ | hplaced
    · cases hlater
    · exact hplaced
  · intro survey after task more rest hperform hbefore
    rcases hbefore with ⟨later, hlater, hprefix⟩ | ⟨placed, hplaced, hrest⟩
    · rcases List.mem_cons.mp hlater with rfl | hbelow
      · cases hperform with
        | tableEnd =>
          obtain ⟨names, htokens⟩ := survey.script.mem_tokens_placeTable table later
          rw [script_closeTable]
          exact .inr ⟨_, (htokens _).mpr (.inr rfl), rfl, hprefix⟩
        | @tableEntry _ _ destination =>
          refine .inl ⟨later ++ [destination], ?_, hprefix.trans (List.prefix_append _ _)⟩
          exact List.mem_cons_of_mem _ List.mem_cons_self
      · exact .inl ⟨later, List.mem_append_right more hbelow, hprefix⟩
    · exact .inr ⟨placed, hperform.grows.mem_tokens hplaced, hrest⟩

theorem led (h : Exploring buffer signatures tasks survey)
    (hend : Exploring buffer signatures [] explored) (hgrows : explored.script.Grows script) :
    ∀ task ∈ tasks, task.Led buffer signatures script := by
  induction h with
  | start hfound =>
    intro task hmem
    obtain ⟨start, hstart, rfl⟩ := List.mem_map.mp hmem
    have hentrypoints := (((Exploring.start hfound).grows_ending hend).trans hgrows).entrypoints
    exact ⟨start, hentrypoints.subset hstart, .refl⟩
  | @step task more rest survey after hbefore hperform ih =>
    obtain ⟨htask, hrest⟩ := List.forall_mem_cons.mp ih
    have hafter := hbefore.step hperform
    have hlater := (hafter.grows_ending hend).trans hgrows
    have hmore : ∀ other ∈ more, other.Led buffer signatures script := by
      apply (Task.performs_of_perform hperform).led htask
      · exact fun instruction hmem => hlater.mem_tokens hmem
      · intro kind table found hmem
        obtain ⟨placed, hplaced, hdestinations⟩ :=
          hafter.placed hend (List.mem_append_left rest hmem)
        exact ⟨placed, hgrows.mem_tokens hplaced, hdestinations⟩
    intro other hother
    rcases List.mem_append.mp hother with hnew | hold
    · exact hmore other hnew
    · exact hrest other hold

theorem reached (h : Exploring buffer signatures tasks survey)
    (hend : Exploring buffer signatures [] explored) (hgrows : explored.script.Grows script) :
    ∀ instruction, .instruction instruction ∈ survey.script.tokens →
      script.Reaches buffer signatures instruction.offset := by
  induction h with
  | start hfound =>
    intro instruction hmem
    exact absurd hmem ((findEntrypoints_unexplored hfound).not_mem_instruction instruction)
  | @step task more rest survey after hbefore hperform ih =>
    intro instruction hmem
    rcases (Task.performs_of_perform hperform).mem_instruction hmem with
      hold | ⟨entered, rfl, -, -⟩
    · exact ih instruction hold
    · exact hbefore.led hend hgrows _ List.mem_cons_self

end Exploring

/-- The instructions of a script are reached from its entrypoints, and each is what the words
at its offset encode. -/
structure Script.Sound (buffer : Buffer) (signatures : Signatures) (script : Script) : Prop where
  reached : ∀ instruction, .instruction instruction ∈ script.tokens →
    script.Reaches buffer signatures instruction.offset
  encoded : ∀ instruction, .instruction instruction ∈ script.tokens → instruction.Encoded buffer

theorem sound_of_disassemble {bytes : List UInt8} (h : disassemble bytes signatures = .ok script) :
    script.Sound (.ofBytes bytes) signatures := by
  obtain ⟨explored, hend, hfilled⟩ := explored_of_disassemble h
  constructor
  · intro instruction hmem
    have hexplored := ((fillGaps_filled hfilled).mem_instruction instruction).mp hmem
    exact hend.reached hend (fillGaps_grows hfilled) instruction hexplored
  · intro instruction hmem
    exact (Script.Layout.disassembled h).1.encoded hmem

/-- A call passes the address of a subroutine, and a table leads to one more instruction. -/
def passedSubroutine : List UInt8 :=
  [4, 0, 0, 0, 0x38, 1, 0, 0, 7, 0, 0, 0x09, 0x44, 2, 0, 0, 0, 0, 0, 0, 3, 0, 0, 0x09,
    1, 0, 0, 0, 0x49, 0, 0, 0, 0x49, 0, 0, 0]

theorem sound_of_passedSubroutine :
    ∃ script, disassemble passedSubroutine ⟨[⟨"spawn", [⟨"task", "int", .gosub⟩]⟩]⟩ = .ok script ∧
      script.instructions.map Instruction.offset = [4, 12, 28, 32] ∧
      script.Sound (.ofBytes passedSubroutine) ⟨[⟨"spawn", [⟨"task", "int", .gosub⟩]⟩]⟩ := by
  have hread : (disassemble passedSubroutine ⟨[⟨"spawn", [⟨"task", "int", .gosub⟩]⟩]⟩).toOption.map
      (fun script => script.instructions.map Instruction.offset) = some [4, 12, 28, 32] := by
    cbv
  obtain ⟨script, h, hoffsets⟩ := exists_disassemble hread
  exact ⟨script, h, hoffsets, sound_of_disassemble h⟩

end ScriptDisassembler
