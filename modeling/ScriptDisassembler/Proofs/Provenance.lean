import Mathlib
import ScriptDisassembler.Proofs.Ledger

/-!
Where the addresses of a disassembled script come from. Each of its sets is read off the
instructions and the tables in the script: nothing is missing, and nothing else is there.
-/

namespace ScriptDisassembler

namespace Opcode

theorem flow_eq_jump {opcode : Opcode} : opcode.flow = .jump ↔ opcode = .jmp := by
  cases opcode <;> decide

theorem flow_eq_conditional {opcode : Opcode} :
    opcode.flow = .conditional ↔ opcode = .jmpCmp ∨ opcode = .jmpCmp0 := by
  cases opcode <;> decide

theorem flow_eq_gosub {opcode : Opcode} : opcode.flow = .gosub ↔ opcode = .gosub := by
  cases opcode <;> decide

theorem flow_eq_fork {opcode : Opcode} : opcode.flow = .fork ↔ opcode = .fork := by
  cases opcode <;> decide

theorem flow_eq_call {opcode : Opcode} : opcode.flow = .call ↔ opcode = .call := by
  cases opcode <;> decide

theorem flow_eq_jumpTable {opcode : Opcode} : opcode.flow = .jumpTable ↔ opcode = .jmpTable := by
  cases opcode <;> decide

theorem flow_eq_gosubTable {opcode : Opcode} :
    opcode.flow = .gosubTable ↔ opcode = .gosubTable := by
  cases opcode <;> decide

end Opcode

namespace Instruction

variable {buffer : Buffer} {signatures : Signatures} {instruction : Instruction} {address : Nat}

theorem gives_branch :
    instruction.Gives buffer signatures .branch address ↔
      instruction.opcode = .jmp ∧ instruction.Denotes buffer address ∨
        (instruction.opcode = .jmpCmp ∨ instruction.opcode = .jmpCmp0) ∧
          (instruction.Denotes buffer address ∨
            (∃ value, instruction.branchValue? = some value) ∧ address = instruction.next) := by
  rw [← Opcode.flow_eq_jump, ← Opcode.flow_eq_conditional]
  unfold Gives
  cases instruction.opcode.flow <;> simp

theorem gives_subroutine :
    instruction.Gives buffer signatures .subroutine address ↔
      instruction.opcode = .gosub ∧ instruction.Denotes buffer address ∨
        instruction.opcode = .call ∧ ∃ method,
          signatures.method? instruction.immediate.toNat = some method ∧
          Passes buffer .gosub (instruction.operands.zip method.parameters) address := by
  rw [← Opcode.flow_eq_gosub, ← Opcode.flow_eq_call]
  unfold Gives
  cases instruction.opcode.flow <;> simp

theorem gives_reentry :
    instruction.Gives buffer signatures .reentry address ↔
      instruction.opcode = .fork ∧ instruction.Denotes buffer address ∨
        instruction.opcode = .call ∧ ∃ method,
          signatures.method? instruction.immediate.toNat = some method ∧
          Passes buffer .reentry (instruction.operands.zip method.parameters) address := by
  rw [← Opcode.flow_eq_fork, ← Opcode.flow_eq_call]
  unfold Gives
  cases instruction.opcode.flow <;> simp

theorem gives_jumpTable :
    instruction.Gives buffer signatures (.table .jump) address ↔
      instruction.opcode = .jmpTable ∧ instruction.Denotes buffer address := by
  rw [← Opcode.flow_eq_jumpTable]
  unfold Gives
  cases instruction.opcode.flow <;> simp

theorem gives_subroutineTable :
    instruction.Gives buffer signatures (.table .subroutine) address ↔
      instruction.opcode = .gosubTable ∧ instruction.Denotes buffer address := by
  rw [← Opcode.flow_eq_gosubTable]
  unfold Gives
  cases instruction.opcode.flow <;> simp

end Instruction

namespace Script

/-- An instruction of a kind has the address of a word in the operand that is selected. -/
def Names (buffer : Buffer) (script : Script) (opcode : Opcode)
    (select : List Operand → Option Operand) (address : Nat) : Prop :=
  ∃ instruction operand, .instruction instruction ∈ script.tokens ∧
    instruction.opcode = opcode ∧ select instruction.operands = some operand ∧
    operand.Denotes buffer address

/-- A call passes the address of a word as an argument that has a role in its method. -/
def Hands (buffer : Buffer) (signatures : Signatures) (script : Script) (role : BranchRole)
    (address : Nat) : Prop :=
  ∃ call method, .instruction call ∈ script.tokens ∧ call.opcode = .call ∧
    signatures.method? call.immediate.toNat = some method ∧
    Passes buffer role (call.operands.zip method.parameters) address

/-- A conditional jump whose target is known goes on to the address after it. -/
def Falls (script : Script) (address : Nat) : Prop :=
  ∃ instruction operand value, .instruction instruction ∈ script.tokens ∧
    (instruction.opcode = .jmpCmp ∨ instruction.opcode = .jmpCmp0) ∧
    instruction.operands.getLast? = some operand ∧ operand.resolved = some value ∧
    address = instruction.next

/-- The sets of addresses of a script are what its instructions and tables say. -/
structure Explained (buffer : Buffer) (signatures : Signatures) (script : Script) : Prop where
  subroutines : ∀ address, address ∈ script.subroutines ↔
    script.Names buffer .gosub (·.head?) address ∨ script.Hands buffer signatures .gosub address ∨
      address ∈ script.subroutineDestinations
  reentries : ∀ address, address ∈ script.reentries ↔
    script.Names buffer .fork (·.head?) address ∨ script.Hands buffer signatures .reentry address
  jumpTables : ∀ address, address ∈ script.jumpTables ↔
    script.Names buffer .jmpTable (·[1]?) address
  subroutineTables : ∀ address, address ∈ script.subroutineTables ↔
    script.Names buffer .gosubTable (·[1]?) address
  destinations : ∀ address,
    address ∈ script.jumpDestinations ∨ address ∈ script.subroutineDestinations ↔
      ∃ table, .table table ∈ script.tokens ∧ address ∈ table.destinations
  branches : ∀ address, address ∈ script.branches ↔
    address ∈ script.entrypoints ∨ address ∈ script.subroutines ∨ address ∈ script.reentries ∨
      address ∈ script.jumpDestinations ∨ address ∈ script.subroutineDestinations ∨
      script.Names buffer .jmp (·.head?) address ∨
      script.Names buffer .jmpCmp (·.getLast?) address ∨
      script.Names buffer .jmpCmp0 (·.getLast?) address ∨ script.Falls address

variable {buffer : Buffer} {signatures : Signatures} {script : Script} {address : Nat}

theorem names_iff {opcode : Opcode} {select : List Operand → Option Operand}
    (hselect : ∀ instruction : Instruction, instruction.opcode = opcode →
      instruction.branchOperand? = select instruction.operands) :
    script.Names buffer opcode select address ↔
      ∃ instruction, .instruction instruction ∈ script.tokens ∧ instruction.opcode = opcode ∧
        instruction.Denotes buffer address := by
  constructor
  · intro hnames
    obtain ⟨instruction, operand, hmem, hopcode, hoperand, hdenotes⟩ := hnames
    rw [← hselect instruction hopcode] at hoperand
    exact ⟨instruction, hmem, hopcode, operand, hoperand, hdenotes⟩
  · intro hdenoted
    obtain ⟨instruction, hmem, hopcode, operand, hoperand, hdenotes⟩ := hdenoted
    rw [hselect instruction hopcode] at hoperand
    exact ⟨instruction, operand, hmem, hopcode, hoperand, hdenotes⟩

theorem gives_subroutine :
    script.Gives buffer signatures .subroutine address ↔
      script.Names buffer .gosub (·.head?) address ∨
        script.Hands buffer signatures .gosub address := by
  rw [names_iff]
  · unfold Gives Hands
    simp only [Instruction.gives_subroutine, and_or_left, exists_or, exists_and_left]
  · intro instruction hopcode
    simp [Instruction.branchOperand?, hopcode, Opcode.flow]

theorem gives_reentry :
    script.Gives buffer signatures .reentry address ↔
      script.Names buffer .fork (·.head?) address ∨
        script.Hands buffer signatures .reentry address := by
  rw [names_iff]
  · unfold Gives Hands
    simp only [Instruction.gives_reentry, and_or_left, exists_or, exists_and_left]
  · intro instruction hopcode
    simp [Instruction.branchOperand?, hopcode, Opcode.flow]

theorem gives_jumpTable :
    script.Gives buffer signatures (.table .jump) address ↔
      script.Names buffer .jmpTable (·[1]?) address := by
  rw [names_iff]
  · unfold Gives
    simp only [Instruction.gives_jumpTable]
  · intro instruction hopcode
    simp [Instruction.branchOperand?, hopcode, Opcode.flow]

theorem gives_subroutineTable :
    script.Gives buffer signatures (.table .subroutine) address ↔
      script.Names buffer .gosubTable (·[1]?) address := by
  rw [names_iff]
  · unfold Gives
    simp only [Instruction.gives_subroutineTable]
  · intro instruction hopcode
    simp [Instruction.branchOperand?, hopcode, Opcode.flow]

theorem not_gives_destination : ¬ script.Gives buffer signatures .destination address := by
  intro hgiven
  obtain ⟨instruction, -, hgives⟩ := hgiven
  unfold Instruction.Gives at hgives
  split at hgives <;> simp at hgives

theorem falls_iff :
    script.Falls address ↔ ∃ instruction, .instruction instruction ∈ script.tokens ∧
      (instruction.opcode = .jmpCmp ∨ instruction.opcode = .jmpCmp0) ∧
        (∃ value, instruction.branchValue? = some value) ∧ address = instruction.next := by
  have hvalue : ∀ instruction : Instruction,
      instruction.opcode = .jmpCmp ∨ instruction.opcode = .jmpCmp0 →
        instruction.branchValue? = instruction.operands.getLast?.bind Operand.resolved := by
    rintro instruction (hopcode | hopcode) <;>
      simp [Instruction.branchValue?, Instruction.branchOperand?, hopcode, Opcode.flow]
  constructor
  · intro hfalls
    obtain ⟨instruction, operand, value, hmem, hopcode, hlast, hresolved, haddress⟩ := hfalls
    refine ⟨instruction, hmem, hopcode, ⟨value, ?_⟩, haddress⟩
    rw [hvalue instruction hopcode, hlast]
    exact hresolved
  · intro hconditional
    obtain ⟨instruction, hmem, hopcode, ⟨value, hbranch⟩, haddress⟩ := hconditional
    rw [hvalue instruction hopcode] at hbranch
    obtain ⟨operand, hlast, hresolved⟩ := Option.bind_eq_some_iff.mp hbranch
    exact ⟨instruction, operand, value, hmem, hopcode, hlast, hresolved, haddress⟩

theorem gives_branch :
    script.Gives buffer signatures .branch address ↔
      script.Names buffer .jmp (·.head?) address ∨
        script.Names buffer .jmpCmp (·.getLast?) address ∨
        script.Names buffer .jmpCmp0 (·.getLast?) address ∨ script.Falls address := by
  rw [names_iff, names_iff, names_iff, falls_iff]
  · unfold Gives
    simp only [Instruction.gives_branch, and_or_left, or_and_right, exists_or, or_assoc]
  all_goals
    intro instruction hopcode
    simp [Instruction.branchOperand?, hopcode, Opcode.flow]

theorem Filled.holds {before after : Script} {role : Role} (h : before.Filled after) :
    after.Holds role address ↔ before.Holds role address := by
  rw [h.rest]
  rcases role with _ | _ | _ | ⟨_ | _⟩ | _ <;> exact Iff.rfl

theorem Filled.mem_tokens {before after : Script} {token : Token} (h : before.Filled after)
    (hdata : ¬ token.IsData) : token ∈ after.tokens ↔ token ∈ before.tokens :=
  ⟨fun hmem => (h.tokens token hmem).resolve_right hdata, h.extends_before.mem_tokens⟩

theorem Filled.mem_instruction {before after : Script} (h : before.Filled after)
    (instruction : Instruction) :
    .instruction instruction ∈ after.tokens ↔ .instruction instruction ∈ before.tokens :=
  h.mem_tokens fun hdata => hdata

theorem Filled.gives {before after : Script} {role : Role} (h : before.Filled after) :
    after.Gives buffer signatures role address ↔ before.Gives buffer signatures role address := by
  unfold Gives
  simp only [h.mem_instruction]

theorem Filled.implies {before after : Script} {role : Role} (h : before.Filled after) :
    after.Implies role address ↔ before.Implies role address := by
  have htokens : ∀ table, Token.table table ∈ after.tokens ↔ .table table ∈ before.tokens :=
    fun table => h.mem_tokens fun hdata => hdata
  cases role with
  | destination => simp only [Implies, htokens]
  | branch | subroutine | reentry | table =>
    rw [h.rest]
    exact Iff.rfl

end Script

/-- When the exploration is over, nothing is promised any more and every table is placed. -/
theorem holds_of_disassemble {bytes : List UInt8} {signatures : Signatures} {script : Script}
    (h : disassemble bytes signatures = .ok script) (role : Role) (address : Nat) :
    script.Holds role address ↔
      script.Gives (.ofBytes bytes) signatures role address ∨ script.Implies role address := by
  obtain ⟨found, explored, hfound, hrun, hfilled, -⟩ := disassemble_ok h
  have hbalanced := (Balanced.probes (findEntrypoints_unexplored hfound)).run hrun role address
  have hgaps := fillGaps_filled hfilled
  rw [hgaps.holds, hgaps.gives, hgaps.implies]
  simpa only [Task.promised_nil, Task.warranted_nil, or_false] using hbalanced

theorem explained_of_disassemble {bytes : List UInt8} {signatures : Signatures}
    {script : Script} (h : disassemble bytes signatures = .ok script) :
    script.Explained (.ofBytes bytes) signatures := by
  have hholds := holds_of_disassemble h
  constructor
  case subroutines =>
    intro address
    have hsubroutine := hholds .subroutine address
    rw [Script.gives_subroutine, or_assoc] at hsubroutine
    exact hsubroutine
  case reentries =>
    intro address
    have hreentry := hholds .reentry address
    rw [Script.gives_reentry] at hreentry
    exact hreentry.trans (or_iff_left id)
  case jumpTables =>
    intro address
    have htable := hholds (.table .jump) address
    rw [Script.gives_jumpTable] at htable
    exact htable.trans (or_iff_left id)
  case subroutineTables =>
    intro address
    have htable := hholds (.table .subroutine) address
    rw [Script.gives_subroutineTable] at htable
    exact htable.trans (or_iff_left id)
  case destinations =>
    intro address
    have hnone : ¬ script.Gives (.ofBytes bytes) signatures .destination address :=
      Script.not_gives_destination
    exact (hholds .destination address).trans (or_iff_right hnone)
  case branches =>
    intro address
    have hbranch := hholds .branch address
    rw [Script.gives_branch, or_comm] at hbranch
    simp only [Script.Implies, Script.Holds, or_assoc] at hbranch
    exact hbranch

/-- A subroutine that is also the way on of a conditional jump. -/
def sharedSubroutine : List UInt8 :=
  [4, 0, 0, 0, 0x48, 1, 0, 0, 6, 0, 0, 0x09, 0x42, 3, 0, 0, 0, 0, 0, 0, 0, 0, 0, 0, 5, 0, 0, 0x09,
    0x49, 0, 0, 0, 0x49, 0, 0, 0]

theorem explained_of_sharedSubroutine :
    ∃ script, disassemble sharedSubroutine .empty = .ok script ∧
      script.subroutines.toList = [28] ∧ script.branches.toList = [4, 28, 32] ∧
      script.Explained (.ofBytes sharedSubroutine) .empty := by
  have hsets : (disassemble sharedSubroutine .empty).toOption.map
      (fun script => (script.subroutines.toList, script.branches.toList)) =
        some ([28], [4, 28, 32]) := by
    cbv
  obtain ⟨script, h, hlists⟩ := exists_disassemble hsets
  exact ⟨script, h, congrArg Prod.fst hlists, congrArg Prod.snd hlists,
    explained_of_disassemble h⟩

end ScriptDisassembler
