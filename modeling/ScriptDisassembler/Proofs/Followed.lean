import Mathlib
import ScriptDisassembler.Proofs.Encoded
import ScriptDisassembler.Proofs.Provenance
import ScriptDisassembler.Proofs.Tables

/-!
The operands that the instruction set declares to be addresses of code, and what becomes of
them. Those of jumps, of forks and of calls of subroutines are followed wherever they lead to a
word. The loop declares such an operand too, but its class is that of the instructions which just
go on, and its address is not followed.
-/

namespace ScriptDisassembler

/-- The instruction set has a name for an operand of the instruction. -/
def Instruction.Declares (instruction : Instruction) (name : String) (operand : Operand) : Prop :=
  ∃ place : Nat, instruction.opcode.operands[place]? = some name ∧
    instruction.operands[place]? = some operand

/-- Where the operand stands through which the instructions of a class branch. -/
def Flow.BranchesAt (flow : Flow) (arity place : Nat) : Prop :=
  (flow = .jump ∨ flow = .gosub ∨ flow = .fork) ∧ place = 0 ∨
    flow = .conditional ∧ place + 1 = arity

instance (flow : Flow) (arity place : Nat) : Decidable (flow.BranchesAt arity place) :=
  inferInstanceAs (Decidable (_ ∨ _))

/-- Through an operand that is called an address an instruction branches, except a loop. -/
theorem Opcode.branchesAt_of_addr {opcode : Opcode} {place : Nat}
    (h : opcode.operands[place]? = some "addr") (hloop : opcode ≠ .loop) :
    opcode.flow.BranchesAt opcode.operands.length place := by
  have hplaces : ∀ opcode ∈ all, ∀ place < opcode.operands.length,
      opcode.operands[place]? = some "addr" → opcode ≠ .loop →
        opcode.flow.BranchesAt opcode.operands.length place := by
    decide +kernel
  have hplace : place < opcode.operands.length := (List.getElem?_eq_some_iff.mp h).1
  exact hplaces opcode opcode.mem_all place hplace h hloop

variable {buffer : Buffer} {signatures : Signatures}

theorem arity_of_decode {offset : Nat} {instruction : Instruction}
    (h : decode buffer offset = .ok instruction) :
    instruction.opcode = .call ∨
      instruction.operands.length = instruction.opcode.operands.length := by
  obtain ⟨word, header, operands, -, hheader, hoperands, rfl⟩ := decode_eq_ok h
  obtain ⟨-, -, -, hfits⟩ := Header.ofWord?_eq_some hheader
  rw [(wordsAt_decodeOperands hoperands).1]
  exact hfits.imp_right Eq.symm

/-- The operand that is called an address is the one through which the instruction branches. -/
theorem Instruction.branchOperand?_of_declares {instruction : Instruction} {operand : Operand}
    (h : instruction.Declares "addr" operand) (hloop : instruction.opcode ≠ .loop)
    (harity : instruction.opcode = .call ∨
      instruction.operands.length = instruction.opcode.operands.length) :
    (instruction.opcode.flow = .jump ∨ instruction.opcode.flow = .gosub ∨
        instruction.opcode.flow = .fork ∨ instruction.opcode.flow = .conditional) ∧
      instruction.branchOperand? = some operand := by
  obtain ⟨place, hname, hoperand⟩ := h
  rcases Opcode.branchesAt_of_addr hname hloop with ⟨hflow, rfl⟩ | ⟨hflow, hlast⟩
  · rw [← List.head?_eq_getElem?] at hoperand
    rcases hflow with hflow | hflow | hflow <;> simp [branchOperand?, hflow, hoperand]
  · have hlength : instruction.operands.length = place + 1 := by
      rcases harity with hcall | hlength
      · rw [hcall] at hflow
        cases hflow
      · rw [hlength, hlast]
    have hgetLast : instruction.operands.getLast? = some operand := by
      rw [List.getLast?_eq_getElem?, hlength, Nat.add_sub_cancel, hoperand]
    simp [branchOperand?, hflow, hgetLast]

theorem followed_of_disassemble {bytes : List UInt8} {script : Script} {instruction : Instruction}
    {operand : Operand} {address : Nat} (h : disassemble bytes signatures = .ok script)
    (hmem : .instruction instruction ∈ script.tokens) (haddr : instruction.Declares "addr" operand)
    (hloop : instruction.opcode ≠ .loop) (hdenotes : operand.Denotes (.ofBytes bytes) address) :
    address ∈ script.branches := by
  obtain ⟨id, htoken⟩ := Array.getElem?_of_mem hmem
  have harity := arity_of_decode ((Script.Layout.disassembled h).1.decoded htoken)
  rw [Instruction.opcode_bare, Instruction.operands_bare, List.length_map] at harity
  obtain ⟨hflow, hbranch⟩ := Instruction.branchOperand?_of_declares haddr hloop harity
  have hdenoted : instruction.Denotes (.ofBytes bytes) address := ⟨operand, hbranch, hdenotes⟩
  have hholds : ∀ role, instruction.Gives (.ofBytes bytes) signatures role address →
      script.Holds role address := fun role hgives =>
    (holds_of_disassemble h role address).mpr (.inl ⟨instruction, hmem, hgives⟩)
  have himplies : script.Implies .branch address → address ∈ script.branches := fun himplied =>
    (holds_of_disassemble h .branch address).mpr (.inr himplied)
  rcases hflow with hflow | hflow | hflow | hflow
  · exact hholds .branch (by simp [Instruction.Gives, hflow, hdenoted])
  · have hsubroutine := hholds .subroutine (by simp [Instruction.Gives, hflow, hdenoted])
    exact himplies (.inr (.inl hsubroutine))
  · have hreentry := hholds .reentry (by simp [Instruction.Gives, hflow, hdenoted])
    exact himplies (.inr (.inr (.inl hreentry)))
  · exact hholds .branch (by simp [Instruction.Gives, hflow, hdenoted])

/-- A loop and a jump, each to a return of its own. -/
def loopAndJump : List UInt8 :=
  [8, 0, 0, 0, 20, 0, 0, 0, 0x43, 2, 0, 0, 0, 0, 0, 0x02, 6, 0, 0, 0x09, 0x40, 1, 0, 0,
    2, 0, 0, 0x09, 0x49, 0, 0, 0, 0x49, 0, 0, 0]

/-- The instruction that is the token of a number, with the address that its operand in a place
denotes. -/
def Script.edge? (script : Script) (id place : Nat) : Option (Opcode × Int) :=
  match script.tokens[id]? with
  | some (.instruction instruction) =>
    (instruction.operands[place]?.bind Operand.resolved).map fun value =>
      (instruction.opcode, value.toInt)
  | _ => none

theorem Script.edge?_eq_some {script : Script} {id place : Nat} {opcode : Opcode} {value : Int}
    (h : script.edge? id place = some (opcode, value)) :
    ∃ instruction operand resolved, .instruction instruction ∈ script.tokens ∧
      instruction.opcode = opcode ∧ instruction.operands[place]? = some operand ∧
      operand.resolved = some resolved ∧ resolved.toInt = value := by
  unfold edge? at h
  split at h
  · next instruction htoken =>
    obtain ⟨resolved, hresolved, heq⟩ := Option.map_eq_some_iff.mp h
    obtain ⟨operand, hoperand, hvalue⟩ := Option.bind_eq_some_iff.mp hresolved
    cases heq
    exact ⟨instruction, operand, resolved, Array.mem_of_getElem? htoken, rfl, hoperand, hvalue, rfl⟩
  · cases h

theorem exists_loopAndJump :
    ∃ script, disassemble loopAndJump .empty = .ok script ∧
      (Buffer.ofBytes loopAndJump).length = 36 ∧ script.edge? 2 1 = some (.loop, 32) ∧
      script.edge? 5 0 = some (.jmp, 28) ∧ script.branches.toList = [8, 20, 28] := by
  have hread : (disassemble loopAndJump .empty).toOption.map (fun script =>
      ((Buffer.ofBytes loopAndJump).length, script.edge? 2 1, script.edge? 5 0,
        script.branches.toList)) =
      some (36, some (.loop, 32), some (.jmp, 28), [8, 20, 28]) := by
    cbv
  obtain ⟨script, h, heq⟩ := exists_disassemble hread
  simp only [Prod.mk.injEq] at heq
  exact ⟨script, h, heq⟩

theorem followed_of_loopAndJump :
    ∃ script instruction operand, disassemble loopAndJump .empty = .ok script ∧
      .instruction instruction ∈ script.tokens ∧ instruction.Declares "addr" operand ∧
      instruction.opcode ≠ .loop ∧ operand.Denotes (.ofBytes loopAndJump) 28 ∧
      28 ∈ script.branches := by
  obtain ⟨script, h, hlength, -, hjump, -⟩ := exists_loopAndJump
  obtain ⟨instruction, operand, value, hmem, hopcode, hoperand, hresolved, hvalue⟩ :=
    Script.edge?_eq_some hjump
  have haddr : instruction.Declares "addr" operand := ⟨0, by rw [hopcode]; rfl, hoperand⟩
  have hloop : instruction.opcode ≠ .loop := by
    rw [hopcode]
    decide
  have hdenotes : operand.Denotes (.ofBytes loopAndJump) 28 :=
    ⟨value, hresolved, hvalue, by decide, by rw [hlength]; decide⟩
  exact ⟨script, instruction, operand, h, hmem, haddr, hloop, hdenotes,
    followed_of_disassemble h hmem haddr hloop hdenotes⟩

/-- The address that the loop declares leads to a word, and it is no branch. -/
theorem loop_not_followed :
    ∃ script instruction operand address, disassemble loopAndJump .empty = .ok script ∧
      .instruction instruction ∈ script.tokens ∧ instruction.Declares "addr" operand ∧
      operand.Denotes (.ofBytes loopAndJump) address ∧ address ∉ script.branches := by
  obtain ⟨script, h, hlength, hedge, -, hbranches⟩ := exists_loopAndJump
  obtain ⟨instruction, operand, value, hmem, hopcode, hoperand, hresolved, hvalue⟩ :=
    Script.edge?_eq_some hedge
  refine ⟨script, instruction, operand, 32, h, hmem, ⟨1, by rw [hopcode]; rfl, hoperand⟩,
    ⟨value, hresolved, hvalue, by decide, by rw [hlength]; decide⟩, ?_⟩
  intro hbranch
  have hlisted : 32 ∈ script.branches.toList := hbranch
  rw [hbranches] at hlisted
  simp at hlisted

end ScriptDisassembler
