import ScriptDisassembler.Proofs.Growth

/-!
The roles in which a script holds addresses. An address gets a role from an instruction that
names it, or from another role, or from the destinations of a table; a task that is left may
still have to put one down. Each insertion into the sets of a script is said here to change
one role and what follows from it.
-/

namespace ScriptDisassembler

inductive Role where
  | branch
  | subroutine
  | reentry
  | table (kind : TableKind)
  /-- A destination of a table of either kind. -/
  | destination
deriving DecidableEq

namespace Operand

/-- The value of the operand is known, and it is the address of a word of the buffer. -/
def Denotes (buffer : Buffer) (operand : Operand) (address : Nat) : Prop :=
  ∃ value, operand.resolved = some value ∧ value.toInt = address ∧ address % 4 = 0 ∧
    address < buffer.length

variable {buffer : Buffer} {operand : Operand} {address : Nat}

theorem denotes_iff {value : Int32} (hvalue : operand.resolved = some value) :
    operand.Denotes buffer address ↔ buffer.wordOffset? value.toInt = some address := by
  rw [Buffer.wordOffset?_eq_some]
  unfold Denotes
  constructor
  · intro hdenotes
    obtain ⟨other, hother, haddress, haligned, hinside⟩ := hdenotes
    rw [hvalue, Option.some.injEq] at hother
    subst hother
    exact ⟨haddress.symm, haligned, hinside⟩
  · intro hoffset
    obtain ⟨haddress, haligned, hinside⟩ := hoffset
    exact ⟨value, hvalue, haddress.symm, haligned, hinside⟩

theorem not_denotes (hvalue : operand.resolved = none) : ¬ operand.Denotes buffer address := by
  intro hdenotes
  obtain ⟨value, hsome, -⟩ := hdenotes
  rw [hvalue] at hsome
  cases hsome

end Operand

/-- The role in which a script puts down an argument. -/
def BranchRole.Means : BranchRole → Role → Prop
  | .gosub, .subroutine | .reentry, .reentry => True
  | _, _ => False

/-- An argument in a role is the address of a word. -/
def Passes (buffer : Buffer) (role : BranchRole) (passed : List (Operand × Parameter))
    (address : Nat) : Prop :=
  ∃ operand parameter, (operand, parameter) ∈ passed ∧ parameter.role = role ∧
    operand.Denotes buffer address

section

variable {buffer : Buffer} {role : BranchRole} {operand : Operand} {parameter : Parameter}
  {passed : List (Operand × Parameter)} {address : Nat}

@[simp] theorem passes_nil : ¬ Passes buffer role [] address := by
  simp [Passes]

theorem passes_cons :
    Passes buffer role ((operand, parameter) :: passed) address ↔
      parameter.role = role ∧ operand.Denotes buffer address ∨
        Passes buffer role passed address := by
  unfold Passes
  constructor
  · intro hpasses
    obtain ⟨other, described, hmem, hother⟩ := hpasses
    rcases List.mem_cons.mp hmem with heq | hmem
    · cases heq
      exact .inl hother
    · exact .inr ⟨other, described, hmem, hother⟩
  · intro hpasses
    rcases hpasses with hfirst | ⟨other, described, hmem, hother⟩
    · exact ⟨operand, parameter, List.mem_cons_self, hfirst⟩
    · exact ⟨other, described, List.mem_cons_of_mem _ hmem, hother⟩

end

namespace Instruction

/-- The instruction branches through an operand that is the address of a word. -/
def Denotes (buffer : Buffer) (instruction : Instruction) (address : Nat) : Prop :=
  ∃ operand, instruction.branchOperand? = some operand ∧ operand.Denotes buffer address

/-- The roles that an instruction gives to addresses by itself. -/
def Gives (buffer : Buffer) (signatures : Signatures) (instruction : Instruction) (role : Role)
    (address : Nat) : Prop :=
  match instruction.opcode.flow with
  | .jump => role = .branch ∧ instruction.Denotes buffer address
  | .conditional =>
    role = .branch ∧ (instruction.Denotes buffer address ∨
      (∃ value, instruction.branchValue? = some value) ∧ address = instruction.next)
  | .gosub => role = .subroutine ∧ instruction.Denotes buffer address
  | .fork => role = .reentry ∧ instruction.Denotes buffer address
  | .call =>
    ∃ method, signatures.method? instruction.immediate.toNat = some method ∧
      (role = .subroutine ∧
          Passes buffer .gosub (instruction.operands.zip method.parameters) address ∨
        role = .reentry ∧
          Passes buffer .reentry (instruction.operands.zip method.parameters) address)
  | .jumpTable => role = .table .jump ∧ instruction.Denotes buffer address
  | .gosubTable => role = .table .subroutine ∧ instruction.Denotes buffer address
  | .forkReenter | .terminal | .plain => False

/-- The branches that follow at once from the roles that an instruction gives. -/
def Probes (buffer : Buffer) (instruction : Instruction) (role : Role) (address : Nat) : Prop :=
  match instruction.opcode.flow with
  | .gosub | .fork => role = .branch ∧ instruction.Denotes buffer address
  | .jump | .conditional | .call | .jumpTable | .gosubTable | .forkReenter | .terminal
  | .plain => False

variable {buffer : Buffer} {signatures : Signatures} {instruction : Instruction} {address : Nat}

theorem denotes_iff {value : Int32} (hvalue : instruction.branchValue? = some value) :
    instruction.Denotes buffer address ↔ buffer.wordOffset? value.toInt = some address := by
  obtain ⟨operand, hoperand, hresolved⟩ := Option.bind_eq_some_iff.mp hvalue
  rw [← Operand.denotes_iff hresolved]
  unfold Denotes
  simp only [hoperand, Option.some.injEq, exists_eq_left']

theorem not_denotes (hvalue : instruction.branchValue? = none) :
    ¬ instruction.Denotes buffer address := by
  intro hdenoted
  obtain ⟨operand, hoperand, hdenotes⟩ := hdenoted
  refine Operand.not_denotes ?_ hdenotes
  simpa only [branchValue?, hoperand, Option.bind_some] using hvalue

theorem denotes_inside {value : Int32} {target : Nat}
    (hvalue : instruction.branchValue? = some value)
    (htarget : buffer.wordOffset? value.toInt = some target) :
    instruction.Denotes buffer address ↔ address = target := by
  rw [denotes_iff hvalue, htarget, Option.some.injEq, eq_comm]

theorem not_denotes_outside {value : Int32} (hvalue : instruction.branchValue? = some value)
    (htarget : buffer.wordOffset? value.toInt = none) :
    ¬ instruction.Denotes buffer address := by
  rw [denotes_iff hvalue, htarget]
  exact nofun

theorem gives_table {kind : TableKind} {role : Role} (hflow : instruction.opcode.flow = kind.flow) :
    instruction.Gives buffer signatures role address ↔
      role = .table kind ∧ instruction.Denotes buffer address := by
  unfold Gives
  rw [hflow]
  cases kind <;> exact Iff.rfl

theorem not_probes_table {kind : TableKind} {role : Role}
    (hflow : instruction.opcode.flow = kind.flow) :
    ¬ instruction.Probes buffer role address := by
  unfold Probes
  rw [hflow]
  cases kind <;> exact id

/-- An instruction whose operand is not known gives nothing. -/
theorem not_gives_unknown {role : Role} (hflow : instruction.opcode.flow.Branches)
    (hvalue : instruction.branchValue? = none) :
    ¬ instruction.Gives buffer signatures role address := by
  have hdenotes : ¬ instruction.Denotes buffer address := not_denotes hvalue
  unfold Gives
  revert hflow
  cases instruction.opcode.flow <;> simp [Flow.Branches, hvalue, hdenotes]

theorem not_probes_unknown {role : Role} (hvalue : instruction.branchValue? = none) :
    ¬ instruction.Probes buffer role address := by
  have hdenotes : ¬ instruction.Denotes buffer address := not_denotes hvalue
  unfold Probes
  cases instruction.opcode.flow <;> simp [hdenotes]

theorem denotes_bare :
    instruction.bare.Denotes buffer address ↔ instruction.Denotes buffer address := by
  unfold Denotes
  rw [branchOperand?_bare]
  constructor
  · intro hbare
    obtain ⟨operand, hoperand, hdenotes⟩ := hbare
    obtain ⟨named, hnamed, rfl⟩ := Option.map_eq_some_iff.mp hoperand
    exact ⟨named, hnamed, hdenotes⟩
  · intro hdenoted
    obtain ⟨operand, hoperand, hdenotes⟩ := hdenoted
    exact ⟨operand.bare, Option.map_eq_some_iff.mpr ⟨operand, hoperand, rfl⟩, hdenotes⟩

theorem passes_bare {role : BranchRole} {operands : List Operand}
    {parameters : List Parameter} :
    Passes buffer role ((operands.map Operand.bare).zip parameters) address ↔
      Passes buffer role (operands.zip parameters) address := by
  unfold Passes
  rw [List.zip_map_left]
  constructor
  · intro hbare
    obtain ⟨operand, parameter, hmem, hrole, hdenotes⟩ := hbare
    obtain ⟨⟨named, other⟩, hpair, heq⟩ := List.mem_map.mp hmem
    cases heq
    exact ⟨named, other, hpair, hrole, hdenotes⟩
  · intro hpasses
    obtain ⟨operand, parameter, hmem, hrole, hdenotes⟩ := hpasses
    exact ⟨operand.bare, parameter, List.mem_map.mpr ⟨_, hmem, rfl⟩, hrole, hdenotes⟩

/-- The names of the operands have no part in the roles. -/
theorem gives_bare {role : Role} :
    instruction.bare.Gives buffer signatures role address ↔
      instruction.Gives buffer signatures role address := by
  unfold Gives
  simp only [opcode_bare, denotes_bare, branchValue?_bare, next_bare, immediate_bare,
    operands_bare, passes_bare]

end Instruction

namespace Script

/-- The script has put an address down in a role. -/
def Holds (script : Script) : Role → Nat → Prop
  | .branch, address => address ∈ script.branches
  | .subroutine, address => address ∈ script.subroutines
  | .reentry, address => address ∈ script.reentries
  | .table kind, address => address ∈ script.tables kind
  | .destination, address =>
    address ∈ script.jumpDestinations ∨ address ∈ script.subroutineDestinations

/-- The roles that follow from other roles, from the entrypoints and from the tables. -/
def Implies (script : Script) : Role → Nat → Prop
  | .branch, address =>
    address ∈ script.entrypoints ∨ script.Holds .subroutine address ∨
      script.Holds .reentry address ∨ script.Holds .destination address
  | .subroutine, address => address ∈ script.subroutineDestinations
  | .destination, address => ∃ table, .table table ∈ script.tokens ∧ address ∈ table.destinations
  | .reentry, _ | .table _, _ => False

/-- Some instruction of the script gives an address a role. -/
def Gives (buffer : Buffer) (signatures : Signatures) (script : Script) (role : Role)
    (address : Nat) : Prop :=
  ∃ instruction, .instruction instruction ∈ script.tokens ∧
    instruction.Gives buffer signatures role address

variable (script : Script) (target : Nat) (kind : TableKind) (role : Role) (address : Nat)

theorem holds_insertBranch :
    (script.insertBranch target).Holds role address ↔
      role = .branch ∧ address = target ∨ script.Holds role address := by
  cases role <;> simp [Holds, insertBranch, tables]

theorem holds_insertSubroutine :
    (script.insertSubroutine target).Holds role address ↔
      role = .subroutine ∧ address = target ∨ script.Holds role address := by
  cases role <;> simp [Holds, insertSubroutine, tables]

theorem holds_insertReentry :
    (script.insertReentry target).Holds role address ↔
      role = .reentry ∧ address = target ∨ script.Holds role address := by
  cases role <;> simp [Holds, insertReentry, tables]

theorem holds_insertRole {passed : BranchRole} (hrole : passed ≠ .none) :
    (script.insertRole passed target).Holds role address ↔
      passed.Means role ∧ address = target ∨ script.Holds role address := by
  cases passed with
  | none => exact absurd rfl hrole
  | gosub =>
    rw [insertRole, if_pos rfl, holds_insertSubroutine]
    cases role <;> simp [BranchRole.Means]
  | reentry =>
    rw [insertRole, if_neg nofun, holds_insertReentry]
    cases role <;> simp [BranchRole.Means]

theorem holds_insertTable :
    (script.insertTable kind target).Holds role address ↔
      role = .table kind ∧ address = target ∨ script.Holds role address := by
  cases kind <;> rcases role with _ | _ | _ | ⟨_ | _⟩ | _ <;> simp [Holds, insertTable, tables]

theorem holds_insertDestination :
    (script.insertDestination kind target).Holds role address ↔
      (role = .destination ∨ role = .subroutine ∧ kind = .subroutine) ∧ address = target ∨
        script.Holds role address := by
  cases kind <;> rcases role with _ | _ | _ | ⟨_ | _⟩ | _ <;>
    simp [Holds, insertDestination, tables, or_assoc, or_left_comm]

theorem implies_insertBranch :
    (script.insertBranch target).Implies role address ↔ script.Implies role address := by
  cases role <;> exact Iff.rfl

theorem implies_insertSubroutine :
    (script.insertSubroutine target).Implies role address ↔
      role = .branch ∧ address = target ∨ script.Implies role address := by
  cases role <;> simp [Implies, Holds, insertSubroutine, or_assoc, or_left_comm]

theorem implies_insertReentry :
    (script.insertReentry target).Implies role address ↔
      role = .branch ∧ address = target ∨ script.Implies role address := by
  cases role <;> simp [Implies, Holds, insertReentry, or_assoc, or_left_comm]

theorem implies_insertRole (passed : BranchRole) :
    (script.insertRole passed target).Implies role address ↔
      role = .branch ∧ address = target ∨ script.Implies role address := by
  unfold insertRole
  split
  · exact implies_insertSubroutine script target role address
  · exact implies_insertReentry script target role address

theorem implies_insertTable :
    (script.insertTable kind target).Implies role address ↔ script.Implies role address := by
  cases kind <;> cases role <;> exact Iff.rfl

theorem implies_insertDestination :
    (script.insertDestination kind target).Implies role address ↔
      (role = .branch ∨ role = .subroutine ∧ kind = .subroutine) ∧ address = target ∨
        script.Implies role address := by
  cases kind <;> cases role <;>
    simp [Implies, Holds, insertDestination, or_assoc, or_left_comm]

end Script

section

variable {buffer : Buffer} {signatures : Signatures} {script : Script} {role : Role}
  {address : Nat}

theorem Script.SameImage.gives {after : Script} (h : script.SameImage after) :
    after.Gives buffer signatures role address ↔ script.Gives buffer signatures role address := by
  unfold Script.Gives
  rw [h.tokens]

namespace Script

theorem holds_claimInstruction {instruction : Instruction} {entered : Script}
    (h : script.claimInstruction instruction = .ok entered) :
    entered.Holds role address ↔ script.Holds role address := by
  obtain ⟨named, slots, labels, -, rfl⟩ := claimInstruction_eq h
  rcases role with _ | _ | _ | ⟨_ | _⟩ | _ <;> exact Iff.rfl

theorem gives_claimInstruction {instruction : Instruction} {entered : Script}
    (h : script.claimInstruction instruction = .ok entered) :
    entered.Gives buffer signatures role address ↔
      script.Gives buffer signatures role address ∨
        instruction.Gives buffer signatures role address := by
  obtain ⟨named, hbare, htokens⟩ := mem_tokens_claimInstruction h
  have hgives : named.Gives buffer signatures role address ↔
      instruction.Gives buffer signatures role address := by
    rw [← Instruction.gives_bare, hbare, Instruction.gives_bare]
  unfold Gives
  simp only [htokens]
  constructor
  · intro hgiven
    obtain ⟨other, hold | hnew | ⟨operand, hoperand, hnew⟩, hother⟩ := hgiven
    · exact .inl ⟨other, hold, hother⟩
    · cases hnew
      exact .inr (hgives.mp hother)
    · cases hnew
  · intro hgiven
    rcases hgiven with ⟨other, hold, hother⟩ | hnew
    · exact ⟨other, .inl hold, hother⟩
    · exact ⟨named, .inr (.inl rfl), hgives.mpr hnew⟩

theorem implies_claimInstruction {instruction : Instruction} {entered : Script}
    (h : script.claimInstruction instruction = .ok entered) :
    entered.Implies role address ↔ script.Implies role address := by
  obtain ⟨named, hbare, htokens⟩ := mem_tokens_claimInstruction h
  obtain ⟨_, slots, labels, -, heq⟩ := claimInstruction_eq h
  cases role with
  | destination => simp [Implies, htokens]
  | branch | subroutine | reentry | table => rw [heq]; exact Iff.rfl

theorem holds_placeTable (table : Nat) (found : List Nat) :
    (script.placeTable table found).Holds role address ↔ script.Holds role address := by
  obtain ⟨names, slots, labels, heq⟩ := script.placeTable_eq table found
  rw [heq]
  rcases role with _ | _ | _ | ⟨_ | _⟩ | _ <;> exact Iff.rfl

theorem gives_placeTable (table : Nat) (found : List Nat) :
    (script.placeTable table found).Gives buffer signatures role address ↔
      script.Gives buffer signatures role address := by
  obtain ⟨names, htokens⟩ := script.mem_tokens_placeTable table found
  unfold Gives
  simp [htokens]

theorem implies_placeTable (table : Nat) (found : List Nat) :
    (script.placeTable table found).Implies role address ↔
      script.Implies role address ∨ role = .destination ∧ address ∈ found := by
  obtain ⟨names, htokens⟩ := script.mem_tokens_placeTable table found
  obtain ⟨_, slots, labels, heq⟩ := script.placeTable_eq table found
  cases role with
  | destination =>
    simp only [Implies, htokens, true_and]
    constructor
    · intro hdestination
      obtain ⟨other, hold | hnew, hmem⟩ := hdestination
      · exact .inl ⟨other, hold, hmem⟩
      · cases hnew
        exact .inr hmem
    · intro hdestination
      rcases hdestination with ⟨other, hold, hmem⟩ | hmem
      · exact ⟨other, .inl hold, hmem⟩
      · exact ⟨_, .inr rfl, hmem⟩
  | branch | subroutine | reentry | table =>
    rw [heq]
    simp [Implies, Holds]

end Script

end

end ScriptDisassembler
