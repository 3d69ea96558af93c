import ScriptDisassembler.Disassembly

/-!
What one task of an exploration can do, said once. Every way in which a task succeeds is
a constructor of a relation that names its guards, the survey after it and the tasks it
leaves behind; so is every way in which it fails. What holds along a whole run is derived
from these relations and from the induction over the stack of tasks at the end.
-/

namespace ScriptDisassembler

namespace TableKind

/-- The class of the instructions that address a table of a kind. -/
def flow : TableKind → Flow
  | .jump => .jumpTable
  | .subroutine => .gosubTable

/-- Control comes back from a subroutine table and so the scan goes on after it. -/
def onward (kind : TableKind) (instruction : Instruction) : List Task :=
  match kind with
  | .jump => []
  | .subroutine => [.scan instruction.next]

theorem mem_onward {kind : TableKind} {instruction : Instruction} {task : Task} :
    task ∈ kind.onward instruction ↔ kind = .subroutine ∧ task = .scan instruction.next := by
  cases kind <;> simp [onward]

end TableKind

namespace Flow

/-- The classes whose instructions branch through an operand of their own. -/
def Branches : Flow → Prop
  | .jump | .conditional | .jumpTable | .gosub | .gosubTable | .fork => True
  | .call | .forkReenter | .terminal | .plain => False

end Flow

/-- Puts down an argument of a call in the role that its signature gives it. -/
def Script.insertRole (role : BranchRole) (script : Script) (address : Nat) : Script :=
  if role = .gosub then script.insertSubroutine address else script.insertReentry address

/-- The destination of the entry of a table that comes after those found so far, or `none`
where the table ends. -/
def nextDestination? (buffer : Buffer) (script : Script) (table : Nat) (found : List Nat) :
    Except ReadFault (Option Nat) :=
  let entry := table + 4 * found.length
  if buffer.length ≤ entry ∨ script.isClaimed (entry / 4) then
    .ok none
  else
    (buffer.wordAt entry).map fun word => buffer.headerOffset? (table + 4 * word.signed.toInt)

variable {buffer : Buffer} {signatures : Signatures}

/-- The ways in which an instruction that has been entered is followed. -/
inductive Follows (buffer : Buffer) (signatures : Signatures) (instruction : Instruction)
    (survey : Survey) : Survey → List Task → Prop
  | stop (hflow : instruction.opcode.flow = .terminal) :
      Follows buffer signatures instruction survey survey []
  | onward (hflow : instruction.opcode.flow = .plain ∨ instruction.opcode.flow = .forkReenter) :
      Follows buffer signatures instruction survey survey [.scan instruction.next]
  | call {method : Method} (hflow : instruction.opcode.flow = .call)
      (hmethod : signatures.method? instruction.immediate.toNat = some method)
      (hlength : method.parameters.length = instruction.operands.length) :
      Follows buffer signatures instruction survey survey
        [.arguments instruction method (instruction.operands.zip method.parameters),
          .scan instruction.next]
  | unknown (hflow : instruction.opcode.flow.Branches)
      (hvalue : instruction.branchValue? = none) :
      Follows buffer signatures instruction survey
        (survey.note (.unknownBranch instruction.opcode instruction.offset))
        [.scan instruction.next]
  | jump {value : Int32} (hflow : instruction.opcode.flow = .jump)
      (hvalue : instruction.branchValue? = some value) :
      Follows buffer signatures instruction survey
        (followEdge buffer (.branch instruction.opcode) instruction.offset value survey).1
        ((buffer.wordOffset? value.toInt).toList.map .probe)
  | conditional {value : Int32} (hflow : instruction.opcode.flow = .conditional)
      (hvalue : instruction.branchValue? = some value) :
      Follows buffer signatures instruction survey
        (followEdge buffer (.branch instruction.opcode) instruction.offset value survey).1
        (.probe instruction.next :: (buffer.wordOffset? value.toInt).toList.map .probe)
  | outside {value : Int32}
      (hflow : instruction.opcode.flow = .gosub ∨ instruction.opcode.flow = .fork)
      (hvalue : instruction.branchValue? = some value)
      (htarget : buffer.wordOffset? value.toInt = none) :
      Follows buffer signatures instruction survey
        (survey.note (.outside (.branch instruction.opcode) instruction.offset value))
        [.scan instruction.next]
  | gosub {value : Int32} {target : Nat} (hflow : instruction.opcode.flow = .gosub)
      (hvalue : instruction.branchValue? = some value)
      (htarget : buffer.wordOffset? value.toInt = some target) :
      Follows buffer signatures instruction survey
        (survey.update (·.insertSubroutine target)) [.probe target, .scan instruction.next]
  | fork {value : Int32} {target : Nat} (hflow : instruction.opcode.flow = .fork)
      (hvalue : instruction.branchValue? = some value)
      (htarget : buffer.wordOffset? value.toInt = some target) :
      Follows buffer signatures instruction survey
        (survey.update (·.insertReentry target)) [.probe target, .scan instruction.next]
  | tableOutside {kind : TableKind} {value : Int32}
      (hflow : instruction.opcode.flow = kind.flow)
      (hvalue : instruction.branchValue? = some value)
      (htable : buffer.wordOffset? value.toInt = none) :
      Follows buffer signatures instruction survey
        (survey.note (.outside .table instruction.offset value)) (kind.onward instruction)
  | tableKnown {kind : TableKind} {value : Int32} {table : Nat}
      (hflow : instruction.opcode.flow = kind.flow)
      (hvalue : instruction.branchValue? = some value)
      (htable : buffer.wordOffset? value.toInt = some table)
      (hmem : table ∈ survey.script.tables kind) :
      Follows buffer signatures instruction survey survey (kind.onward instruction)
  | tableNew {kind : TableKind} {value : Int32} {table : Nat}
      (hflow : instruction.opcode.flow = kind.flow)
      (hvalue : instruction.branchValue? = some value)
      (htable : buffer.wordOffset? value.toInt = some table)
      (hmem : table ∉ survey.script.tables kind) :
      Follows buffer signatures instruction survey
        (survey.update (·.insertTable kind table))
        (.entries kind table [] :: kind.onward instruction)

/-- The ways in which a task succeeds. -/
inductive Task.Performs (buffer : Buffer) (signatures : Signatures) (survey : Survey) :
    Task → Survey → List Task → Prop
  | probeKnown {start : Nat} (hmem : start ∈ survey.script.branches) :
      Performs buffer signatures survey (.probe start) survey []
  | probeNew {start : Nat} (hmem : start ∉ survey.script.branches) :
      Performs buffer signatures survey (.probe start)
        ((survey.update (·.insertBranch start)).note (.probing start)) [.scan start]
  | scanEnd {offset : Nat} (hend : buffer.length ≤ offset) :
      Performs buffer signatures survey (.scan offset) survey []
  | scanUndecodable {offset : Nat} {reason : Undecodable} (hinside : offset < buffer.length)
      (hdecode : decode buffer offset = .error (.undecodable reason)) :
      Performs buffer signatures survey (.scan offset)
        (survey.note (.undecodable offset reason)) []
  | scanRefused {offset : Nat} {instruction : Instruction} {refusal : Event}
      (hinside : offset < buffer.length) (hdecode : decode buffer offset = .ok instruction)
      (hclaim : survey.script.claimInstruction instruction = .error refusal) :
      Performs buffer signatures survey (.scan offset) (survey.note refusal) []
  | scanEntered {offset : Nat} {instruction : Instruction} {entered : Script}
      {after : Survey} {tasks : List Task}
      (hinside : offset < buffer.length) (hdecode : decode buffer offset = .ok instruction)
      (hclaim : survey.script.claimInstruction instruction = .ok entered)
      (hfollow : Follows buffer signatures instruction { survey with script := entered }
        after tasks) :
      Performs buffer signatures survey (.scan offset) after tasks
  | argumentsDone {call : Instruction} {method : Method} :
      Performs buffer signatures survey (.arguments call method []) survey []
  | argumentValue {call : Instruction} {method : Method} {operand : Operand}
      {parameter : Parameter} {pending : List (Operand × Parameter)}
      (hrole : parameter.role = .none) :
      Performs buffer signatures survey (.arguments call method ((operand, parameter) :: pending))
        survey [.arguments call method pending]
  | argumentUnknown {call : Instruction} {method : Method} {operand : Operand}
      {parameter : Parameter} {pending : List (Operand × Parameter)}
      (hrole : parameter.role ≠ .none) (hvalue : operand.resolved = none) :
      Performs buffer signatures survey (.arguments call method ((operand, parameter) :: pending))
        (survey.note
          (.unknownArgument call.immediate method.name call.offset parameter.name))
        [.arguments call method pending]
  | argumentOutside {call : Instruction} {method : Method} {operand : Operand}
      {parameter : Parameter} {pending : List (Operand × Parameter)} {value : Int32}
      (hrole : parameter.role ≠ .none) (hvalue : operand.resolved = some value)
      (htarget : buffer.wordOffset? value.toInt = none) :
      Performs buffer signatures survey (.arguments call method ((operand, parameter) :: pending))
        (survey.note (.outside (.argument method.name) call.offset value))
        [.arguments call method pending]
  | argumentEntered {call : Instruction} {method : Method} {operand : Operand}
      {parameter : Parameter} {pending : List (Operand × Parameter)} {value : Int32}
      {target : Nat} (hrole : parameter.role ≠ .none) (hvalue : operand.resolved = some value)
      (htarget : buffer.wordOffset? value.toInt = some target) :
      Performs buffer signatures survey (.arguments call method ((operand, parameter) :: pending))
        (survey.update (·.insertRole parameter.role target))
        [.probe target, .arguments call method pending]
  | tableEnd {kind : TableKind} {table : Nat} {found : List Nat}
      (hentry : nextDestination? buffer survey.script table found = .ok none) :
      Performs buffer signatures survey (.entries kind table found)
        (closeTable table found survey) []
  | tableEntry {kind : TableKind} {table destination : Nat} {found : List Nat}
      (hentry : nextDestination? buffer survey.script table found = .ok (some destination)) :
      Performs buffer signatures survey (.entries kind table found)
        (survey.update (·.insertDestination kind destination))
        [.probe destination, .entries kind table (found ++ [destination])]

/-- The ways in which a task fails. A call that does not fit its method has been entered. -/
inductive Task.Fails (buffer : Buffer) (signatures : Signatures) (survey : Survey) :
    Task → Survey → Fault → Prop
  | scanRead {offset : Nat} {fault : ReadFault} (hinside : offset < buffer.length)
      (hdecode : decode buffer offset = .error (.read fault)) :
      Fails buffer signatures survey (.scan offset) survey (.read fault)
  | unknownMethod {offset : Nat} {call : Instruction} {entered : Script}
      (hinside : offset < buffer.length) (hdecode : decode buffer offset = .ok call)
      (hclaim : survey.script.claimInstruction call = .ok entered)
      (hflow : call.opcode.flow = .call)
      (hmethod : signatures.method? call.immediate.toNat = none) :
      Fails buffer signatures survey (.scan offset) { survey with script := entered }
        (.unknownMethod call.offset call.immediate)
  | argumentCount {offset : Nat} {call : Instruction} {entered : Script} {method : Method}
      (hinside : offset < buffer.length) (hdecode : decode buffer offset = .ok call)
      (hclaim : survey.script.claimInstruction call = .ok entered)
      (hflow : call.opcode.flow = .call)
      (hmethod : signatures.method? call.immediate.toNat = some method)
      (hlength : method.parameters.length ≠ call.operands.length) :
      Fails buffer signatures survey (.scan offset) { survey with script := entered }
        (.argumentCount call.offset call.immediate method.parameters.length
          call.operands.length)
  | entryRead {kind : TableKind} {table : Nat} {found : List Nat} {fault : ReadFault}
      (hentry : nextDestination? buffer survey.script table found = .error fault) :
      Fails buffer signatures survey (.entries kind table found) survey (.read fault)

theorem followEdge_inside {edge : Edge} {offset : Nat} {value : Int32} {survey : Survey}
    {target : Nat} (h : buffer.wordOffset? value.toInt = some target) :
    followEdge buffer edge offset value survey = (survey, some target) := by
  simp only [followEdge, h]

theorem followEdge_outside {edge : Edge} {offset : Nat} {value : Int32} {survey : Survey}
    (h : buffer.wordOffset? value.toInt = none) :
    followEdge buffer edge offset value survey =
      (survey.note (.outside edge offset value), none) := by
  simp only [followEdge, h]

theorem followEdge_snd (buffer : Buffer) (edge : Edge) (offset : Nat) (value : Int32)
    (survey : Survey) :
    (followEdge buffer edge offset value survey).2 = buffer.wordOffset? value.toInt := by
  cases h : buffer.wordOffset? value.toInt with
  | none => rw [followEdge_outside h]
  | some target => rw [followEdge_inside h]

private theorem follows_visit {instruction : Instruction} {survey after : Survey}
    {tasks : List Task} {value : Int32} {enter : Script → Nat → Script}
    (hflow : instruction.opcode.flow = .gosub ∨ instruction.opcode.flow = .fork)
    (hvalue : instruction.branchValue? = some value)
    (henter : ∀ target, buffer.wordOffset? value.toInt = some target →
      Follows buffer signatures instruction survey (survey.update (enter · target))
        [.probe target, .scan instruction.next])
    (h : visit buffer (.branch instruction.opcode) instruction.offset value enter
      [.scan instruction.next] survey = (after, .ok tasks)) :
    Follows buffer signatures instruction survey after tasks := by
  simp only [visit] at h
  cases htarget : buffer.wordOffset? value.toInt with
  | none =>
    rw [followEdge_outside htarget] at h
    cases h
    exact .outside hflow hvalue htarget
  | some target =>
    rw [followEdge_inside htarget] at h
    cases h
    exact henter target htarget

private theorem follows_openTable {instruction : Instruction} {survey after : Survey}
    {tasks : List Task} {value : Int32} (kind : TableKind)
    (hflow : instruction.opcode.flow = kind.flow)
    (hvalue : instruction.branchValue? = some value)
    (h : openTable buffer kind instruction.offset value (kind.onward instruction) survey =
      (after, .ok tasks)) :
    Follows buffer signatures instruction survey after tasks := by
  simp only [openTable] at h
  cases htable : buffer.wordOffset? value.toInt with
  | none =>
    rw [followEdge_outside htable] at h
    cases h
    exact .tableOutside hflow hvalue htable
  | some table =>
    rw [followEdge_inside htable] at h
    simp only at h
    split at h
    · next hmem =>
      cases h
      exact .tableKnown hflow hvalue htable hmem
    · next hmem =>
      cases h
      exact .tableNew hflow hvalue htable hmem

private theorem follows_branch {instruction : Instruction} {survey after : Survey}
    {tasks : List Task} {act : Int32 → Survey → Outcome}
    (hflow : instruction.opcode.flow.Branches)
    (hact : ∀ value, instruction.branchValue? = some value →
      act value survey = (after, .ok tasks) →
      Follows buffer signatures instruction survey after tasks)
    (h : followBranch instruction act survey = (after, .ok tasks)) :
    Follows buffer signatures instruction survey after tasks := by
  simp only [followBranch] at h
  cases hvalue : instruction.branchValue? with
  | none =>
    rw [hvalue] at h
    cases h
    exact .unknown hflow hvalue
  | some value =>
    rw [hvalue] at h
    exact hact value hvalue h

private theorem follows_call {call : Instruction} {survey after : Survey} {tasks : List Task}
    (hflow : call.opcode.flow = .call)
    (h : followCall signatures call survey = (after, .ok tasks)) :
    Follows buffer signatures call survey after tasks := by
  simp only [followCall] at h
  cases hmethod : signatures.method? call.immediate.toNat with
  | none =>
    rw [hmethod] at h
    cases h
  | some method =>
    rw [hmethod] at h
    simp only at h
    split at h
    · cases h
    · next hlength =>
      cases h
      exact .call hflow hmethod (Decidable.not_not.mp hlength)

theorem follows_of_follow {instruction : Instruction} {survey after : Survey}
    {tasks : List Task} (h : follow buffer signatures instruction survey = (after, .ok tasks)) :
    Follows buffer signatures instruction survey after tasks := by
  simp only [follow] at h
  split at h
  · next hflow =>
    cases h
    exact .stop hflow
  · next hflow =>
    cases h
    exact .onward (.inl hflow)
  · next hflow =>
    cases h
    exact .onward (.inr hflow)
  · next hflow => exact follows_call hflow h
  · next hflow =>
    refine follows_branch (by rw [hflow]; trivial) (fun value hvalue hact => ?_) h
    have hstep : Follows buffer signatures instruction survey _ _ := .jump hflow hvalue
    simp only [visit] at hact
    cases htarget : buffer.wordOffset? value.toInt with
    | none =>
      rw [followEdge_outside htarget] at hact
      rw [followEdge_outside htarget, htarget] at hstep
      cases hact
      exact hstep
    | some target =>
      rw [followEdge_inside htarget] at hact
      rw [followEdge_inside htarget, htarget] at hstep
      cases hact
      exact hstep
  · next hflow =>
    refine follows_branch (by rw [hflow]; trivial) (fun value hvalue hact => ?_) h
    have hsnd := followEdge_snd buffer (.branch instruction.opcode) instruction.offset
      value survey
    cases hact
    rw [hsnd]
    exact .conditional hflow hvalue
  · next hflow =>
    refine follows_branch (by rw [hflow]; trivial) (fun value hvalue hact => ?_) h
    exact follows_visit (.inl hflow) hvalue (fun target => .gosub hflow hvalue) hact
  · next hflow =>
    refine follows_branch (by rw [hflow]; trivial) (fun value hvalue hact => ?_) h
    exact follows_visit (.inr hflow) hvalue (fun target => .fork hflow hvalue) hact
  · next hflow =>
    refine follows_branch (by rw [hflow]; trivial) (fun value hvalue hact => ?_) h
    exact follows_openTable .jump hflow hvalue hact
  · next hflow =>
    refine follows_branch (by rw [hflow]; trivial) (fun value hvalue hact => ?_) h
    exact follows_openTable .subroutine hflow hvalue hact

theorem insertRole_eq (role : BranchRole) :
    (if role = .gosub then Script.insertSubroutine else Script.insertReentry) =
      Script.insertRole role := by
  funext script address
  unfold Script.insertRole
  split <;> rfl

private theorem performs_scan {offset : Nat} {survey after : Survey} {tasks : List Task}
    (h : scanStep buffer signatures offset survey = (after, .ok tasks)) :
    Task.Performs buffer signatures survey (.scan offset) after tasks := by
  simp only [scanStep] at h
  split at h
  · next hend =>
    cases h
    exact .scanEnd hend
  · next hinside =>
    have hlt := Nat.lt_of_not_le hinside
    split at h
    · cases h
    · next hdecode =>
      cases h
      exact .scanUndecodable hlt hdecode
    · next hdecode =>
      split at h
      · next hclaim =>
        cases h
        exact .scanRefused hlt hdecode hclaim
      · next hclaim => exact .scanEntered hlt hdecode hclaim (follows_of_follow h)

private theorem performs_arguments {call : Instruction} {method : Method}
    {pending : List (Operand × Parameter)} {survey after : Survey} {tasks : List Task}
    (h : argumentStep buffer call method pending survey = (after, .ok tasks)) :
    Task.Performs buffer signatures survey (.arguments call method pending) after tasks := by
  cases pending with
  | nil =>
    cases h
    exact .argumentsDone
  | cons head pending =>
    obtain ⟨operand, parameter⟩ := head
    simp only [argumentStep] at h
    split at h
    · next hrole =>
      cases h
      exact .argumentValue hrole
    · next hvalue hrole =>
      cases h
      exact .argumentUnknown hrole hvalue
    · next value hvalue hrole =>
      rw [insertRole_eq] at h
      simp only [visit] at h
      cases htarget : buffer.wordOffset? value.toInt with
      | none =>
        rw [followEdge_outside htarget] at h
        cases h
        exact .argumentOutside hrole hvalue htarget
      | some target =>
        rw [followEdge_inside htarget] at h
        cases h
        exact .argumentEntered hrole hvalue htarget

/-- Testing an entry, by what the next destination is. -/
theorem entryStep_eq (buffer : Buffer) (kind : TableKind) (table : Nat) (found : List Nat)
    (survey : Survey) :
    entryStep buffer kind table found survey =
      match nextDestination? buffer survey.script table found with
      | .error fault => (survey, .error (.read fault))
      | .ok none => (closeTable table found survey, .ok [])
      | .ok (some destination) =>
        (survey.update (·.insertDestination kind destination),
          .ok [.probe destination, .entries kind table (found ++ [destination])]) := by
  simp only [entryStep, nextDestination?]
  split
  · rfl
  · cases buffer.wordAt (table + 4 * found.length) with
    | error fault => rfl
    | ok word =>
      simp only [Except.map]
      split <;> simp_all

private theorem performs_entries {kind : TableKind} {table : Nat} {found : List Nat}
    {survey after : Survey} {tasks : List Task}
    (h : entryStep buffer kind table found survey = (after, .ok tasks)) :
    Task.Performs buffer signatures survey (.entries kind table found) after tasks := by
  rw [entryStep_eq] at h
  split at h
  · cases h
  · next hentry =>
    cases h
    exact .tableEnd hentry
  · next hentry =>
    cases h
    exact .tableEntry hentry

theorem Task.performs_of_perform {task : Task} {survey after : Survey} {tasks : List Task}
    (h : task.perform buffer signatures survey = (after, .ok tasks)) :
    Task.Performs buffer signatures survey task after tasks := by
  cases task with
  | probe start =>
    simp only [perform, probeStep] at h
    split at h
    · next hmem =>
      cases h
      exact .probeKnown hmem
    · next hmem =>
      cases h
      exact .probeNew hmem
  | scan offset => exact performs_scan h
  | arguments call method pending => exact performs_arguments h
  | entries kind table found => exact performs_entries h

private theorem fails_follow {instruction : Instruction} {survey after : Survey} {fault : Fault}
    (h : follow buffer signatures instruction survey = (after, .error fault)) :
    instruction.opcode.flow = .call ∧
      followCall signatures instruction survey = (after, .error fault) := by
  simp only [follow] at h
  split at h
  · cases h
  · cases h
  · cases h
  · next hflow => exact ⟨hflow, h⟩
  all_goals
    simp only [followBranch, visit, openTable] at h
    repeat' split at h
    all_goals cases h

private theorem fails_scan {offset : Nat} {survey after : Survey} {fault : Fault}
    (h : scanStep buffer signatures offset survey = (after, .error fault)) :
    Task.Fails buffer signatures survey (.scan offset) after fault := by
  simp only [scanStep] at h
  split at h
  · cases h
  · next hinside =>
    have hlt := Nat.lt_of_not_le hinside
    split at h
    · next hdecode =>
      cases h
      exact .scanRead hlt hdecode
    · cases h
    · next hdecode =>
      split at h
      · cases h
      · next hclaim =>
        obtain ⟨hflow, hcall⟩ := fails_follow h
        simp only [followCall] at hcall
        split at hcall
        · next hmethod =>
          cases hcall
          exact .unknownMethod hlt hdecode hclaim hflow hmethod
        · next hmethod =>
          split at hcall
          · next hlength =>
            cases hcall
            exact .argumentCount hlt hdecode hclaim hflow hmethod hlength
          · cases hcall

private theorem argumentStep_ok (buffer : Buffer) (call : Instruction) (method : Method)
    (pending : List (Operand × Parameter)) (survey : Survey) :
    ∃ tasks, (argumentStep buffer call method pending survey).2 = .ok tasks := by
  simp only [argumentStep, visit]
  repeat' split
  all_goals exact ⟨_, rfl⟩

theorem Task.fails_of_perform {task : Task} {survey after : Survey} {fault : Fault}
    (h : task.perform buffer signatures survey = (after, .error fault)) :
    Task.Fails buffer signatures survey task after fault := by
  cases task with
  | probe start =>
    simp only [perform, probeStep] at h
    split at h <;> cases h
  | scan offset => exact fails_scan h
  | arguments call method pending =>
    obtain ⟨tasks, hok⟩ := argumentStep_ok buffer call method pending survey
    simp only [perform] at h
    rw [h] at hok
    cases hok
  | entries kind table found =>
    simp only [perform, entryStep_eq] at h
    split at h
    · next hentry =>
      cases h
      exact .entryRead hentry
    · cases h
    · cases h

/-- What every task keeps while it takes its place on the stack holds when none is left. -/
theorem run_induction (invariant : List Task → Survey → Prop) {tasks : List Task}
    {survey explored : Survey}
    (hstep : ∀ {survey after : Survey} {task : Task} {more rest : List Task},
      Task.Performs buffer signatures survey task after more →
      invariant (task :: rest) survey → invariant (more ++ rest) after)
    (hstart : invariant tasks survey)
    (hrun : run buffer signatures tasks survey = (explored, .ok ())) :
    invariant [] explored := by
  fun_induction run buffer signatures tasks survey with
  | case1 survey =>
    cases hrun
    exact hstart
  | case2 => cases hrun
  | case3 survey task rest after more hperform ih =>
    exact ih (hstep (Task.performs_of_perform hperform) hstart) hrun

end ScriptDisassembler
