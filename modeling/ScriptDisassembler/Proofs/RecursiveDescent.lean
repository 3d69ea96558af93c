import ScriptDisassembler.Proofs.Placement

/-!
The recursive algorithm that an exploration carries out on its stack of tasks. Here a probe
is a call: a jump probes its target before the scan that met it ends, and a subroutine is
probed in the middle of the scan that calls it. The algorithm knows nothing of tasks and of
reports, and that it comes to an end is not built into it. The main statement is that it
does, with the script or the fault with which the stack of tasks ends.
-/

namespace ScriptDisassembler

/-- What a recursive algorithm does: it may go on for ever, fail or give a result. -/
abbrev Descent := ExceptT Fault Option

/-- The arguments of a call beside the parameters of its method, which they must fit. -/
def callArguments (signatures : Signatures) (call : Instruction) :
    Except Fault (List (Operand × Parameter)) :=
  match signatures.method? call.immediate.toNat with
  | none => .error (.unknownMethod call.offset call.immediate)
  | some method =>
    if method.parameters.length = call.operands.length then
      .ok (call.operands.zip method.parameters)
    else
      .error (.argumentCount call.offset call.immediate method.parameters.length
        call.operands.length)

/-- A buffer that is explored recursively; the calls of the algorithm are calls on it. -/
abbrev RecursiveDescent := Buffer

namespace RecursiveDescent

mutual

/-- Explores everything that can be reached from `start`, unless that was begun before. -/
def probe (buffer : RecursiveDescent) (signatures : Signatures) (start : Nat)
    (script : Script) : Descent Script :=
  if start ∈ script.branches then
    return script
  else
    buffer |>.scan signatures start (script.insertBranch start)
partial_fixpoint

/-- Enters one instruction after the other and follows each as soon as it is entered. -/
def scan (buffer : RecursiveDescent) (signatures : Signatures) (offset : Nat)
    (script : Script) : Descent Script :=
  if buffer.length ≤ offset then
    return script
  else
    match decode buffer offset with
    | .error (.read fault) => throw (.read fault)
    | .error (.undecodable _) => return script
    | .ok instruction =>
      match script.claimInstruction instruction with
      | .error _ => return script
      | .ok entered => buffer |>.follow signatures instruction entered
partial_fixpoint

/-- Explores what an instruction branches to. The scan goes on after it, except where
control does not come back to the next instruction. -/
def follow (buffer : RecursiveDescent) (signatures : Signatures) (instruction : Instruction)
    (script : Script) : Descent Script :=
  match instruction.opcode.flow, instruction.branchValue? with
  | .terminal, _ => return script
  | .plain, _ | .forkReenter, _ => buffer |>.scan signatures instruction.next script
  | .call, _ =>
    match callArguments signatures instruction with
    | .error fault => throw fault
    | .ok pending => do
      let script ← buffer |>.arguments signatures pending script
      buffer |>.scan signatures instruction.next script
  | _, none => buffer |>.scan signatures instruction.next script
  | .jump, some value => buffer |>.visit signatures (fun script _ => script) value script
  | .conditional, some value => do
    let script ← buffer |>.probe signatures instruction.next script
    buffer |>.visit signatures (fun script _ => script) value script
  | .gosub, some value => do
    let script ← buffer |>.visit signatures Script.insertSubroutine value script
    buffer |>.scan signatures instruction.next script
  | .fork, some value => do
    let script ← buffer |>.visit signatures Script.insertReentry value script
    buffer |>.scan signatures instruction.next script
  | .jumpTable, some value => buffer |>.openTable signatures .jump value script
  | .gosubTable, some value => do
    let script ← buffer |>.openTable signatures .subroutine value script
    buffer |>.scan signatures instruction.next script
partial_fixpoint

/-- Probes a target that is the offset of a word, after `enter` has put down its role. -/
def visit (buffer : RecursiveDescent) (signatures : Signatures)
    (enter : Script → Nat → Script) (value : Int32) (script : Script) : Descent Script :=
  match buffer.wordOffset? value.toInt with
  | none => return script
  | some target => buffer |>.probe signatures target (enter script target)
partial_fixpoint

def arguments (buffer : RecursiveDescent) (signatures : Signatures)
    (pending : List (Operand × Parameter)) (script : Script) : Descent Script :=
  match pending with
  | [] => return script
  | (operand, parameter) :: pending =>
    match parameter.role, operand.resolved with
    | .none, _ | _, none => buffer |>.arguments signatures pending script
    | role, some value => do
      let script ← buffer |>.visit signatures (Script.insertRole role) value script
      buffer |>.arguments signatures pending script
partial_fixpoint

def openTable (buffer : RecursiveDescent) (signatures : Signatures) (kind : TableKind)
    (value : Int32) (script : Script) : Descent Script :=
  match buffer.wordOffset? value.toInt with
  | none => return script
  | some table =>
    if table ∈ script.tables kind then
      return script
    else
      buffer |>.entries signatures kind table [] (script.insertTable kind table)
partial_fixpoint

/-- Probes the destination of each entry before the next entry is tested. -/
def entries (buffer : RecursiveDescent) (signatures : Signatures) (kind : TableKind)
    (table : Nat) (found : List Nat) (script : Script) : Descent Script :=
  match nextDestination? buffer script table found with
  | .error fault => throw (.read fault)
  | .ok none => return script.placeTable table found
  | .ok (some destination) => do
    let script ← buffer |>.probe signatures destination (script.insertDestination kind destination)
    buffer |>.entries signatures kind table (found ++ [destination]) script
partial_fixpoint

end

end RecursiveDescent

/-- What the recursive algorithm does for a task. -/
def Task.descend (buffer : Buffer) (signatures : Signatures) : Task → Script → Descent Script
  | .probe start => RecursiveDescent.probe buffer signatures start
  | .scan offset => RecursiveDescent.scan buffer signatures offset
  | .arguments _ _ pending => RecursiveDescent.arguments buffer signatures pending
  | .entries kind table found => RecursiveDescent.entries buffer signatures kind table found

/-- The calls of the recursive algorithm that a stack of tasks stands for, one after the
other. -/
def descendAll (buffer : Buffer) (signatures : Signatures) (tasks : List Task)
    (script : Script) : Descent Script :=
  tasks.foldlM (fun script task => task.descend buffer signatures script) script

/-- The script or the fault with which an exploration ends. -/
def scriptOf : Survey × Except Fault Unit → Except Fault Script
  | (survey, .ok ()) => .ok survey.script
  | (_, .error fault) => .error fault

section

variable {buffer : Buffer} {signatures : Signatures}

@[simp] theorem descendAll_nil (script : Script) :
    descendAll buffer signatures [] script = pure script := rfl

@[simp] theorem descendAll_cons (task : Task) (tasks : List Task) (script : Script) :
    descendAll buffer signatures (task :: tasks) script =
      task.descend buffer signatures script >>= fun script =>
        descendAll buffer signatures tasks script := by
  simp only [descendAll, List.foldlM_cons]

theorem descendAll_append (front back : List Task) (script : Script) :
    descendAll buffer signatures (front ++ back) script =
      descendAll buffer signatures front script >>= fun script =>
        descendAll buffer signatures back script := by
  simp only [descendAll, List.foldlM_append]

/-- Probing a target that may be missing. -/
theorem descendAll_probes (target? : Option Nat) (script : Script) :
    descendAll buffer signatures (target?.toList.map .probe) script =
      match target? with
      | none => pure script
      | some target => RecursiveDescent.probe buffer signatures target script := by
  cases target? with
  | none => rfl
  | some target => simp [Task.descend]

/-- Following an instruction, the recursive algorithm does what the tasks stand for. -/
theorem descendAll_of_follows {instruction : Instruction} {survey after : Survey}
    {tasks : List Task} (h : Follows buffer signatures instruction survey after tasks) :
    descendAll buffer signatures tasks after.script =
      RecursiveDescent.follow buffer signatures instruction survey.script := by
  rw [RecursiveDescent.follow]
  cases h with
  | stop hflow => simp only [hflow, descendAll_nil]
  | onward hflow =>
    rcases hflow with hflow | hflow <;> simp [hflow, Task.descend]
  | call hflow hmethod hlength =>
    simp [hflow, callArguments, hmethod, hlength, Task.descend]
  | unknown hflow hvalue =>
    cases hclass : instruction.opcode.flow <;> simp_all [Flow.Branches, Task.descend]
  | jump hflow hvalue =>
    simp only [hflow, hvalue, descendAll_probes, script_followEdge, RecursiveDescent.visit]
  | conditional hflow hvalue =>
    simp only [hflow, hvalue, descendAll_cons, descendAll_probes, script_followEdge,
      Task.descend, RecursiveDescent.visit]
  | outside hflow hvalue htarget =>
    rcases hflow with hflow | hflow <;>
      simp [hflow, hvalue, RecursiveDescent.visit, htarget, Task.descend]
  | gosub hflow hvalue htarget | fork hflow hvalue htarget =>
    simp [hflow, hvalue, RecursiveDescent.visit, htarget, Task.descend]
  | @tableOutside kind _ hflow hvalue htable =>
    cases kind <;> simp only [TableKind.flow] at hflow <;>
      simp [hflow, hvalue, RecursiveDescent.openTable, htable, Task.descend, TableKind.onward]
  | @tableKnown kind _ _ hflow hvalue htable hmem =>
    cases kind <;> simp only [TableKind.flow] at hflow <;>
      simp [hflow, hvalue, RecursiveDescent.openTable, htable, hmem, Task.descend,
        TableKind.onward]
  | @tableNew kind _ _ hflow hvalue htable hmem =>
    cases kind <;> simp only [TableKind.flow] at hflow <;>
      simp [hflow, hvalue, RecursiveDescent.openTable, htable, hmem, Task.descend,
        TableKind.onward]

/-- A task and the tasks that it leaves behind stand for the same calls. -/
theorem descendAll_of_performs {task : Task} {survey after : Survey} {tasks : List Task}
    (h : Task.Performs buffer signatures survey task after tasks) :
    descendAll buffer signatures tasks after.script =
      task.descend buffer signatures survey.script := by
  cases h with
  | probeKnown hmem =>
    rw [Task.descend, RecursiveDescent.probe]
    simp [hmem]
  | probeNew hmem =>
    rw [Task.descend, RecursiveDescent.probe]
    simp [hmem, Task.descend]
  | scanEnd hend =>
    rw [Task.descend, RecursiveDescent.scan]
    simp [hend]
  | scanUndecodable hinside hdecode =>
    rw [Task.descend, RecursiveDescent.scan]
    simp [Nat.not_le_of_lt hinside, hdecode]
  | scanRefused hinside hdecode hclaim =>
    rw [Task.descend, RecursiveDescent.scan]
    simp [Nat.not_le_of_lt hinside, hdecode, hclaim]
  | scanEntered hinside hdecode hclaim hfollow =>
    rw [Task.descend, RecursiveDescent.scan, descendAll_of_follows hfollow]
    simp only [Nat.not_le_of_lt hinside, ↓reduceIte, hdecode, hclaim]
  | argumentsDone =>
    rw [Task.descend, RecursiveDescent.arguments]
    rfl
  | argumentValue hrole =>
    rw [Task.descend, RecursiveDescent.arguments]
    simp [hrole, Task.descend]
  | argumentUnknown hrole hvalue =>
    rw [Task.descend, RecursiveDescent.arguments]
    simp [hvalue, Task.descend]
  | argumentOutside hrole hvalue htarget =>
    rw [Task.descend, RecursiveDescent.arguments]
    simp [hvalue, Task.descend, RecursiveDescent.visit, htarget]
  | argumentEntered hrole hvalue htarget =>
    rw [Task.descend, RecursiveDescent.arguments]
    simp [hvalue, Task.descend, RecursiveDescent.visit, htarget]
  | tableEnd hentry =>
    rw [Task.descend, RecursiveDescent.entries, hentry]
    simp [script_closeTable]
  | tableEntry hentry =>
    rw [Task.descend, RecursiveDescent.entries, hentry]
    simp [Task.descend]

/-- Where a task fails, the recursive algorithm fails with the same fault. -/
theorem descend_of_fails {task : Task} {survey after : Survey} {fault : Fault}
    (h : Task.Fails buffer signatures survey task after fault) :
    task.descend buffer signatures survey.script = throw fault := by
  cases h with
  | scanRead hinside hdecode =>
    rw [Task.descend, RecursiveDescent.scan]
    simp [Nat.not_le_of_lt hinside, hdecode]
  | unknownMethod hinside hdecode hclaim hflow hmethod =>
    rw [Task.descend, RecursiveDescent.scan]
    simp only [Nat.not_le_of_lt hinside, ↓reduceIte, hdecode, hclaim]
    rw [RecursiveDescent.follow]
    simp only [hflow, callArguments, hmethod]
  | argumentCount hinside hdecode hclaim hflow hmethod hlength =>
    rw [Task.descend, RecursiveDescent.scan]
    simp only [Nat.not_le_of_lt hinside, ↓reduceIte, hdecode, hclaim]
    rw [RecursiveDescent.follow]
    simp only [hflow, callArguments, hmethod, hlength, ↓reduceIte]
  | entryRead hentry =>
    rw [Task.descend, RecursiveDescent.entries, hentry]

/-- The calls that a stack of tasks stands for come to an end, and with what the run of the
stack comes to. -/
theorem descendAll_eq_run (buffer : Buffer) (signatures : Signatures) (tasks : List Task)
    (survey : Survey) :
    (descendAll buffer signatures tasks survey.script).run =
      some (scriptOf (run buffer signatures tasks survey)) := by
  fun_induction run buffer signatures tasks survey with
  | case1 survey => rfl
  | case2 survey task rest after fault hperform =>
    rw [descendAll_cons, descend_of_fails (Task.fails_of_perform hperform)]
    rfl
  | case3 survey task rest after more hperform ih =>
    rw [descendAll_cons, ← descendAll_of_performs (Task.performs_of_perform hperform),
      ← descendAll_append]
    exact ih

end

end ScriptDisassembler
