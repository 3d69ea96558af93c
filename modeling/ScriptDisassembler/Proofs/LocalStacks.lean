import ScriptDisassembler.Proofs.RecursiveDescent

/-!
Between the recursive algorithm and the one stack of tasks stands the algorithm that keeps a
stack of starts for each call: jumps put their targets on the stack of the call that scans
them, and subroutines, arguments and table entries are calls with stacks of their own. The
stack of tasks of an exploration is the stacks of all calls that have not ended, one on top
of the other. So the three agree on every script, on every start and in every fault.
-/

namespace ScriptDisassembler

/-- A buffer that is explored with a stack of starts for each call; the calls are calls on it. -/
abbrev LocalStacks := Buffer

namespace LocalStacks

mutual

/-- Scans from the starts on a stack until none is left. -/
def drain (buffer : LocalStacks) (signatures : Signatures) (pending : List Nat)
    (script : Script) : Descent Script :=
  match pending with
  | [] => return script
  | start :: pending =>
    if start ∈ script.branches then
      buffer |>.drain signatures pending script
    else do
      let (pending, script) ← buffer |>.scan signatures start pending (script.insertBranch start)
      buffer |>.drain signatures pending script
partial_fixpoint

/-- Enters and follows one instruction after the other. The stack that is handed back holds
the targets of the jump that ended the scan. -/
def scan (buffer : LocalStacks) (signatures : Signatures) (offset : Nat)
    (pending : List Nat) (script : Script) : Descent (List Nat × Script) :=
  if buffer.length ≤ offset then
    return (pending, script)
  else
    match decode buffer offset with
    | .error (.read fault) => throw (.read fault)
    | .error (.undecodable _) => return (pending, script)
    | .ok instruction =>
      match script.claimInstruction instruction with
      | .error _ => return (pending, script)
      | .ok entered => buffer |>.follow signatures instruction pending entered
partial_fixpoint

/-- Where control can go two ways, the way on comes to lie on top. -/
def follow (buffer : LocalStacks) (signatures : Signatures) (instruction : Instruction)
    (pending : List Nat) (script : Script) : Descent (List Nat × Script) :=
  match instruction.opcode.flow, instruction.branchValue? with
  | .terminal, _ => return (pending, script)
  | .plain, _ | .forkReenter, _ => buffer |>.scan signatures instruction.next pending script
  | .call, _ =>
    match callArguments signatures instruction with
    | .error fault => throw fault
    | .ok passed => do
      let script ← buffer |>.arguments signatures passed script
      buffer |>.scan signatures instruction.next pending script
  | _, none => buffer |>.scan signatures instruction.next pending script
  | .jump, some value =>
    return ((buffer.wordOffset? value.toInt).toList ++ pending, script)
  | .conditional, some value =>
    return (instruction.next :: ((buffer.wordOffset? value.toInt).toList ++ pending), script)
  | .gosub, some value => do
    let script ← buffer |>.visit signatures Script.insertSubroutine value script
    buffer |>.scan signatures instruction.next pending script
  | .fork, some value => do
    let script ← buffer |>.visit signatures Script.insertReentry value script
    buffer |>.scan signatures instruction.next pending script
  | .jumpTable, some value => do
    let script ← buffer |>.openTable signatures .jump value script
    return (pending, script)
  | .gosubTable, some value => do
    let script ← buffer |>.openTable signatures .subroutine value script
    buffer |>.scan signatures instruction.next pending script
partial_fixpoint

/-- Explores a target on a stack of its own. -/
def visit (buffer : LocalStacks) (signatures : Signatures)
    (enter : Script → Nat → Script) (value : Int32) (script : Script) : Descent Script :=
  match buffer.wordOffset? value.toInt with
  | none => return script
  | some target => buffer |>.drain signatures [target] (enter script target)
partial_fixpoint

def arguments (buffer : LocalStacks) (signatures : Signatures)
    (passed : List (Operand × Parameter)) (script : Script) : Descent Script :=
  match passed with
  | [] => return script
  | (operand, parameter) :: passed =>
    match parameter.role, operand.resolved with
    | .none, _ | _, none => buffer |>.arguments signatures passed script
    | role, some value => do
      let script ← buffer |>.visit signatures (Script.insertRole role) value script
      buffer |>.arguments signatures passed script
partial_fixpoint

def openTable (buffer : LocalStacks) (signatures : Signatures) (kind : TableKind)
    (value : Int32) (script : Script) : Descent Script :=
  match buffer.wordOffset? value.toInt with
  | none => return script
  | some table =>
    if table ∈ script.tables kind then
      return script
    else
      buffer |>.entries signatures kind table [] (script.insertTable kind table)
partial_fixpoint

def entries (buffer : LocalStacks) (signatures : Signatures) (kind : TableKind)
    (table : Nat) (found : List Nat) (script : Script) : Descent Script :=
  match nextDestination? buffer script table found with
  | .error fault => throw (.read fault)
  | .ok none => return script.placeTable table found
  | .ok (some destination) => do
    let script ←
      buffer |>.drain signatures [destination] (script.insertDestination kind destination)
    buffer |>.entries signatures kind table (found ++ [destination]) script
partial_fixpoint

end

/-- Explores everything that can be reached from `start` on a stack of its own. -/
def probeBranch (buffer : Buffer) (signatures : Signatures) (start : Nat) (script : Script) :
    Descent Script :=
  drain buffer signatures [start] script

end LocalStacks

/-- A stack of tasks stands for what the calls that have not ended still have to do. -/
inductive StandsFor (buffer : Buffer) (signatures : Signatures) :
    List Task → (Script → Descent Script) → Prop
  | done : StandsFor buffer signatures [] pure
  | drain {start : Nat} {pending : List Nat} {rest : List Task}
      {after : Script → Descent Script} (hrest : StandsFor buffer signatures rest after) :
      StandsFor buffer signatures (.probe start :: (pending.map .probe ++ rest))
        fun script => LocalStacks.drain buffer signatures (start :: pending) script >>= after
  | scan {offset : Nat} {pending : List Nat} {rest : List Task}
      {after : Script → Descent Script} (hrest : StandsFor buffer signatures rest after) :
      StandsFor buffer signatures (.scan offset :: (pending.map .probe ++ rest))
        fun script => LocalStacks.scan buffer signatures offset pending script >>=
          fun (pending, script) => LocalStacks.drain buffer signatures pending script >>= after
  | arguments {call : Instruction} {method : Method} {passed : List (Operand × Parameter)}
      {rest : List Task} {after : Script → Descent Script}
      (hrest : StandsFor buffer signatures rest after) :
      StandsFor buffer signatures (.arguments call method passed :: rest)
        fun script => LocalStacks.arguments buffer signatures passed script >>= after
  | entries {kind : TableKind} {table : Nat} {found : List Nat} {rest : List Task}
      {after : Script → Descent Script} (hrest : StandsFor buffer signatures rest after) :
      StandsFor buffer signatures (.entries kind table found :: rest)
        fun script => LocalStacks.entries buffer signatures kind table found script >>= after

section

variable {buffer : Buffer} {signatures : Signatures}

namespace StandsFor

/-- A stack of starts, which may be empty, on top of the calls around it. -/
theorem probes {rest : List Task} {after : Script → Descent Script} (pending : List Nat)
    (hrest : StandsFor buffer signatures rest after) :
    StandsFor buffer signatures (pending.map .probe ++ rest)
      fun script => LocalStacks.drain buffer signatures pending script >>= after := by
  cases pending with
  | nil =>
    have hafter : (fun script => LocalStacks.drain buffer signatures [] script >>= after) =
        after := by
      funext script
      rw [LocalStacks.drain, pure_bind]
    rw [hafter]
    exact hrest
  | cons start pending => exact .drain hrest

/-- A call for one start, on a stack of its own. -/
theorem nested {start : Nat} {rest : List Task} {after : Script → Descent Script}
    (hrest : StandsFor buffer signatures rest after) :
    StandsFor buffer signatures (.probe start :: rest)
      fun script => LocalStacks.drain buffer signatures [start] script >>= after :=
  probes [start] hrest

/-- Following an instruction replaces the scan that has entered it by tasks that stand for
what the scan still has to do. -/
theorem follow {instruction : Instruction} {survey left : Survey} {tasks rest : List Task}
    {after : Script → Descent Script} (pending : List Nat)
    (h : Follows buffer signatures instruction survey left tasks)
    (hrest : StandsFor buffer signatures rest after) :
    ∃ onward, StandsFor buffer signatures (tasks ++ (pending.map .probe ++ rest)) onward ∧
      onward left.script =
        (LocalStacks.follow buffer signatures instruction pending survey.script >>=
          fun (pending, script) =>
            LocalStacks.drain buffer signatures pending script >>= after) := by
  cases h with
  | stop hflow =>
    refine ⟨_, probes pending hrest, ?_⟩
    rw [LocalStacks.follow]
    simp [hflow]
  | onward hflow =>
    refine ⟨_, .scan hrest, ?_⟩
    rw [LocalStacks.follow]
    rcases hflow with hflow | hflow <;> simp [hflow]
  | call hflow hmethod hlength =>
    refine ⟨_, .arguments (.scan hrest), ?_⟩
    rw [LocalStacks.follow]
    simp [hflow, callArguments, hmethod, hlength]
  | unknown hflow hvalue =>
    refine ⟨_, .scan hrest, ?_⟩
    rw [LocalStacks.follow]
    cases hclass : instruction.opcode.flow <;> simp_all [Flow.Branches]
  | @jump value hflow hvalue =>
    have hprobes := probes ((buffer.wordOffset? value.toInt).toList ++ pending) hrest
    rw [List.map_append, List.append_assoc] at hprobes
    refine ⟨_, hprobes, ?_⟩
    rw [LocalStacks.follow]
    simp [hflow, hvalue, script_followEdge]
  | @conditional value hflow hvalue =>
    have hprobes := probes
      (instruction.next :: ((buffer.wordOffset? value.toInt).toList ++ pending)) hrest
    rw [List.map_cons, List.map_append, List.cons_append, List.append_assoc] at hprobes
    refine ⟨_, hprobes, ?_⟩
    rw [LocalStacks.follow]
    simp [hflow, hvalue, script_followEdge]
  | outside hflow hvalue htarget =>
    refine ⟨_, .scan hrest, ?_⟩
    rw [LocalStacks.follow]
    rcases hflow with hflow | hflow <;> simp [hflow, hvalue, LocalStacks.visit, htarget]
  | gosub hflow hvalue htarget | fork hflow hvalue htarget =>
    refine ⟨_, .nested (.scan hrest), ?_⟩
    rw [LocalStacks.follow]
    simp [hflow, hvalue, LocalStacks.visit, htarget]
  | @tableOutside kind _ hflow hvalue htable =>
    cases kind with
    | jump =>
      refine ⟨_, probes pending hrest, ?_⟩
      rw [LocalStacks.follow]
      simp only [TableKind.flow] at hflow
      simp [hflow, hvalue, LocalStacks.openTable, htable]
    | subroutine =>
      refine ⟨_, .scan hrest, ?_⟩
      rw [LocalStacks.follow]
      simp only [TableKind.flow] at hflow
      simp [hflow, hvalue, LocalStacks.openTable, htable]
  | @tableKnown kind _ _ hflow hvalue htable hmem =>
    cases kind with
    | jump =>
      refine ⟨_, probes pending hrest, ?_⟩
      rw [LocalStacks.follow]
      simp only [TableKind.flow] at hflow
      simp [hflow, hvalue, LocalStacks.openTable, htable, hmem]
    | subroutine =>
      refine ⟨_, .scan hrest, ?_⟩
      rw [LocalStacks.follow]
      simp only [TableKind.flow] at hflow
      simp [hflow, hvalue, LocalStacks.openTable, htable, hmem]
  | @tableNew kind _ _ hflow hvalue htable hmem =>
    cases kind with
    | jump =>
      refine ⟨_, .entries (probes pending hrest), ?_⟩
      rw [LocalStacks.follow]
      simp only [TableKind.flow] at hflow
      simp [hflow, hvalue, LocalStacks.openTable, htable, hmem]
    | subroutine =>
      refine ⟨_, .entries (.scan hrest), ?_⟩
      rw [LocalStacks.follow]
      simp only [TableKind.flow] at hflow
      simp [hflow, hvalue, LocalStacks.openTable, htable, hmem]

private theorem perform_probe {start : Nat} {survey left : Survey} {tasks rest : List Task}
    {after : Script → Descent Script} (pending : List Nat)
    (h : Task.Performs buffer signatures survey (.probe start) left tasks)
    (hrest : StandsFor buffer signatures rest after) :
    ∃ onward, StandsFor buffer signatures (tasks ++ (pending.map .probe ++ rest)) onward ∧
      onward left.script =
        LocalStacks.drain buffer signatures (start :: pending) survey.script >>= after := by
  cases h with
  | probeKnown hmem =>
    refine ⟨_, probes pending hrest, ?_⟩
    rw [LocalStacks.drain]
    simp [hmem]
  | probeNew hmem =>
    refine ⟨_, .scan hrest, ?_⟩
    rw [LocalStacks.drain]
    simp [hmem]

private theorem perform_scan {offset : Nat} {survey left : Survey} {tasks rest : List Task}
    {after : Script → Descent Script} (pending : List Nat)
    (h : Task.Performs buffer signatures survey (.scan offset) left tasks)
    (hrest : StandsFor buffer signatures rest after) :
    ∃ onward, StandsFor buffer signatures (tasks ++ (pending.map .probe ++ rest)) onward ∧
      onward left.script =
        (LocalStacks.scan buffer signatures offset pending survey.script >>=
          fun (pending, script) =>
            LocalStacks.drain buffer signatures pending script >>= after) := by
  cases h with
  | scanEnd hend =>
    refine ⟨_, probes pending hrest, ?_⟩
    rw [LocalStacks.scan]
    simp [hend]
  | scanUndecodable hinside hdecode =>
    refine ⟨_, probes pending hrest, ?_⟩
    rw [LocalStacks.scan]
    simp [Nat.not_le_of_lt hinside, hdecode]
  | scanRefused hinside hdecode hclaim =>
    refine ⟨_, probes pending hrest, ?_⟩
    rw [LocalStacks.scan]
    simp [Nat.not_le_of_lt hinside, hdecode, hclaim]
  | scanEntered hinside hdecode hclaim hfollow =>
    obtain ⟨onward, honward, heq⟩ := follow pending hfollow hrest
    refine ⟨onward, honward, ?_⟩
    rw [heq, LocalStacks.scan]
    simp only [Nat.not_le_of_lt hinside, ↓reduceIte, hdecode, hclaim]

private theorem perform_arguments {call : Instruction} {method : Method}
    {passed : List (Operand × Parameter)} {survey left : Survey} {tasks rest : List Task}
    {after : Script → Descent Script}
    (h : Task.Performs buffer signatures survey (.arguments call method passed) left tasks)
    (hrest : StandsFor buffer signatures rest after) :
    ∃ onward, StandsFor buffer signatures (tasks ++ rest) onward ∧
      onward left.script =
        LocalStacks.arguments buffer signatures passed survey.script >>= after := by
  cases h with
  | argumentsDone =>
    refine ⟨_, hrest, ?_⟩
    rw [LocalStacks.arguments, pure_bind]
  | argumentValue hrole =>
    refine ⟨_, .arguments hrest, ?_⟩
    rw [LocalStacks.arguments]
    simp [hrole]
  | argumentUnknown hrole hvalue =>
    refine ⟨_, .arguments hrest, ?_⟩
    rw [LocalStacks.arguments]
    simp [hvalue]
  | argumentOutside hrole hvalue htarget =>
    refine ⟨_, .arguments hrest, ?_⟩
    rw [LocalStacks.arguments]
    simp [hvalue, LocalStacks.visit, htarget]
  | argumentEntered hrole hvalue htarget =>
    refine ⟨_, .nested (.arguments hrest), ?_⟩
    rw [LocalStacks.arguments]
    simp [hvalue, LocalStacks.visit, htarget]

private theorem perform_entries {kind : TableKind} {table : Nat} {found : List Nat}
    {survey left : Survey} {tasks rest : List Task} {after : Script → Descent Script}
    (h : Task.Performs buffer signatures survey (.entries kind table found) left tasks)
    (hrest : StandsFor buffer signatures rest after) :
    ∃ onward, StandsFor buffer signatures (tasks ++ rest) onward ∧
      onward left.script =
        LocalStacks.entries buffer signatures kind table found survey.script >>= after := by
  cases h with
  | tableEnd hentry =>
    refine ⟨_, hrest, ?_⟩
    rw [LocalStacks.entries, hentry]
    simp [script_closeTable]
  | tableEntry hentry =>
    refine ⟨_, .nested (.entries hrest), ?_⟩
    rw [LocalStacks.entries, hentry]
    simp

/-- One task replaces what a stack stands for by what it stands for after the task. -/
theorem perform {task : Task} {survey left : Survey} {tasks rest : List Task}
    {before : Script → Descent Script}
    (h : Task.Performs buffer signatures survey task left tasks)
    (hbefore : StandsFor buffer signatures (task :: rest) before) :
    ∃ onward, StandsFor buffer signatures (tasks ++ rest) onward ∧
      onward left.script = before survey.script := by
  cases hbefore with
  | drain hrest => exact perform_probe _ h hrest
  | scan hrest => exact perform_scan _ h hrest
  | arguments hrest => exact perform_arguments h hrest
  | entries hrest => exact perform_entries h hrest

/-- Where a task fails, what the stack stands for fails with the same fault. -/
theorem fail {task : Task} {survey left : Survey} {rest : List Task} {fault : Fault}
    {before : Script → Descent Script}
    (h : Task.Fails buffer signatures survey task left fault)
    (hbefore : StandsFor buffer signatures (task :: rest) before) :
    (before survey.script).run = some (.error fault) := by
  cases hbefore with
  | drain hrest => cases h
  | scan hrest =>
    dsimp only
    rw [LocalStacks.scan]
    cases h with
    | scanRead hinside hdecode =>
      simp only [Nat.not_le_of_lt hinside, ↓reduceIte, hdecode]
      rfl
    | unknownMethod hinside hdecode hclaim hflow hmethod =>
      simp only [Nat.not_le_of_lt hinside, ↓reduceIte, hdecode, hclaim]
      rw [LocalStacks.follow]
      simp only [hflow, callArguments, hmethod]
      rfl
    | argumentCount hinside hdecode hclaim hflow hmethod hlength =>
      simp only [Nat.not_le_of_lt hinside, ↓reduceIte, hdecode, hclaim]
      rw [LocalStacks.follow]
      simp only [hflow, callArguments, hmethod, hlength, ↓reduceIte]
      rfl
  | arguments hrest => cases h
  | entries hrest =>
    cases h with
    | entryRead hentry =>
      dsimp only
      rw [LocalStacks.entries, hentry]
      rfl

/-- What a stack of tasks stands for comes to an end, and with what its run comes to. -/
theorem eq_run {tasks : List Task} {survey : Survey} {before : Script → Descent Script}
    (hbefore : StandsFor buffer signatures tasks before) :
    (before survey.script).run = some (scriptOf (run buffer signatures tasks survey)) := by
  fun_induction run buffer signatures tasks survey generalizing before with
  | case1 survey =>
    cases hbefore
    rfl
  | case2 survey task rest after fault hperform =>
    exact fail (Task.fails_of_perform hperform) hbefore
  | case3 survey task rest after more hperform ih =>
    obtain ⟨onward, honward, heq⟩ := perform (Task.performs_of_perform hperform) hbefore
    rw [← heq]
    exact ih honward

end StandsFor

/-- A call for one start ends with what the run of the probe of that start comes to. -/
theorem drain_eq_run (buffer : Buffer) (signatures : Signatures) (start : Nat)
    (survey : Survey) :
    (LocalStacks.drain buffer signatures [start] survey.script).run =
      some (scriptOf (run buffer signatures [.probe start] survey)) := by
  have hstart : StandsFor buffer signatures [.probe start] _ := .nested .done
  rw [← StandsFor.eq_run hstart, bind_pure]

end

/-- On every script and from every start, whatever has been found before, the algorithm
with a stack for each call ends, and with the script or the fault with which the recursive
algorithm ends. The one stack of tasks of an exploration leads to the same. -/
theorem probeBranch_eq_probe (buffer : Buffer) (signatures : Signatures) (start : Nat)
    (survey : Survey) :
    LocalStacks.probeBranch buffer signatures start survey.script =
        RecursiveDescent.probe buffer signatures start survey.script ∧
      (RecursiveDescent.probe buffer signatures start survey.script).run =
        some (scriptOf (run buffer signatures [.probe start] survey)) := by
  have hstack := drain_eq_run buffer signatures start survey
  have hcall := descendAll_eq_run buffer signatures [.probe start] survey
  rw [descendAll_cons, funext descendAll_nil, bind_pure] at hcall
  exact ⟨hstack.trans hcall.symm, hcall⟩

end ScriptDisassembler
