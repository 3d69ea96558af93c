import ScriptDisassembler.Proofs.Roles

/-!
The sets of addresses of a script are exactly what its instructions say. During an
exploration the books are balanced: what the script holds and what the tasks still promise
to put down is what the instructions give, what follows from that, and what tables that are
still read have found. Every task adds the same to both sides, and when no task is left the
sets are settled.
-/

namespace ScriptDisassembler

namespace Task

/-- The roles that a task will put down. -/
def Promises (buffer : Buffer) : Task → Role → Nat → Prop
  | .probe start, .branch, address => address = start
  | .arguments _ _ pending, .subroutine, address => Passes buffer .gosub pending address
  | .arguments _ _ pending, .reentry, address => Passes buffer .reentry pending address
  | _, _, _ => False

/-- The destinations that have been put down already, for a table that is not placed yet. -/
def Warrants : Task → Role → Nat → Prop
  | .entries _ _ found, .destination, address => address ∈ found
  | _, _, _ => False

variable {buffer : Buffer} {role : Role} {address : Nat}

@[simp] theorem promises_probe {start : Nat} :
    (probe start).Promises buffer role address ↔ role = .branch ∧ address = start := by
  cases role <;> simp [Promises]

@[simp] theorem promises_scan {offset : Nat} :
    ¬ (scan offset).Promises buffer role address := by
  cases role <;> simp [Promises]

@[simp] theorem promises_entries {kind : TableKind} {table : Nat} {found : List Nat} :
    ¬ (entries kind table found).Promises buffer role address := by
  cases role <;> simp [Promises]

theorem promises_arguments {call : Instruction} {method : Method}
    {pending : List (Operand × Parameter)} :
    (arguments call method pending).Promises buffer role address ↔
      role = .subroutine ∧ Passes buffer .gosub pending address ∨
        role = .reentry ∧ Passes buffer .reentry pending address := by
  cases role <;> simp [Promises]

theorem promises_arguments_cons {call : Instruction} {method : Method} {operand : Operand}
    {parameter : Parameter} {pending : List (Operand × Parameter)} :
    (arguments call method ((operand, parameter) :: pending)).Promises buffer role address ↔
      parameter.role.Means role ∧ operand.Denotes buffer address ∨
        (arguments call method pending).Promises buffer role address := by
  rw [promises_arguments, promises_arguments, passes_cons, passes_cons]
  cases parameter.role <;> cases role <;> simp [BranchRole.Means]

@[simp] theorem warrants_probe {start : Nat} : ¬ (probe start).Warrants role address := by
  cases role <;> simp [Warrants]

@[simp] theorem warrants_scan {offset : Nat} : ¬ (scan offset).Warrants role address := by
  cases role <;> simp [Warrants]

@[simp] theorem warrants_arguments {call : Instruction} {method : Method}
    {pending : List (Operand × Parameter)} :
    ¬ (arguments call method pending).Warrants role address := by
  cases role <;> simp [Warrants]

@[simp] theorem warrants_entries {kind : TableKind} {table : Nat} {found : List Nat} :
    (entries kind table found).Warrants role address ↔
      role = .destination ∧ address ∈ found := by
  cases role <;> simp [Warrants]

/-- A role that a stack of tasks promises. -/
def Promised (buffer : Buffer) (tasks : List Task) (role : Role) (address : Nat) : Prop :=
  ∃ task ∈ tasks, task.Promises buffer role address

def Warranted (tasks : List Task) (role : Role) (address : Nat) : Prop :=
  ∃ task ∈ tasks, task.Warrants role address

@[simp] theorem promised_nil : ¬ Promised buffer [] role address := by
  simp [Promised]

@[simp] theorem promised_cons {task : Task} {tasks : List Task} :
    Promised buffer (task :: tasks) role address ↔
      task.Promises buffer role address ∨ Promised buffer tasks role address := by
  simp [Promised]

@[simp] theorem promised_append {front back : List Task} :
    Promised buffer (front ++ back) role address ↔
      Promised buffer front role address ∨ Promised buffer back role address := by
  simp [Promised, or_and_right, exists_or]

@[simp] theorem promised_onward {kind : TableKind} {instruction : Instruction} :
    ¬ Promised buffer (kind.onward instruction) role address := by
  cases kind <;> simp [TableKind.onward]

theorem promised_probes {starts : List Nat} :
    Promised buffer (starts.map .probe) role address ↔ role = .branch ∧ address ∈ starts := by
  unfold Promised
  constructor
  · intro hpromised
    obtain ⟨task, htask, hpromises⟩ := hpromised
    obtain ⟨start, hstart, rfl⟩ := List.mem_map.mp htask
    obtain ⟨hrole, rfl⟩ := promises_probe.mp hpromises
    exact ⟨hrole, hstart⟩
  · intro hbranch
    obtain ⟨hrole, hmem⟩ := hbranch
    exact ⟨.probe address, List.mem_map_of_mem hmem, promises_probe.mpr ⟨hrole, rfl⟩⟩

@[simp] theorem warranted_nil : ¬ Warranted [] role address := by
  simp [Warranted]

@[simp] theorem warranted_cons {task : Task} {tasks : List Task} :
    Warranted (task :: tasks) role address ↔
      task.Warrants role address ∨ Warranted tasks role address := by
  simp [Warranted]

@[simp] theorem warranted_append {front back : List Task} :
    Warranted (front ++ back) role address ↔
      Warranted front role address ∨ Warranted back role address := by
  simp [Warranted, or_and_right, exists_or]

@[simp] theorem warranted_onward {kind : TableKind} {instruction : Instruction} :
    ¬ Warranted (kind.onward instruction) role address := by
  cases kind <;> simp [TableKind.onward]

theorem warranted_probes {starts : List Nat} :
    ¬ Warranted (starts.map .probe) role address := by
  intro hwarranted
  obtain ⟨task, htask, hwarrants⟩ := hwarranted
  obtain ⟨start, hstart, rfl⟩ := List.mem_map.mp htask
  exact warrants_probe hwarrants

end Task

variable {buffer : Buffer} {signatures : Signatures}

/-- Following an instruction puts down or promises what the instruction gives. -/
theorem Follows.holds {instruction : Instruction} {survey after : Survey} {tasks : List Task}
    (h : Follows buffer signatures instruction survey after tasks) (role : Role)
    (address : Nat) :
    (after.script.Holds role address ∨ Task.Promised buffer tasks role address) ↔
      survey.script.Holds role address ∨
        instruction.Gives buffer signatures role address ∨
          instruction.Probes buffer role address := by
  cases h with
  | stop hflow => simp [Instruction.Gives, Instruction.Probes, hflow]
  | onward hflow =>
    rcases hflow with hflow | hflow <;> simp [Instruction.Gives, Instruction.Probes, hflow]
  | call hflow hmethod hlength =>
    simp [Instruction.Gives, Instruction.Probes, hflow, hmethod, Task.promises_arguments]
  | unknown hflow hvalue =>
    simp [Instruction.not_gives_unknown hflow hvalue, Instruction.not_probes_unknown hvalue]
  | jump hflow hvalue =>
    simp [Instruction.Gives, Instruction.Probes, hflow, script_followEdge, Task.promised_probes,
      Instruction.denotes_iff hvalue]
  | conditional hflow hvalue =>
    simp only [Instruction.Gives, Instruction.Probes, hflow, hvalue, script_followEdge,
      Task.promised_cons, Task.promises_probe, Task.promised_probes, Option.mem_toList,
      Instruction.denotes_iff hvalue, Option.some.injEq, exists_eq', true_and, or_false]
    rw [← and_or_left, @or_comm (address = instruction.next)]
  | outside hflow hvalue htarget =>
    rcases hflow with hflow | hflow <;>
      simp [Instruction.Gives, Instruction.Probes, hflow,
        Instruction.not_denotes_outside hvalue htarget]
  | gosub hflow hvalue htarget =>
    simp only [Instruction.Gives, Instruction.Probes, hflow, script_update,
      Script.holds_insertSubroutine, Instruction.denotes_inside hvalue htarget,
      Task.promised_cons, Task.promises_probe, Task.promises_scan, Task.promised_nil, or_false]
    rw [or_assoc, or_left_comm]
  | fork hflow hvalue htarget =>
    simp only [Instruction.Gives, Instruction.Probes, hflow, script_update,
      Script.holds_insertReentry, Instruction.denotes_inside hvalue htarget,
      Task.promised_cons, Task.promises_probe, Task.promises_scan, Task.promised_nil, or_false]
    rw [or_assoc, or_left_comm]
  | tableOutside hflow hvalue htable =>
    simp [Instruction.gives_table hflow, Instruction.not_probes_table hflow,
      Instruction.not_denotes_outside hvalue htable]
  | tableKnown hflow hvalue htable hmem =>
    simp only [Instruction.gives_table hflow, Instruction.not_probes_table hflow,
      Instruction.denotes_inside hvalue htable, Task.promised_onward, or_false]
    refine (or_iff_left_of_imp ?_).symm
    intro hgiven
    obtain ⟨rfl, rfl⟩ := hgiven
    exact hmem
  | tableNew hflow hvalue htable hmem =>
    simp only [Instruction.gives_table hflow, Instruction.not_probes_table hflow, script_update,
      Script.holds_insertTable, Instruction.denotes_inside hvalue htable, Task.promised_cons,
      Task.promises_entries, Task.promised_onward, or_false]
    rw [or_comm]

/-- What an instruction makes follow is what it has probed at once. -/
theorem Follows.implies {instruction : Instruction} {survey after : Survey} {tasks : List Task}
    (h : Follows buffer signatures instruction survey after tasks) (role : Role)
    (address : Nat) :
    (after.script.Implies role address ∨ Task.Warranted tasks role address) ↔
      survey.script.Implies role address ∨ instruction.Probes buffer role address := by
  cases h with
  | stop hflow | call hflow | jump hflow | conditional hflow =>
    simp [Instruction.Probes, hflow, script_followEdge, Task.warranted_probes]
  | onward hflow => rcases hflow with hflow | hflow <;> simp [Instruction.Probes, hflow]
  | unknown hflow hvalue =>
    simp [Instruction.not_probes_unknown hvalue]
  | outside hflow hvalue htarget =>
    rcases hflow with hflow | hflow <;>
      simp [Instruction.Probes, hflow, Instruction.not_denotes_outside hvalue htarget]
  | gosub hflow hvalue htarget =>
    simp only [Instruction.Probes, hflow, script_update, Script.implies_insertSubroutine,
      Instruction.denotes_inside hvalue htarget, Task.warranted_cons, Task.warrants_probe,
      Task.warrants_scan, Task.warranted_nil, or_false]
    rw [or_comm]
  | fork hflow hvalue htarget =>
    simp only [Instruction.Probes, hflow, script_update, Script.implies_insertReentry,
      Instruction.denotes_inside hvalue htarget, Task.warranted_cons, Task.warrants_probe,
      Task.warrants_scan, Task.warranted_nil, or_false]
    rw [or_comm]
  | tableOutside hflow | tableKnown hflow =>
    simp [Instruction.not_probes_table hflow]
  | tableNew hflow =>
    simp [Instruction.not_probes_table hflow, Script.implies_insertTable]

/-- A task adds the same to what is held or promised and to what is given, implied or
warranted. -/
theorem Task.Performs.balance {task : Task} {survey after : Survey} {tasks : List Task}
    (h : Task.Performs buffer signatures survey task after tasks) :
    ∃ gain : Role → Nat → Prop, ∀ role address,
      ((after.script.Holds role address ∨ Promised buffer tasks role address) ↔
        survey.script.Holds role address ∨ task.Promises buffer role address ∨
          gain role address) ∧
      ((after.script.Gives buffer signatures role address ∨
          after.script.Implies role address ∨ Warranted tasks role address) ↔
        survey.script.Gives buffer signatures role address ∨
          survey.script.Implies role address ∨ task.Warrants role address ∨
            gain role address) := by
  cases h with
  | probeKnown hmem =>
    refine ⟨fun _ _ => False, fun role address => ⟨?_, by simp⟩⟩
    simp only [promises_probe, promised_nil, or_false]
    refine (or_iff_left_of_imp ?_).symm
    intro hpromised
    obtain ⟨rfl, rfl⟩ := hpromised
    exact hmem
  | probeNew hmem =>
    refine ⟨fun _ _ => False, fun role address => ⟨?_, ?_⟩⟩
    · simp only [script_note, script_update, Script.holds_insertBranch, promised_cons,
        promises_scan, promised_nil, promises_probe, or_false]
      rw [or_comm]
    · simp [Script.implies_insertBranch,
        (Script.SameImage.insertBranch survey.script _).gives]
  | scanEnd | scanUndecodable | scanRefused =>
    exact ⟨fun _ _ => False, fun role address => ⟨by simp, by simp⟩⟩
  | argumentsDone =>
    exact ⟨fun _ _ => False, fun role address => ⟨by simp [promises_arguments], by simp⟩⟩
  | @scanEntered _ instruction _ _ _ hinside hdecode hclaim hfollow =>
    refine ⟨fun role address => instruction.Gives buffer signatures role address ∨
      instruction.Probes buffer role address, fun role address => ⟨?_, ?_⟩⟩
    · rw [hfollow.holds, Script.holds_claimInstruction hclaim]
      simp
    · rw [hfollow.implies, hfollow.sameImage.gives, Script.gives_claimInstruction hclaim,
        Script.implies_claimInstruction hclaim]
      simp only [warrants_scan, false_or]
      rw [or_assoc, or_left_comm (a := instruction.Gives buffer signatures role address)]
  | argumentValue hrole =>
    refine ⟨fun _ _ => False, fun role address => ⟨?_, by simp⟩⟩
    have hmeans : ¬ BranchRole.none.Means role := by simp [BranchRole.Means]
    simp [promises_arguments_cons, hrole, hmeans]
  | argumentUnknown hrole hvalue =>
    refine ⟨fun _ _ => False, fun role address => ⟨?_, by simp⟩⟩
    simp [promises_arguments_cons, Operand.not_denotes hvalue]
  | argumentOutside hrole hvalue htarget =>
    refine ⟨fun _ _ => False, fun role address => ⟨?_, by simp⟩⟩
    simp [promises_arguments_cons, Operand.denotes_iff hvalue, htarget]
  | @argumentEntered _ _ operand parameter pending value target hrole hvalue htarget =>
    refine ⟨fun role address => role = .branch ∧ address = target,
      fun role address => ⟨?_, ?_⟩⟩
    · have hdenotes : operand.Denotes buffer address ↔ address = target := by
        rw [Operand.denotes_iff hvalue, htarget, Option.some.injEq, eq_comm]
      simp only [script_update, Script.holds_insertRole _ _ _ _ hrole, promised_cons,
        promises_probe, promised_nil, promises_arguments_cons, hdenotes, or_false]
      grind
    · simp only [script_update, Script.implies_insertRole, warranted_cons, warrants_probe,
        warrants_arguments, warranted_nil, or_false, false_or,
        (Script.SameImage.insertRole survey.script target parameter.role).gives]
      grind
  | tableEnd hentry =>
    refine ⟨fun _ _ => False, fun role address => ⟨?_, ?_⟩⟩
    · rw [script_closeTable, Script.holds_placeTable]
      simp
    · rw [script_closeTable, Script.gives_placeTable, Script.implies_placeTable]
      simp
  | @tableEntry kind table destination found hentry =>
    refine ⟨fun role address => (role = .destination ∨ role = .branch ∨
      role = .subroutine ∧ kind = .subroutine) ∧ address = destination,
      fun role address => ⟨?_, ?_⟩⟩
    · simp only [script_update, Script.holds_insertDestination, promised_cons, promises_probe,
        promises_entries, promised_nil, or_false]
      grind
    · simp only [script_update, Script.implies_insertDestination, warranted_cons,
        warrants_probe, warrants_entries, warranted_nil, or_false, false_or,
        (Script.SameImage.insertDestination survey.script destination kind).gives]
      grind

/-- What is held or promised is what is given, implied or warranted. -/
def Balanced (buffer : Buffer) (signatures : Signatures) (tasks : List Task)
    (survey : Survey) : Prop :=
  ∀ role address,
    (survey.script.Holds role address ∨ Task.Promised buffer tasks role address) ↔
      survey.script.Gives buffer signatures role address ∨
        survey.script.Implies role address ∨ Task.Warranted tasks role address

namespace Balanced

theorem step {task : Task} {tasks rest : List Task} {survey after : Survey}
    (hperform : Task.Performs buffer signatures survey task after tasks)
    (h : Balanced buffer signatures (task :: rest) survey) :
    Balanced buffer signatures (tasks ++ rest) after := by
  obtain ⟨gain, hgain⟩ := hperform.balance
  intro role address
  obtain ⟨hheld, hgiven⟩ := hgain role address
  have hbefore := h role address
  simp only [Task.promised_cons, Task.warranted_cons] at hbefore
  calc after.script.Holds role address ∨ Task.Promised buffer (tasks ++ rest) role address
      ↔ (after.script.Holds role address ∨ Task.Promised buffer tasks role address) ∨
          Task.Promised buffer rest role address := by
        rw [Task.promised_append, or_assoc]
    _ ↔ (survey.script.Holds role address ∨ task.Promises buffer role address ∨
          Task.Promised buffer rest role address) ∨ gain role address := by
        rw [hheld]
        grind
    _ ↔ (survey.script.Gives buffer signatures role address ∨
          survey.script.Implies role address ∨ task.Warrants role address ∨
            gain role address) ∨ Task.Warranted rest role address := by
        rw [hbefore]
        grind
    _ ↔ after.script.Gives buffer signatures role address ∨
          after.script.Implies role address ∨
            Task.Warranted (tasks ++ rest) role address := by
        rw [← hgiven, Task.warranted_append]
        grind

theorem probes {found : Script} {log : Array Event} (h : found.Unexplored) :
    Balanced buffer signatures (found.entrypoints.map .probe) ⟨found, log⟩ := by
  have hgives : ∀ role address, ¬ found.Gives buffer signatures role address := by
    rintro role address ⟨instruction, hmem, -⟩
    exact h.tokens _ hmem
  have htables : ∀ address, ¬ found.Implies .destination address := by
    rintro address ⟨table, hmem, -⟩
    exact h.tokens _ hmem
  intro role address
  rw [Task.promised_probes]
  simp only [hgives, Task.warranted_probes, or_false, false_or]
  cases role with
  | destination =>
    simp only [htables, iff_false]
    rw [h.rest]
    simp [Script.Holds, Script.blank]
  | branch | subroutine | reentry =>
    rw [h.rest]
    simp [Script.Holds, Script.Implies, Script.blank]
  | table kind =>
    rw [h.rest]
    cases kind <;> simp [Script.Holds, Script.Implies, Script.tables, Script.blank]

theorem run {tasks : List Task} {survey explored : Survey}
    (h : Balanced buffer signatures tasks survey)
    (hrun : run buffer signatures tasks survey = (explored, .ok ())) :
    Balanced buffer signatures [] explored :=
  run_induction (Balanced buffer signatures) step h hrun

end Balanced

end ScriptDisassembler
