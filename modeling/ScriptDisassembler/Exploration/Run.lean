import ScriptDisassembler.Exploration.Task

/-!
Performing tasks until none is left. A task either uses up a free slot of the script or
leaves behind tasks that together weigh less than it does, and so the work ends.
-/

namespace ScriptDisassembler

/-- A bound on the work that a task causes as long as no slot is claimed. -/
def Task.weight (buffer : Buffer) : Task → Nat
  | .probe _ => 3
  | .scan _ => 2
  | .arguments _ _ pending => 4 * pending.length + 1
  | .entries _ _ found => 4 * (buffer.wordCount - found.length) + 1

def stackWeight (buffer : Buffer) : List Task → Nat
  | [] => 0
  | task :: rest => task.weight buffer + stackWeight buffer rest

namespace Script

@[simp] theorem unclaimed_insertBranch (script : Script) (address : Nat) :
    (script.insertBranch address).unclaimed = script.unclaimed := rfl

@[simp] theorem unclaimed_insertSubroutine (script : Script) (address : Nat) :
    (script.insertSubroutine address).unclaimed = script.unclaimed := rfl

@[simp] theorem unclaimed_insertReentry (script : Script) (address : Nat) :
    (script.insertReentry address).unclaimed = script.unclaimed := rfl

@[simp] theorem unclaimed_insertTable (script : Script) (kind : TableKind) (table : Nat) :
    (script.insertTable kind table).unclaimed = script.unclaimed := by
  cases kind <;> rfl

@[simp] theorem unclaimed_insertDestination (script : Script) (kind : TableKind)
    (address : Nat) : (script.insertDestination kind address).unclaimed = script.unclaimed := by
  cases kind <;> rfl

end Script

theorem script_followEdge (buffer : Buffer) (edge : Edge) (offset : Nat) (value : Int32)
    (survey : Survey) :
    (followEdge buffer edge offset value survey).1.script = survey.script := by
  simp only [followEdge]
  split <;> rfl

theorem unclaimed_visit (buffer : Buffer) (edge : Edge) (offset : Nat) (value : Int32)
    (enter : Script → Nat → Script) (rest : List Task) (survey : Survey)
    (henter : ∀ script address, (enter script address).unclaimed = script.unclaimed) :
    (visit buffer edge offset value enter rest survey).1.script.unclaimed =
      survey.script.unclaimed := by
  have h := script_followEdge buffer edge offset value survey
  simp only [visit]
  split <;> simp_all [Survey.update]

theorem unclaimed_openTable (buffer : Buffer) (kind : TableKind) (offset : Nat) (value : Int32)
    (rest : List Task) (survey : Survey) :
    (openTable buffer kind offset value rest survey).1.script.unclaimed =
      survey.script.unclaimed := by
  have h := script_followEdge buffer .table offset value survey
  simp only [openTable]
  split
  · simp_all
  · split <;> simp_all [Survey.update]

theorem unclaimed_followBranch (instruction : Instruction) (act : Int32 → Survey → Outcome)
    (survey : Survey)
    (hact : ∀ value, (act value survey).1.script.unclaimed = survey.script.unclaimed) :
    (followBranch instruction act survey).1.script.unclaimed = survey.script.unclaimed := by
  simp only [followBranch]
  split
  · exact hact _
  · rfl

theorem script_followCall (signatures : Signatures) (call : Instruction) (survey : Survey) :
    (followCall signatures call survey).1.script = survey.script := by
  simp only [followCall]
  split
  · rfl
  · split <;> rfl

theorem unclaimed_follow (buffer : Buffer) (signatures : Signatures)
    (instruction : Instruction) (survey : Survey) :
    (follow buffer signatures instruction survey).1.script.unclaimed =
      survey.script.unclaimed := by
  simp only [follow]
  split
  · rfl
  · rfl
  · rfl
  · rw [script_followCall]
  · exact unclaimed_followBranch _ _ _ fun _ => unclaimed_visit _ _ _ _ _ _ _ fun _ _ => rfl
  · exact unclaimed_followBranch _ _ _ fun _ => by rw [script_followEdge]
  · exact unclaimed_followBranch _ _ _ fun _ => unclaimed_visit _ _ _ _ _ _ _ fun _ _ => rfl
  · exact unclaimed_followBranch _ _ _ fun _ => unclaimed_visit _ _ _ _ _ _ _ fun _ _ => rfl
  · exact unclaimed_followBranch _ _ _ fun _ => unclaimed_openTable ..
  · exact unclaimed_followBranch _ _ _ fun _ => unclaimed_openTable ..

theorem unclaimed_closeTable_le (table : Nat) (found : List Nat) (survey : Survey) :
    (closeTable table found survey).script.unclaimed ≤ survey.script.unclaimed := by
  simp only [closeTable]
  split <;> exact Script.unclaimed_place_le _ _

theorem weight_visit_le (buffer : Buffer) (edge : Edge) (offset : Nat) (value : Int32)
    (enter : Script → Nat → Script) (rest tasks : List Task) (survey : Survey)
    (h : (visit buffer edge offset value enter rest survey).2 = .ok tasks) :
    stackWeight buffer tasks ≤ 3 + stackWeight buffer rest := by
  simp only [visit] at h
  split at h <;> cases h <;> simp [stackWeight, Task.weight]

/-- A task claims a slot or leaves lighter tasks behind. -/
theorem Task.perform_lighter {buffer : Buffer} {signatures : Signatures} {task : Task}
    {survey after : Survey} {tasks : List Task}
    (h : task.perform buffer signatures survey = (after, .ok tasks)) :
    after.script.unclaimed < survey.script.unclaimed ∨
      after.script.unclaimed ≤ survey.script.unclaimed ∧
        stackWeight buffer tasks < task.weight buffer := by
  cases task with
  | probe start =>
    right
    simp only [perform, probeStep] at h
    split at h <;> cases h <;> simp [stackWeight, weight, Survey.note, Survey.update]
  | scan offset =>
    simp only [perform, scanStep] at h
    split at h
    · cases h
      simp [stackWeight, weight]
    · split at h
      · cases h
      · cases h
        simp [stackWeight, weight, Survey.note]
      · split at h
        · cases h
          simp [stackWeight, weight, Survey.note]
        · next hclaim =>
          left
          have hunclaimed := congrArg (fun outcome => outcome.1.script.unclaimed) h
          simp only [unclaimed_follow] at hunclaimed
          rw [← hunclaimed]
          exact Script.unclaimed_claimInstruction_lt hclaim
  | arguments call method pending =>
    right
    cases pending with
    | nil =>
      simp only [perform, argumentStep] at h
      cases h
      simp [stackWeight, weight]
    | cons head pending =>
      obtain ⟨operand, parameter⟩ := head
      simp only [perform, argumentStep] at h
      split at h
      · cases h
        simp [stackWeight, weight]
      · cases h
        simp [stackWeight, weight, Survey.note]
      · have hunclaimed := congrArg (fun outcome => outcome.1.script.unclaimed) h
        have hweight := weight_visit_le _ _ _ _ _ _ _ _ (congrArg Prod.snd h)
        simp only at hunclaimed
        rw [unclaimed_visit _ _ _ _ _ _ _ fun _ _ => by split <;> simp] at hunclaimed
        simp only [stackWeight, weight, List.length_cons] at hweight ⊢
        omega
  | entries kind table found =>
    right
    simp only [perform, entryStep] at h
    split at h
    · cases h
      refine ⟨unclaimed_closeTable_le table found survey, ?_⟩
      simp [stackWeight, weight]
    · next hinside =>
      split at h
      · cases h
      · split at h
        · cases h
          refine ⟨unclaimed_closeTable_le table found survey, ?_⟩
          simp [stackWeight, weight]
        · cases h
          refine ⟨by simp [Survey.update], ?_⟩
          simp only [Buffer.length, not_or] at hinside
          simp only [stackWeight, weight, List.length_append, List.length_cons, List.length_nil]
          omega

theorem stackWeight_append (buffer : Buffer) (front back : List Task) :
    stackWeight buffer (front ++ back) = stackWeight buffer front + stackWeight buffer back := by
  induction front with
  | nil => simp [stackWeight]
  | cons task rest ih =>
    rw [List.cons_append, stackWeight, ih, stackWeight, Nat.add_assoc]

/-- Performs tasks from the top of the stack until none is left or one has failed. What is
known at that point is kept in either case. -/
def run (buffer : Buffer) (signatures : Signatures) (tasks : List Task) (survey : Survey) :
    Survey × Except Fault Unit :=
  match tasks with
  | [] => (survey, .ok ())
  | task :: rest =>
    match _h : task.perform buffer signatures survey with
    | (after, .error fault) => (after, .error fault)
    | (after, .ok more) => run buffer signatures (more ++ rest) after
termination_by (survey.script.unclaimed, stackWeight buffer tasks)
decreasing_by
  have hlighter := Task.perform_lighter _h
  rw [stackWeight_append]
  simp only [stackWeight] at hlighter ⊢
  rcases hlighter with hlt | ⟨hle, hweight⟩
  · exact Prod.Lex.left _ _ hlt
  · rcases Nat.lt_or_eq_of_le hle with hlt | heq
    · exact Prod.Lex.left _ _ hlt
    · rw [heq]
      exact Prod.Lex.right _ (by omega)

theorem run_nil (buffer : Buffer) (signatures : Signatures) (survey : Survey) :
    run buffer signatures [] survey = (survey, .ok ()) := by
  rw [run]

theorem run_cons_ok {buffer : Buffer} {signatures : Signatures} {task : Task}
    {survey after : Survey} {more : List Task} (rest : List Task)
    (h : task.perform buffer signatures survey = (after, .ok more)) :
    run buffer signatures (task :: rest) survey =
      run buffer signatures (more ++ rest) after := by
  rw [run]
  split <;> simp_all

theorem run_cons_error {buffer : Buffer} {signatures : Signatures} {task : Task}
    {survey after : Survey} {fault : Fault} (rest : List Task)
    (h : task.perform buffer signatures survey = (after, .error fault)) :
    run buffer signatures (task :: rest) survey = (after, .error fault) := by
  rw [run]
  split <;> simp_all

end ScriptDisassembler
