import ScriptDisassembler.Proofs.Reachable

/-!
The moments of an exploration in order, with the depth of the call that each task belongs
to. A subroutine, an argument and an entry of a table are explored by a call of their own,
one deeper than the call that waits for it; the target of a jump is explored by the call
that came to the jump, after what that call has still to do. The moments are no others than
those between two tasks of the exploration.
-/

namespace ScriptDisassembler

/-- A task and the depth of the call that it belongs to. -/
structure Nested where
  depth : Nat
  task : Task
deriving DecidableEq

def Task.isProbe : Task → Bool
  | .probe _ => true
  | .scan _ | .arguments .. | .entries .. => false

/-- The tasks that a call leaves behind, with the calls that they belong to. A probe for which
other work waits is a call of its own, and probes for which none waits belong to the call
that leaves them. -/
def nest (depth : Nat) : List Task → List Nested
  | [] => []
  | task :: waiting =>
    if task.isProbe && !waiting.all Task.isProbe then
      ⟨depth + 1, task⟩ :: waiting.map (⟨depth, ·⟩)
    else
      (task :: waiting).map (⟨depth, ·⟩)

@[simp] theorem map_task_nest (depth : Nat) (tasks : List Task) :
    (nest depth tasks).map Nested.task = tasks := by
  have hmap : ∀ tasks : List Task, (tasks.map (Nested.mk depth)).map Nested.task = tasks := by
    intro tasks
    rw [List.map_map]
    exact List.map_id tasks
  cases tasks with
  | nil => rfl
  | cons task waiting =>
    simp only [nest]
    split
    · rw [List.map_cons, hmap]
    · exact hmap _

/-- Only a probe is ever deeper than the call that leaves it, and then by one. -/
theorem depth_of_mem_nest {depth : Nat} {tasks : List Task} {nested : Nested}
    (h : nested ∈ nest depth tasks) :
    nested.task ∈ tasks ∧ (nested.depth = depth ∨
      nested.depth = depth + 1 ∧ nested.task.isProbe = true ∧
        ∃ task ∈ tasks, task.isProbe = false) := by
  cases tasks with
  | nil => cases h
  | cons task waiting =>
    simp only [nest] at h
    split at h
    · next hwaits =>
      simp only [Bool.and_eq_true, Bool.not_eq_true', List.all_eq_false] at hwaits
      obtain ⟨hprobe, other, hother, hwork⟩ := hwaits
      rcases List.mem_cons.mp h with rfl | hmem
      · exact ⟨List.mem_cons_self, .inr ⟨rfl, hprobe, other, List.mem_cons_of_mem _ hother,
          by simpa using hwork⟩⟩
      · obtain ⟨left, hleft, rfl⟩ := List.mem_map.mp hmem
        exact ⟨List.mem_cons_of_mem _ hleft, .inl rfl⟩
    · obtain ⟨left, hleft, rfl⟩ := List.mem_map.mp h
      exact ⟨hleft, .inl rfl⟩

theorem nest_alone (depth : Nat) {tasks : List Task} (h : tasks.all Task.isProbe = true) :
    nest depth tasks = tasks.map (⟨depth, ·⟩) := by
  cases tasks with
  | nil => rfl
  | cons task waiting =>
    rw [List.all_cons, Bool.and_eq_true] at h
    simp only [nest, h.2, Bool.not_true, Bool.and_false, Bool.false_eq_true, ↓reduceIte]

theorem depth_of_mem_nest_work {depth : Nat} {task : Task} {waiting : List Task} {nested : Nested}
    (htask : task.isProbe = false) (h : nested ∈ nest depth (task :: waiting)) :
    nested.depth = depth := by
  simp only [nest, htask, Bool.false_and, Bool.false_eq_true, ↓reduceIte] at h
  obtain ⟨left, -, rfl⟩ := List.mem_map.mp h
  rfl

theorem depth_of_mem_nest_call {depth start : Nat} {task : Task} {nested : Nested}
    (htask : task.isProbe = false) (h : nested ∈ nest depth [.probe start, task]) :
    nested.depth = if nested.task.isProbe = true then depth + 1 else depth := by
  have hprobe : (Task.probe start).isProbe = true := rfl
  simp only [nest, hprobe, htask, List.all_cons, Bool.false_and, Bool.not_false, Bool.and_self,
    ↓reduceIte, List.map_cons, List.map_nil, List.mem_cons, List.not_mem_nil, or_false] at h
  rcases h with rfl | rfl
  · simp only [hprobe, ↓reduceIte]
  · simp only [htask, Bool.false_eq_true, ↓reduceIte]

/-- What is left to be done, in calls that have not ended, and what is known. -/
structure Moment where
  stack : List Nested
  survey : Survey
deriving DecidableEq

variable {buffer : Buffer} {signatures : Signatures}

/-- An instruction that is followed calls for a subroutine or for another thread; the targets
of jumps stay with the call that came to the jump. -/
theorem Follows.depth_eq {instruction : Instruction} {survey after : Survey} {tasks : List Task}
    {depth : Nat} {nested : Nested}
    (h : Follows buffer signatures instruction survey after tasks)
    (hmem : nested ∈ nest depth tasks) :
    nested.depth =
      if nested.task.isProbe = true ∧
          (instruction.opcode.flow = .gosub ∨ instruction.opcode.flow = .fork) then
        depth + 1
      else depth := by
  have honward : ∀ kind : TableKind, nested ∈ nest depth (kind.onward instruction) →
      nested.depth = depth := by
    intro kind hmem
    cases kind with
    | jump => cases hmem
    | subroutine => exact depth_of_mem_nest_work rfl hmem
  cases h with
  | stop hflow => cases hmem
  | onward hflow =>
    rw [depth_of_mem_nest_work rfl hmem]
    rcases hflow with hflow | hflow <;> simp [hflow]
  | call hflow =>
    rw [depth_of_mem_nest_work rfl hmem]
    simp [hflow]
  | unknown hflow | outside hflow =>
    have hscan := depth_of_mem_nest hmem
    rw [List.mem_singleton] at hscan
    rw [depth_of_mem_nest_work rfl hmem, hscan.1]
    simp [Task.isProbe]
  | jump hflow | conditional hflow =>
    rw [nest_alone depth (by simp [Task.isProbe])] at hmem
    obtain ⟨left, -, rfl⟩ := List.mem_map.mp hmem
    simp [hflow]
  | gosub hflow | fork hflow => simpa [hflow] using depth_of_mem_nest_call rfl hmem
  | @tableOutside kind _ hflow | @tableKnown kind _ _ hflow =>
    rw [honward kind hmem]
    cases kind <;> simp [hflow, TableKind.flow]
  | @tableNew kind _ _ hflow =>
    rw [depth_of_mem_nest_work rfl hmem]
    cases kind <;> simp [hflow, TableKind.flow]

/-- Whatever other than a scan leaves a probe behind calls for it. -/
theorem Task.Performs.depth_eq {task : Task} {survey after : Survey} {more : List Task}
    {depth : Nat} {nested : Nested}
    (h : Task.Performs buffer signatures survey task after more)
    (htask : ∀ offset, task ≠ .scan offset) (hmem : nested ∈ nest depth more) :
    nested.depth = if nested.task.isProbe = true then depth + 1 else depth := by
  cases h with
  | probeKnown | argumentsDone | tableEnd => cases hmem
  | scanEnd | scanUndecodable | scanRefused | scanEntered => exact absurd rfl (htask _)
  | probeNew | argumentValue | argumentUnknown | argumentOutside =>
    have hleft := (depth_of_mem_nest hmem).1
    rw [List.mem_singleton] at hleft
    rw [depth_of_mem_nest_work rfl hmem, hleft]
    rfl
  | argumentEntered | tableEntry => exact depth_of_mem_nest_call rfl hmem

/-- The measure that makes an exploration end. -/
theorem Task.perform_decreases {task : Task} {survey after : Survey} {more : List Task}
    (h : task.perform buffer signatures survey = (after, .ok more)) (rest : List Task) :
    Prod.Lex (· < ·) (· < ·) (after.script.unclaimed, stackWeight buffer (more ++ rest))
      (survey.script.unclaimed, stackWeight buffer (task :: rest)) := by
  have hlighter := Task.perform_lighter h
  rw [stackWeight_append]
  simp only [stackWeight] at hlighter ⊢
  rcases hlighter with hlt | ⟨hle, hweight⟩
  · exact Prod.Lex.left _ _ hlt
  · rcases Nat.lt_or_eq_of_le hle with hlt | heq
    · exact Prod.Lex.left _ _ hlt
    · rw [heq]
      exact Prod.Lex.right _ (by omega)

/-- The moments from one on, up to the end of the exploration or to the task that fails. -/
def course (buffer : Buffer) (signatures : Signatures) (stack : List Nested) (survey : Survey) :
    List Moment :=
  match stack with
  | [] => [⟨[], survey⟩]
  | nested :: rest =>
    match _h : nested.task.perform buffer signatures survey with
    | (_, .error _) => [⟨nested :: rest, survey⟩]
    | (after, .ok more) =>
      ⟨nested :: rest, survey⟩ :: course buffer signatures (nest nested.depth more ++ rest) after
termination_by (survey.script.unclaimed, stackWeight buffer (stack.map Nested.task))
decreasing_by
  rw [List.map_append, map_task_nest]
  exact Task.perform_decreases _h _

theorem mem_course_start (stack : List Nested) (survey : Survey) :
    ⟨stack, survey⟩ ∈ course buffer signatures stack survey := by
  fun_cases course buffer signatures stack survey <;> exact List.mem_cons_self

/-- A moment is followed by the one after its task. -/
theorem mem_course_step {stack rest : List Nested} {survey before after : Survey}
    {nested : Nested} {more : List Task}
    (hmem : ⟨nested :: rest, before⟩ ∈ course buffer signatures stack survey)
    (hperform : nested.task.perform buffer signatures before = (after, .ok more)) :
    ⟨nest nested.depth more ++ rest, after⟩ ∈ course buffer signatures stack survey := by
  fun_induction course buffer signatures stack survey with
  | case1 survey => simp at hmem
  | case2 survey head tail explored fault hfails =>
    simp only [List.mem_singleton, Moment.mk.injEq, List.cons.injEq] at hmem
    obtain ⟨⟨rfl, rfl⟩, rfl⟩ := hmem
    rw [hfails] at hperform
    cases hperform
  | case3 survey head tail left others hothers ih =>
    rcases List.mem_cons.mp hmem with heq | hmem
    · simp only [Moment.mk.injEq, List.cons.injEq] at heq
      obtain ⟨⟨rfl, rfl⟩, rfl⟩ := heq
      rw [hothers] at hperform
      cases hperform
      exact List.mem_cons_of_mem _ (mem_course_start _ _)
    · exact List.mem_cons_of_mem _ (ih hmem)

theorem Exploring.course {stack : List Nested} {survey : Survey}
    (h : Exploring buffer signatures (stack.map Nested.task) survey) :
    ∀ moment ∈ course buffer signatures stack survey,
      Exploring buffer signatures (moment.stack.map Nested.task) moment.survey := by
  fun_induction ScriptDisassembler.course buffer signatures stack survey with
  | case1 survey =>
    intro moment hmem
    rw [List.mem_singleton.mp hmem]
    exact h
  | case2 survey head tail explored fault hfails =>
    intro moment hmem
    rw [List.mem_singleton.mp hmem]
    exact h
  | case3 survey head tail after more hperform ih =>
    have hnext : Exploring buffer signatures ((nest head.depth more ++ tail).map Nested.task)
        after := by
      rw [List.map_append, map_task_nest]
      exact h.step hperform
    intro moment hmem
    rcases List.mem_cons.mp hmem with rfl | hmem
    · exact h
    · exact ih hnext moment hmem

namespace Buffer

/-- The moments of the exploration of a buffer. It begins with a call for each entrypoint. -/
def course (buffer : Buffer) (signatures : Signatures) : List Moment :=
  match findEntrypoints buffer entrypointLimit 0 (.blank buffer.wordCount) with
  | .error _ => []
  | .ok script =>
    ScriptDisassembler.course buffer signatures
      (script.entrypoints.map fun start => ⟨1, .probe start⟩)
      ⟨script, #[.entrypointsFound script.entrypoints.length]⟩

end Buffer

/-- The moments are all those at which an exploration is between two tasks. -/
theorem exploring_iff {tasks : List Task} {survey : Survey} :
    Exploring buffer signatures tasks survey ↔
      ∃ stack, stack.map Nested.task = tasks ∧ ⟨stack, survey⟩ ∈ buffer.course signatures := by
  constructor
  · intro h
    induction h with
    | @start found hfound =>
      refine ⟨found.entrypoints.map fun start => ⟨1, .probe start⟩, ?_, ?_⟩
      · rw [List.map_map]
        rfl
      · rw [Buffer.course, hfound]
        exact mem_course_start _ _
    | step hbefore hperform ih =>
      obtain ⟨stack, htasks, hmem⟩ := ih
      obtain ⟨nested, rest, rfl, rfl, rfl⟩ := List.map_eq_cons_iff.mp htasks
      refine ⟨nest nested.depth _ ++ rest, by rw [List.map_append, map_task_nest], ?_⟩
      unfold Buffer.course at hmem ⊢
      split at hmem
      · cases hmem
      · exact mem_course_step hmem hperform
  · rintro ⟨stack, rfl, hmem⟩
    unfold Buffer.course at hmem
    split at hmem
    · cases hmem
    · next hfound =>
      refine Exploring.course ?_ _ hmem
      rw [List.map_map]
      exact .start hfound

end ScriptDisassembler
