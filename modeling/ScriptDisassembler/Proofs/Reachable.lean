import ScriptDisassembler.Proofs.Growth
import ScriptDisassembler.Proofs.Reads

/-!
The states that a disassembly goes through. An exploration is at one of the stacks of tasks
that lead from the entrypoints to its end or to its fault. The scripts on the way are those
between two tasks and, inside of a task, those between two names or two tokens. Every
disassembly is one such way, whatever comes of it.
-/

namespace ScriptDisassembler

/-- The exploration of a buffer comes to a point where these tasks are left and so much is
known. -/
inductive Exploring (buffer : Buffer) (signatures : Signatures) : List Task → Survey → Prop
  | start {found : Script}
      (hfound : findEntrypoints buffer entrypointLimit 0 (.blank buffer.wordCount) = .ok found) :
      Exploring buffer signatures (found.entrypoints.map .probe)
        ⟨found, #[.entrypointsFound found.entrypoints.length]⟩
  | step {task : Task} {more rest : List Task} {survey after : Survey}
      (h : Exploring buffer signatures (task :: rest) survey)
      (hperform : task.perform buffer signatures survey = (after, .ok more)) :
      Exploring buffer signatures (more ++ rest) after

/-- The scripts that a disassembly goes through. -/
inductive Script.Reachable (buffer : Buffer) (signatures : Signatures) : Script → Prop
  | entering {limit : Nat} {script : Script} (hlimit : limit ≤ entrypointLimit)
      (hfound : findEntrypoints buffer limit 0 (.blank buffer.wordCount) = .ok script) :
      Reachable buffer signatures script
  | exploring {tasks : List Task} {survey : Survey} (h : Exploring buffer signatures tasks survey) :
      Reachable buffer signatures survey.script
  /-- Some operands of an instruction that is being entered have their names. -/
  | naming {offset : Nat} {rest : List Task} {survey : Survey} {instruction : Instruction}
      {entered : Script} {front : List Operand}
      (h : Exploring buffer signatures (.scan offset :: rest) survey)
      (hdecode : decode buffer offset = .ok instruction)
      (hclaim : survey.script.claimInstruction instruction = .ok entered)
      (hfront : front <+: instruction.operands) :
      Reachable buffer signatures
        { survey.script with labels := (labelOperands front survey.script.labels).2 }
  /-- The instruction and some of its operands have their tokens. -/
  | placing {offset : Nat} {rest : List Task} {survey : Survey} {instruction : Instruction}
      {entered : Script} {front : List Operand}
      (h : Exploring buffer signatures (.scan offset :: rest) survey)
      (hdecode : decode buffer offset = .ok instruction)
      (hclaim : survey.script.claimInstruction instruction = .ok entered)
      (hfront : front <+: (labelOperands instruction.operands survey.script.labels).1) :
      Reachable buffer signatures
        (front.foldl (fun script operand => script.place (.operand operand))
          ({ survey.script with
              labels := (labelOperands instruction.operands survey.script.labels).2 }.place
            (.instruction
              { instruction with
                operands := (labelOperands instruction.operands survey.script.labels).1 })))
  /-- Some destinations of a table that is being entered have their names. -/
  | namingTable {kind : TableKind} {table : Nat} {found front : List Nat} {rest : List Task}
      {survey : Survey} (h : Exploring buffer signatures (.entries kind table found :: rest) survey)
      (hentry : nextDestination? buffer survey.script table found = .ok none)
      (hfront : front <+: found) :
      Reachable buffer signatures
        { survey.script with labels := (labelDestinations table 0 front survey.script.labels).2 }
  | filling {count : Nat} {survey : Survey} {script : Script}
      (h : Exploring buffer signatures [] survey) (hcount : count ≤ buffer.wordCount)
      (hfilled : fillGaps buffer count 0 survey.script = .ok script) :
      Reachable buffer signatures script

theorem entrypoints_placeEntrypoint (script : Script) (index target : Nat) :
    (script.placeEntrypoint index target).entrypoints = script.entrypoints ++ [target] := by
  obtain ⟨name, slots, labels, heq⟩ := script.placeEntrypoint_eq index target
  rw [heq]

namespace Exploring

variable {buffer : Buffer} {signatures : Signatures} {tasks : List Task} {survey : Survey}

theorem progress (h : Exploring buffer signatures tasks survey) : Progress buffer tasks survey := by
  induction h with
  | start hfound => exact .probes (.found hfound)
  | step _ hperform ih => exact ih.step (Task.performs_of_perform hperform)

/-- What the probes of the entrypoints have, and what every task hands on to those that it
leaves behind, all tasks on the way have. -/
theorem tasks_induction (property : Task → Prop)
    (hprobe : ∀ {start : Nat} {address : Int}, buffer.headerOffset? address = some start →
      property (.probe start))
    (hleaves : ∀ {script : Script} {task more : Task}, task.Leaves buffer script more →
      property task → property more)
    (h : Exploring buffer signatures tasks survey) : ∀ task ∈ tasks, property task := by
  induction h with
  | @start found hfound =>
    have hinvariant := findEntrypoints_induction
      (fun _ script => ∀ start ∈ script.entrypoints, property (.probe start)) ?_
      (fun start hmem => absurd hmem List.not_mem_nil) hfound
    · obtain ⟨-, hstarts⟩ := hinvariant
      intro task htask
      obtain ⟨start, hmem, rfl⟩ := List.mem_map.mp htask
      exact hstarts start hmem
    · intro index target word script hword htarget hbefore start hstart
      rw [entrypoints_placeEntrypoint, List.mem_append, List.mem_singleton] at hstart
      rcases hstart with hmem | rfl
      · exact hbefore start hmem
      · exact hprobe htarget
  | @step task more rest survey after hbefore hperform ih =>
    intro other hother
    rcases List.mem_append.mp hother with hmore | hrest
    · exact hleaves ((Task.performs_of_perform hperform).leaves other hmore)
        (ih task List.mem_cons_self)
    · exact ih other (List.mem_cons_of_mem task hrest)

/-- A run that starts on the way ends with no task left, or with a task that fails. -/
theorem run_cases (h : Exploring buffer signatures tasks survey) :
    (∃ explored, run buffer signatures tasks survey = (explored, .ok ()) ∧
        Exploring buffer signatures [] explored) ∨
      ∃ task rest before explored fault, Exploring buffer signatures (task :: rest) before ∧
        task.perform buffer signatures before = (explored, .error fault) ∧
        run buffer signatures tasks survey = (explored, .error fault) := by
  fun_induction run buffer signatures tasks survey with
  | case1 survey => exact .inl ⟨survey, rfl, h⟩
  | case2 survey task rest explored fault hperform =>
    exact .inr ⟨task, rest, survey, explored, fault, h, hperform, rfl⟩
  | case3 survey task rest after more hperform ih => exact ih (h.step hperform)

end Exploring

/-- A property of the tokens and slots of a script that no placing of a token destroys. -/
structure Script.Placed (property : Script → Prop) : Prop where
  congr : ∀ {script other : Script}, property script → other.tokens = script.tokens →
    other.slots = script.slots → property other
  place : ∀ {script : Script} (token : Token), property script → property (script.place token)

namespace Script.Placed

variable {buffer : Buffer} {signatures : Signatures} {property : Script → Prop}

theorem operands (h : Placed property) {script : Script} (hscript : property script)
    (operands : List Operand) :
    property (operands.foldl (fun script operand => script.place (.operand operand)) script) := by
  induction operands generalizing script with
  | nil => exact hscript
  | cons operand rest ih => exact ih (h.place _ hscript)

theorem places (h : Placed property) {task : Task} {script after : Script}
    (hplaces : task.Places buffer script after) (hscript : property script) : property after := by
  cases hplaces with
  | nothing hsame => exact h.congr hscript hsame.tokens hsame.slots
  | instruction hdecode hclaim hsame =>
    obtain ⟨-, -, rfl⟩ := claimInstruction_ok hclaim
    refine h.congr (h.operands (h.place _ ?_) _) hsame.tokens hsame.slots
    exact h.congr hscript rfl rfl
  | table => exact h.place _ (h.congr hscript rfl rfl)

theorem found (h : Placed property) (hblank : property (.blank buffer.wordCount)) {limit : Nat}
    {script : Script}
    (hfound : findEntrypoints buffer limit 0 (.blank buffer.wordCount) = .ok script) :
    property script := by
  have hinvariant := findEntrypoints_induction (fun _ script => property script) ?_ hblank hfound
  · obtain ⟨-, hscript⟩ := hinvariant
    exact hscript
  · intro index target word script hword htarget hscript
    exact h.place _ (h.congr hscript rfl rfl)

theorem exploring (h : Placed property) (hblank : property (.blank buffer.wordCount))
    {tasks : List Task} {survey : Survey} (hreached : Exploring buffer signatures tasks survey) :
    property survey.script := by
  induction hreached with
  | start hfound => exact h.found hblank hfound
  | step hbefore hperform ih => exact h.places (Task.performs_of_perform hperform).places ih

/-- What holds of a blank script holds of every script on the way. -/
theorem reachable (h : Placed property) (hblank : property (.blank buffer.wordCount))
    {script : Script} (hreached : script.Reachable buffer signatures) : property script := by
  cases hreached with
  | entering hlimit hfound => exact h.found hblank hfound
  | exploring hexploring => exact h.exploring hblank hexploring
  | naming hexploring hdecode hclaim hfront | namingTable hexploring hentry hfront =>
    exact h.congr (h.exploring hblank hexploring) rfl rfl
  | placing hexploring hdecode hclaim hfront =>
    refine h.operands (h.place _ ?_) _
    exact h.congr (h.exploring hblank hexploring) rfl rfl
  | filling hexploring hcount hfilled =>
    refine fillGaps_induction (fun _ script => property script) ?_ ?_
      (h.exploring hblank hexploring) hfilled
    · intro index script hclaimed hscript
      exact hscript
    · intro index word script hunclaimed hword hscript
      exact h.place _ hscript

end Script.Placed

/-- A disassembly fills the gaps when nothing is left to be explored, unless a task fails on
the way there. In either case all that was reported is kept. -/
theorem trace_cases (bytes : List UInt8) (signatures : Signatures) :
    (∃ explored script, Exploring (.ofBytes bytes) signatures [] explored ∧
        fillGaps (.ofBytes bytes) (Buffer.ofBytes bytes).wordCount 0 explored.script = .ok script ∧
        trace bytes signatures =
          ⟨trailingReport bytes ++ explored.log.push script.summary, .ok script⟩) ∨
      ∃ task rest survey explored fault,
        Exploring (.ofBytes bytes) signatures (task :: rest) survey ∧
        task.perform (.ofBytes bytes) signatures survey = (explored, .error fault) ∧
        trace bytes signatures = ⟨trailingReport bytes ++ explored.log, .error fault⟩ := by
  obtain ⟨found, hfound⟩ := exists_findEntrypoints (.ofBytes bytes) entrypointLimit 0
    (.blank (Buffer.ofBytes bytes).wordCount)
  have hcount := (Script.Layout.found hfound).wordCount_eq
  have hstart : Exploring (.ofBytes bytes) signatures _ _ := .start hfound
  rcases hstart.run_cases with ⟨explored, hrun, hend⟩ |
    ⟨task, rest, survey, explored, fault, hreached, hperform, hrun⟩
  · obtain ⟨script, hfilled⟩ := exists_fillGaps
      (by omega : 0 + (Buffer.ofBytes bytes).wordCount ≤ (Buffer.ofBytes bytes).wordCount)
      explored.script
    refine .inl ⟨explored, script, hend, hfilled, ?_⟩
    simp only [trace, Buffer.trace, hfound, hrun, hcount, hfilled]
  · refine .inr ⟨task, rest, survey, explored, fault, hreached, hperform, ?_⟩
    simp only [trace, Buffer.trace, hfound, hrun]

/-- What is returned is the last script on the way. -/
theorem reachable_of_disassemble {bytes : List UInt8} {signatures : Signatures} {script : Script}
    (h : disassemble bytes signatures = .ok script) :
    script.Reachable (.ofBytes bytes) signatures := by
  rcases trace_cases bytes signatures with ⟨explored, filled, hend, hfilled, htrace⟩ |
    ⟨task, rest, survey, explored, fault, hreached, hperform, htrace⟩
  · simp only [disassemble, htrace, Except.ok.injEq] at h
    rw [← h]
    exact .filling hend (Nat.le_refl _) hfilled
  · simp only [disassemble, htrace, reduceCtorEq] at h

end ScriptDisassembler
