import Mathlib
import ScriptDisassembler.Proofs.Reads
import ScriptDisassembler.Proofs.RecursiveDescent

/-!
What a disassembly takes from the signatures: for the methods that are called, how many
parameters there are and which roles they have. Names and types occur in the reports only, and
methods that are not called do not occur at all. So signatures that say the same of all methods
of others, and more, lead to the same script or to the same fault; the explorations do the same
task by task, as long as the fewer signatures have every method that is called.
-/

namespace ScriptDisassembler

/-- What the parameters of a method are to control, one after the other. -/
def Method.roles (method : Method) : List BranchRole :=
  method.parameters.map Parameter.role

/-- All methods are there, with the roles that they had. -/
def Signatures.ExtendedBy (first second : Signatures) : Prop :=
  ∀ {index : Nat} {method : Method}, first.methods[index]? = some method →
    ∃ other, second.methods[index]? = some other ∧ other.roles = method.roles

/-- Arguments with the roles in which they are passed. -/
def roled (pending : List (Operand × Parameter)) : List (Operand × BranchRole) :=
  pending.map fun (operand, parameter) => (operand, parameter.role)

/-- Two tasks that differ in the names and types of the signatures at most. -/
inductive Task.Alike : Task → Task → Prop
  | same (task : Task) : Alike task task
  | arguments {call : Instruction} {method other : Method}
      {pending others : List (Operand × Parameter)} (hroles : roled others = roled pending) :
      Alike (.arguments call method pending) (.arguments call other others)

variable {buffer : Buffer} {first second : Signatures}

theorem roled_zip (operands : List Operand) (method : Method) :
    roled (operands.zip method.parameters) = operands.zip method.roles := by
  rw [roled, Method.roles, List.zip_map_right]
  rfl

theorem roled_eq_cons {operand : Operand} {parameter : Parameter}
    {pending others : List (Operand × Parameter)}
    (h : roled others = roled ((operand, parameter) :: pending)) :
    ∃ twin rest, others = (operand, twin) :: rest ∧ twin.role = parameter.role ∧
      roled rest = roled pending := by
  obtain ⟨⟨passed, twin⟩, rest, rfl, hhead, hrest⟩ := List.map_eq_cons_iff.mp h
  obtain ⟨rfl, hrole⟩ := Prod.mk.inj hhead
  exact ⟨twin, rest, rfl, hrole, hrest⟩

theorem length_of_roles {method other : Method} (h : other.roles = method.roles) :
    other.parameters.length = method.parameters.length := by
  have hlength := congrArg List.length h
  rwa [Method.roles, Method.roles, List.length_map, List.length_map] at hlength

/-- The same tasks are alike. -/
theorem alike_refl (tasks : List Task) : List.Forall₂ Task.Alike tasks tasks :=
  List.forall₂_same.mpr fun task _ => .same task

/-- An instruction is followed alike with both signatures. -/
theorem Follows.alike (hextended : first.ExtendedBy second) {instruction : Instruction}
    {survey after : Survey} {tasks : List Task}
    (h : Follows buffer first instruction survey after tasks) :
    ∃ others, Follows buffer second instruction survey after others ∧
      List.Forall₂ Task.Alike tasks others := by
  cases h with
  | stop hflow => exact ⟨_, .stop hflow, alike_refl _⟩
  | onward hflow => exact ⟨_, .onward hflow, alike_refl _⟩
  | call hflow hmethod hlength =>
    obtain ⟨other, hother, hroles⟩ := hextended hmethod
    have hfits := (length_of_roles hroles).trans hlength
    refine ⟨_, .call hflow hother hfits, .cons (.arguments ?_) (alike_refl _)⟩
    rw [roled_zip, roled_zip, hroles]
  | unknown hflow hvalue => exact ⟨_, .unknown hflow hvalue, alike_refl _⟩
  | jump hflow hvalue => exact ⟨_, .jump hflow hvalue, alike_refl _⟩
  | conditional hflow hvalue => exact ⟨_, .conditional hflow hvalue, alike_refl _⟩
  | outside hflow hvalue htarget => exact ⟨_, .outside hflow hvalue htarget, alike_refl _⟩
  | gosub hflow hvalue htarget => exact ⟨_, .gosub hflow hvalue htarget, alike_refl _⟩
  | fork hflow hvalue htarget => exact ⟨_, .fork hflow hvalue htarget, alike_refl _⟩
  | tableOutside hflow hvalue htable =>
    exact ⟨_, .tableOutside hflow hvalue htable, alike_refl _⟩
  | tableKnown hflow hvalue htable hmem =>
    exact ⟨_, .tableKnown hflow hvalue htable hmem, alike_refl _⟩
  | tableNew hflow hvalue htable hmem =>
    exact ⟨_, .tableNew hflow hvalue htable hmem, alike_refl _⟩

/-- Arguments in the same roles are followed alike. -/
theorem Task.Performs.alike_arguments {call : Instruction} {method other : Method}
    {pending others : List (Operand × Parameter)} {survey after : Survey} {tasks : List Task}
    (hroles : roled others = roled pending)
    (h : Task.Performs buffer first survey (.arguments call method pending) after tasks) :
    ∃ later left, Task.Performs buffer second survey (.arguments call other others) later left ∧
      later.script = after.script ∧ List.Forall₂ Task.Alike tasks left := by
  cases h with
  | argumentsDone =>
    obtain rfl : others = [] := List.map_eq_nil_iff.mp hroles
    exact ⟨_, _, .argumentsDone, rfl, .nil⟩
  | argumentValue hrole =>
    obtain ⟨twin, rest, rfl, hsame, hrest⟩ := roled_eq_cons hroles
    rw [← hsame] at hrole
    exact ⟨_, _, .argumentValue hrole, rfl, .cons (.arguments hrest) .nil⟩
  | argumentUnknown hrole hvalue =>
    obtain ⟨twin, rest, rfl, hsame, hrest⟩ := roled_eq_cons hroles
    rw [← hsame] at hrole
    exact ⟨_, _, .argumentUnknown hrole hvalue, rfl, .cons (.arguments hrest) .nil⟩
  | argumentOutside hrole hvalue htarget =>
    obtain ⟨twin, rest, rfl, hsame, hrest⟩ := roled_eq_cons hroles
    rw [← hsame] at hrole
    exact ⟨_, _, .argumentOutside hrole hvalue htarget, rfl, .cons (.arguments hrest) .nil⟩
  | argumentEntered hrole hvalue htarget =>
    obtain ⟨twin, rest, rfl, hsame, hrest⟩ := roled_eq_cons hroles
    rw [← hsame] at hrole
    refine ⟨_, _, .argumentEntered hrole hvalue htarget, ?_, ?_⟩
    · rw [script_update, script_update, hsame]
    · exact .cons (.same _) (.cons (.arguments hrest) .nil)

/-- Tasks that are alike do the same to the script and leave tasks behind that are alike. -/
theorem Task.Performs.alike (hextended : first.ExtendedBy second) {task other : Task}
    {survey after : Survey} {tasks : List Task} (halike : task.Alike other)
    (h : Task.Performs buffer first survey task after tasks) :
    ∃ later others, Task.Performs buffer second survey other later others ∧
      later.script = after.script ∧ List.Forall₂ Task.Alike tasks others := by
  cases halike with
  | arguments hroles => exact h.alike_arguments hroles
  | same =>
    cases task with
    | arguments => exact h.alike_arguments rfl
    | probe start =>
      cases h with
      | probeKnown hmem => exact ⟨_, _, .probeKnown hmem, rfl, .nil⟩
      | probeNew hmem => exact ⟨_, _, .probeNew hmem, rfl, alike_refl _⟩
    | scan offset =>
      cases h with
      | scanEnd hend => exact ⟨_, _, .scanEnd hend, rfl, .nil⟩
      | scanUndecodable hinside hdecode =>
        exact ⟨_, _, .scanUndecodable hinside hdecode, rfl, .nil⟩
      | scanRefused hinside hdecode hclaim =>
        exact ⟨_, _, .scanRefused hinside hdecode hclaim, rfl, .nil⟩
      | scanEntered hinside hdecode hclaim hfollow =>
        obtain ⟨others, hother, halike⟩ := hfollow.alike hextended
        exact ⟨_, others, .scanEntered hinside hdecode hclaim hother, rfl, halike⟩
    | entries kind table found =>
      cases h with
      | tableEnd hentry => exact ⟨_, _, .tableEnd hentry, rfl, .nil⟩
      | tableEntry hentry => exact ⟨_, _, .tableEntry hentry, rfl, alike_refl _⟩

/-- A task that fails, and not for want of a method, fails with both signatures. -/
theorem Task.Fails.alike (hextended : first.ExtendedBy second) {task other : Task}
    {survey after : Survey} {fault : Fault} (halike : task.Alike other)
    (hknown : ∀ offset index, fault ≠ .unknownMethod offset index)
    (h : Task.Fails buffer first survey task after fault) :
    Task.Fails buffer second survey other after fault := by
  cases h with
  | scanRead hinside hdecode =>
    cases halike
    exact .scanRead hinside hdecode
  | unknownMethod => exact absurd rfl (hknown _ _)
  | argumentCount hinside hdecode hclaim hflow hmethod hlength =>
    cases halike
    obtain ⟨twin, htwin, hroles⟩ := hextended hmethod
    rw [← length_of_roles hroles] at hlength ⊢
    exact .argumentCount hinside hdecode hclaim hflow htwin hlength
  | entryRead hentry =>
    cases halike
    exact .entryRead hentry

/-- Stacks of tasks that are alike come to the same. -/
theorem descendAll_alike (hextended : first.ExtendedBy second) {tasks others : List Task}
    {survey : Survey} (halike : List.Forall₂ Task.Alike tasks others)
    (hknown : ∀ offset index,
      (run buffer first tasks survey).2 ≠ .error (.unknownMethod offset index)) :
    (descendAll buffer second others survey.script).run =
      some (scriptOf (run buffer first tasks survey)) := by
  fun_induction run buffer first tasks survey generalizing others with
  | case1 survey =>
    cases halike
    rfl
  | case2 survey task rest after fault hperform =>
    obtain ⟨other, others, hhead, -, rfl⟩ := List.forall₂_cons_left_iff.mp halike
    have hfails := (Task.fails_of_perform hperform).alike hextended hhead fun offset index heq =>
      hknown offset index (congrArg Except.error heq)
    rw [descendAll_cons, descend_of_fails hfails]
    rfl
  | case3 survey task rest after more hperform ih =>
    obtain ⟨other, others, hhead, hrest, rfl⟩ := List.forall₂_cons_left_iff.mp halike
    obtain ⟨later, left, hother, hscript, hleft⟩ :=
      (Task.performs_of_perform hperform).alike hextended hhead
    rw [descendAll_cons, ← descendAll_of_performs hother, ← descendAll_append, hscript]
    exact ih (List.rel_append hleft hrest) hknown

theorem scriptOf_error {outcome : Survey × Except Fault Unit} {fault : Fault}
    (h : outcome.2 = .error fault) : scriptOf outcome = .error fault := by
  obtain ⟨survey, result⟩ := outcome
  rw [show result = .error fault from h, scriptOf]

/-- What becomes of the script or the fault with which an exploration ends. -/
def conclude (buffer : Buffer) (count : Nat) : Except Fault Script → Except Fault Script
  | .error fault => .error fault
  | .ok explored => (fillGaps buffer count 0 explored).mapError .read

/-- The signatures have a part in the exploration only. -/
theorem exists_conclude (bytes : List UInt8) :
    ∃ found : Survey, ∀ signatures, disassemble bytes signatures =
      conclude (.ofBytes bytes) found.script.wordCount
        (scriptOf
          (run (.ofBytes bytes) signatures (found.script.entrypoints.map .probe) found)) := by
  obtain ⟨script, hfound⟩ := exists_findEntrypoints (.ofBytes bytes) entrypointLimit 0
    (.blank (Buffer.ofBytes bytes).wordCount)
  refine ⟨⟨script, #[.entrypointsFound script.entrypoints.length]⟩, fun signatures => ?_⟩
  simp only [disassemble, trace, Buffer.trace, hfound]
  split
  · next hrun => rw [hrun, scriptOf, conclude]
  · next hrun =>
    rw [hrun, scriptOf, conclude]
    split
    · next hfilled => rw [hfilled, Except.mapError]
    · next hfilled => rw [hfilled, Except.mapError]

theorem disassemble_eq_of_extendedBy {bytes : List UInt8} (hextended : first.ExtendedBy second)
    (hknown : ∀ offset index, disassemble bytes first ≠ .error (.unknownMethod offset index)) :
    disassemble bytes second = disassemble bytes first := by
  obtain ⟨found, heq⟩ := exists_conclude bytes
  have hexplored : ∀ offset index,
      (run (.ofBytes bytes) first (found.script.entrypoints.map .probe) found).2 ≠
        .error (.unknownMethod offset index) := by
    intro offset index herror
    apply hknown offset index
    rw [heq first, scriptOf_error herror, conclude]
  have hscript := (descendAll_eq_run (.ofBytes bytes) second _ found).symm.trans
    (descendAll_alike hextended (alike_refl _) hexplored)
  rw [heq second, heq first, Option.some.inj hscript]

/-- A call passes a subroutine. -/
def passedCall : List UInt8 :=
  [4, 0, 0, 0, 0x38, 1, 0, 0, 3, 0, 0, 0x09, 0x49, 0, 0, 0, 0x49, 0, 0, 0]

/-- The method may have another name, its parameter another name and type, and there may be
another method. -/
theorem disassemble_passedCall :
    ∃ first second, first ≠ second ∧ first.ExtendedBy second ∧
      ∃ script, disassemble passedCall first = .ok script ∧
        script.subroutines.toList = [16] ∧ disassemble passedCall second = .ok script := by
  let first : Signatures := ⟨[⟨"start", [⟨"address", "int", .gosub⟩]⟩]⟩
  let second : Signatures := ⟨[⟨"spawn", [⟨"code", "", .gosub⟩]⟩, ⟨"stop", []⟩]⟩
  have hextended : first.ExtendedBy second := by
    intro index method hmethod
    cases index with
    | zero =>
      cases hmethod
      exact ⟨_, rfl, rfl⟩
    | succ index => cases hmethod
  have hsubroutines : (disassemble passedCall first).toOption.map
      (fun script => script.subroutines.toList) = some [16] := by
    cbv
  obtain ⟨script, h, hlist⟩ := exists_disassemble hsubroutines
  have hknown : ∀ offset index,
      disassemble passedCall first ≠ .error (.unknownMethod offset index) := by
    intro offset index herror
    rw [h] at herror
    cases herror
  refine ⟨first, second, by decide, hextended, script, h, hlist, ?_⟩
  rw [disassemble_eq_of_extendedBy hextended hknown, h]

end ScriptDisassembler
