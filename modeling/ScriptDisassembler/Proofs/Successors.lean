import ScriptDisassembler.Proofs.Decoding
import ScriptDisassembler.Proofs.Steps

/-!
The tasks that a task can leave behind, one by one. A scan leaves what its instruction leads
to; arguments and tables leave what is still pending of them and a probe of the target they
have just come to. What holds of every task on a stack follows from this by cases.
-/

namespace ScriptDisassembler

variable {buffer : Buffer} {signatures : Signatures}

/-- A table has one more entry where the word of the entry leads to an instruction. -/
theorem nextDestination?_eq_some {script : Script} {table destination : Nat} {found : List Nat}
    (h : nextDestination? buffer script table found = .ok (some destination)) :
    ∃ word, buffer.wordAt (table + 4 * found.length) = .ok word ∧
      buffer.headerOffset? (table + 4 * word.signed.toInt) = some destination := by
  simp only [nextDestination?] at h
  split at h
  · cases h
  · cases hword : buffer.wordAt (table + 4 * found.length) with
    | error fault =>
      rw [hword] at h
      cases h
    | ok word =>
      rw [hword] at h
      exact ⟨word, rfl, Except.ok.inj h⟩

theorem unclaimed_of_nextDestination? {script : Script} {table destination : Nat}
    {found : List Nat} (h : nextDestination? buffer script table found = .ok (some destination)) :
    script.isClaimed ((table + 4 * found.length) / 4) = false := by
  simp only [nextDestination?] at h
  split at h
  · cases h
  · next hinside => exact Bool.eq_false_iff.mpr (not_or.mp hinside).2

/-- A table ends behind the buffer, at a slot that is claimed, or at a word that does not lead
to an instruction. -/
theorem nextDestination?_eq_none {script : Script} {table : Nat} {found : List Nat}
    (h : nextDestination? buffer script table found = .ok none) :
    buffer.length ≤ table + 4 * found.length ∨
      script.isClaimed ((table + 4 * found.length) / 4) = true ∨
      ∃ word, buffer.wordAt (table + 4 * found.length) = .ok word ∧
        buffer.headerOffset? (table + 4 * word.signed.toInt) = none := by
  simp only [nextDestination?] at h
  split at h
  · next hends => exact hends.imp_right .inl
  · cases hword : buffer.wordAt (table + 4 * found.length) with
    | error fault =>
      rw [hword] at h
      cases h
    | ok word =>
      rw [hword] at h
      exact .inr (.inr ⟨word, rfl, Except.ok.inj h⟩)

/-- What an instruction that is followed can leave behind. -/
inductive Instruction.Leaves (buffer : Buffer) (instruction : Instruction) : Task → Prop
  | onward : Leaves buffer instruction (.scan instruction.next)
  | beside : Leaves buffer instruction (.probe instruction.next)
  | target {address : Int} {target : Nat} (htarget : buffer.wordOffset? address = some target) :
      Leaves buffer instruction (.probe target)
  | arguments {method : Method} :
      Leaves buffer instruction
        (.arguments instruction method (instruction.operands.zip method.parameters))
  | table {kind : TableKind} {address : Int} {table : Nat}
      (htable : buffer.wordOffset? address = some table) :
      Leaves buffer instruction (.entries kind table [])

/-- What a task can leave behind. -/
inductive Task.Leaves (buffer : Buffer) (script : Script) : Task → Task → Prop
  | scan {start : Nat} : Leaves buffer script (.probe start) (.scan start)
  | followed {offset : Nat} {instruction : Instruction} {task : Task}
      (hdecode : decode buffer offset = .ok instruction)
      (htask : instruction.Leaves buffer task) : Leaves buffer script (.scan offset) task
  | arguments {call : Instruction} {method : Method} {first : Operand × Parameter}
      {pending : List (Operand × Parameter)} :
      Leaves buffer script (.arguments call method (first :: pending))
        (.arguments call method pending)
  | argument {call : Instruction} {method : Method} {pending : List (Operand × Parameter)}
      {address : Int} {target : Nat} (htarget : buffer.wordOffset? address = some target) :
      Leaves buffer script (.arguments call method pending) (.probe target)
  | destination {kind : TableKind} {table destination : Nat} {found : List Nat}
      (hentry : nextDestination? buffer script table found = .ok (some destination)) :
      Leaves buffer script (.entries kind table found) (.probe destination)
  | entries {kind : TableKind} {table destination : Nat} {found : List Nat}
      (hentry : nextDestination? buffer script table found = .ok (some destination)) :
      Leaves buffer script (.entries kind table found)
        (.entries kind table (found ++ [destination]))

theorem TableKind.leaves_onward {kind : TableKind} {instruction : Instruction} :
    ∀ task ∈ kind.onward instruction, instruction.Leaves buffer task := by
  intro task htask
  rw [(TableKind.mem_onward.mp htask).2]
  exact .onward

theorem Follows.leaves {instruction : Instruction} {survey after : Survey} {tasks : List Task}
    (h : Follows buffer signatures instruction survey after tasks) :
    ∀ task ∈ tasks, instruction.Leaves buffer task := by
  have htargets : ∀ {value : Int32},
      ∀ task ∈ (buffer.wordOffset? value.toInt).toList.map Task.probe,
        instruction.Leaves buffer task := by
    intro value task htask
    obtain ⟨target, htarget, rfl⟩ := List.mem_map.mp htask
    exact .target (Option.mem_toList.mp htarget)
  intro task htask
  cases h with
  | stop hflow => cases htask
  | onward hflow | unknown hflow | outside hflow =>
    rw [List.mem_singleton.mp htask]
    exact .onward
  | call hflow =>
    simp only [List.mem_cons, List.not_mem_nil, or_false] at htask
    rcases htask with rfl | rfl
    · exact .arguments
    · exact .onward
  | gosub hflow hvalue htarget | fork hflow hvalue htarget =>
    simp only [List.mem_cons, List.not_mem_nil, or_false] at htask
    rcases htask with rfl | rfl
    · exact .target htarget
    · exact .onward
  | jump hflow hvalue => exact htargets task htask
  | conditional hflow hvalue =>
    rcases List.mem_cons.mp htask with rfl | htask
    · exact .beside
    · exact htargets task htask
  | tableOutside hflow | tableKnown hflow => exact TableKind.leaves_onward task htask
  | tableNew hflow hvalue htable hmem =>
    rcases List.mem_cons.mp htask with rfl | htask
    · exact .table htable
    · exact TableKind.leaves_onward task htask

theorem Task.Performs.leaves {task : Task} {survey after : Survey} {tasks : List Task}
    (h : Task.Performs buffer signatures survey task after tasks) :
    ∀ more ∈ tasks, task.Leaves buffer survey.script more := by
  intro more hmore
  cases h with
  | probeKnown | scanEnd | scanUndecodable | scanRefused | argumentsDone | tableEnd => cases hmore
  | probeNew =>
    rw [List.mem_singleton.mp hmore]
    exact .scan
  | argumentValue | argumentUnknown | argumentOutside =>
    rw [List.mem_singleton.mp hmore]
    exact .arguments
  | scanEntered hinside hdecode hclaim hfollow =>
    exact .followed hdecode (hfollow.leaves more hmore)
  | argumentEntered hrole hvalue htarget =>
    simp only [List.mem_cons, List.not_mem_nil, or_false] at hmore
    rcases hmore with rfl | rfl
    · exact .argument htarget
    · exact .arguments
  | tableEntry hentry =>
    simp only [List.mem_cons, List.not_mem_nil, or_false] at hmore
    rcases hmore with rfl | rfl
    · exact .destination hentry
    · exact .entries hentry

end ScriptDisassembler
