import ScriptDisassembler.Proofs.Lookup
import ScriptDisassembler.Proofs.Reachable

/-!
Malformed scripts are taken apart like any others. The positions from which tasks read are
those of words, since an instruction ends at one and a target that is followed is one; so no
read fails on any way through a script. What is left to go wrong is a call that does not fit
the signatures. The numbers in the slots are those of tokens and the places in the tables of
the instruction set those of definitions.
-/

namespace ScriptDisassembler

variable {buffer : Buffer} {signatures : Signatures}

namespace Task

/-- Where a task reads there is the beginning of a word or the end of the buffer. -/
def Aligned : Task → Prop
  | probe start => start % 4 = 0
  | scan offset => offset % 4 = 0
  | arguments _ _ _ => True
  | entries _ table _ => table % 4 = 0

end Task

theorem Task.Leaves.aligned {script : Script} {task more : Task}
    (h : task.Leaves buffer script more) (haligned : task.Aligned) : more.Aligned := by
  cases h with
  | scan | entries => exact haligned
  | arguments => trivial
  | argument htarget => exact Buffer.aligned_of_wordOffset? htarget
  | destination hentry =>
    obtain ⟨word, -, hdestination⟩ := nextDestination?_eq_some hentry
    exact Buffer.aligned_of_wordOffset? (Buffer.wordOffset?_of_headerOffset? hdestination)
  | followed hdecode hleaves =>
    obtain ⟨hoffset, hmod, -⟩ := decode_ok hdecode
    cases hleaves with
    | onward | beside =>
      unfold Task.Aligned Instruction.next
      omega
    | arguments => trivial
    | target htarget | table htarget => exact Buffer.aligned_of_wordOffset? htarget

/-- On every way through a script, all tasks read where words begin. -/
theorem Exploring.aligned {tasks : List Task} {survey : Survey}
    (h : Exploring buffer signatures tasks survey) : ∀ task ∈ tasks, task.Aligned :=
  h.tasks_induction Task.Aligned
    (fun htarget => Buffer.aligned_of_wordOffset? (Buffer.wordOffset?_of_headerOffset? htarget))
    Task.Leaves.aligned

/-- Testing the next entry of a table reads a word that is there. -/
theorem exists_nextDestination? {table : Nat} (haligned : table % 4 = 0) (script : Script)
    (found : List Nat) :
    ∃ destination?, nextDestination? buffer script table found = .ok destination? := by
  simp only [nextDestination?]
  split
  · exact ⟨none, rfl⟩
  · next hinside =>
    rw [not_or] at hinside
    obtain ⟨word, hword⟩ := exists_wordAt (by omega : (table + 4 * found.length) % 4 = 0)
      (Nat.lt_of_not_le hinside.1)
    rw [hword]
    exact ⟨_, rfl⟩

/-- A task on the way fails for a call only, which does not fit the signatures. -/
theorem Exploring.fault {task : Task} {rest : List Task} {survey explored : Survey} {fault : Fault}
    (h : Exploring buffer signatures (task :: rest) survey)
    (hfails : Task.Fails buffer signatures survey task explored fault) :
    (∃ offset method, fault = .unknownMethod offset method) ∨
      ∃ offset method expected actual, fault = .argumentCount offset method expected actual := by
  have haligned := h.aligned task List.mem_cons_self
  cases hfails with
  | scanRead hinside hdecode => exact absurd hdecode (decode_ne_read haligned hinside _)
  | unknownMethod => exact .inl ⟨_, _, rfl⟩
  | argumentCount => exact .inr ⟨_, _, _, _, rfl⟩
  | entryRead hentry =>
    obtain ⟨destination, hok⟩ := exists_nextDestination? haligned survey.script _
    rw [hentry] at hok
    cases hok

namespace Script

/-- The numbers in the slots are those of tokens. -/
def Numbered (script : Script) : Prop :=
  ∀ {index id : Nat}, script.slots[index]? = some (some id) → id < script.tokens.size

theorem Numbered.place {script : Script} (token : Token) (h : script.Numbered) :
    (script.place token).Numbered := by
  intro index id hslot
  rw [tokens_place, Array.size_push]
  by_cases hall : areFree script.slots (token.offset / 4) token.width = true
  · simp only [Script.place, push, claim?, hall, ↓reduceIte, Option.getD_some,
      getElem?_fill] at hslot
    split at hslot
    · cases hslot
      exact Nat.lt_succ_self _
    · exact Nat.lt_succ_of_lt (h hslot)
  · simp only [Script.place, push, claim?, hall, Bool.false_eq_true, ↓reduceIte,
      Option.getD_none] at hslot
    exact Nat.lt_succ_of_lt (h hslot)

end Script

end ScriptDisassembler
