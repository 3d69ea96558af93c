import ScriptDisassembler.Proofs.Retention

/-!
How a table comes to have its destinations. Everything that a destination leads to is explored
before the next entry is tested, with all the tables and instructions that are found there. So
on the stack of an exploration the work above a table that is being read is that of the
destination found last, and when the table is on top again, what is known is what the
exploration of that destination came to.
-/

namespace ScriptDisassembler

variable {buffer : Buffer} {signatures : Signatures}

/-- A table is being read: it has these destinations so far, and what each of them leads to
was explored before the next entry was tested. -/
inductive Reading (buffer : Buffer) (signatures : Signatures) (kind : TableKind) (table : Nat)
    (rest : List Task) : List Nat → Survey → Prop
  | opened {survey : Survey}
      (hexploring : Exploring buffer signatures (.entries kind table [] :: rest) survey) :
      Reading buffer signatures kind table rest [] survey
  | explored {found : List Nat} {destination : Nat} {before after : Survey}
      (h : Reading buffer signatures kind table rest found before)
      (hentry : nextDestination? buffer before.script table found = .ok (some destination))
      (hrun : run buffer signatures [.probe destination]
        (before.update (·.insertDestination kind destination)) = (after, .ok ())) :
      Reading buffer signatures kind table rest (found ++ [destination]) after

/-- A table is being read below some tasks. If there are any, they are what is left of the
exploration of the destination found last. -/
inductive Suspended (buffer : Buffer) (signatures : Signatures) (kind : TableKind) (table : Nat)
    (rest : List Task) : (front : List Task) → List Nat → Survey → Prop
  | waiting {found : List Nat} {survey : Survey}
      (h : Reading buffer signatures kind table rest found survey) :
      Suspended buffer signatures kind table rest [] found survey
  | exploring {front : List Task} {found : List Nat} {destination : Nat} {before survey : Survey}
      (h : Reading buffer signatures kind table rest found before)
      (hentry : nextDestination? buffer before.script table found = .ok (some destination))
      (hrun : run buffer signatures [.probe destination]
        (before.update (·.insertDestination kind destination)) =
          run buffer signatures front survey) :
      Suspended buffer signatures kind table rest front (found ++ [destination]) survey

section

variable {kind : TableKind} {table : Nat} {found : List Nat} {front back rest : List Task}
  {survey after : Survey}

/-- An instruction that is followed begins a table before all else. -/
theorem Follows.opens {instruction : Instruction} {tasks : List Task}
    (h : Follows buffer signatures instruction survey after tasks)
    (htasks : tasks = front ++ .entries kind table found :: back) : front = [] ∧ found = [] := by
  have hmem : .entries kind table found ∈ tasks := by
    rw [htasks]
    exact List.mem_append_right front List.mem_cons_self
  cases h with
  | stop | onward | call | unknown | jump | conditional | outside | gosub | fork => simp at hmem
  | tableOutside | tableKnown => simp [TableKind.mem_onward] at hmem
  | tableNew =>
    rcases List.cons_eq_append_iff.mp htasks with ⟨rfl, htable⟩ | ⟨others, rfl, honward⟩
    · simp only [List.cons.injEq, Task.entries.injEq] at htable
      exact ⟨rfl, htable.1.2.2⟩
    · have hbelow : .entries kind table found ∈ others ++ .entries kind table found :: back :=
        List.mem_append_right others List.mem_cons_self
      rw [← honward] at hbelow
      simp [TableKind.mem_onward] at hbelow

/-- A task that leaves a table to be read begins it, or it has found a destination of it, which
is to be explored first. -/
theorem Task.Performs.reads {task : Task} {more : List Task}
    (h : Task.Performs buffer signatures survey task after more)
    (hmore : more = front ++ .entries kind table found :: back) :
    front = [] ∧ found = [] ∨
      ∃ earlier destination, task = .entries kind table earlier ∧ front = [.probe destination] ∧
        back = [] ∧ found = earlier ++ [destination] ∧
        nextDestination? buffer survey.script table earlier = .ok (some destination) ∧
        after = survey.update (·.insertDestination kind destination) := by
  have hmem : .entries kind table found ∈ more := by
    rw [hmore]
    exact List.mem_append_right front List.mem_cons_self
  cases h with
  | probeKnown | probeNew | scanEnd | scanUndecodable | scanRefused | argumentsDone
  | argumentValue | argumentUnknown | argumentOutside | argumentEntered | tableEnd =>
    simp at hmem
  | scanEntered hinside hdecode hclaim hfollow => exact .inl (hfollow.opens hmore)
  | @tableEntry _ _ destination earlier hentry =>
    cases front with
    | nil => simp at hmore
    | cons first others =>
      cases others with
      | nil =>
        simp only [List.cons_append, List.nil_append, List.cons.injEq, Task.entries.injEq] at hmore
        obtain ⟨rfl, ⟨rfl, rfl, rfl⟩, rfl⟩ := hmore
        exact .inr ⟨earlier, destination, rfl, rfl, rfl, rfl, hentry, rfl⟩
      | cons second others => simp at hmore

namespace Suspended

/-- With nothing above it, the table is ready for its next entry. -/
theorem reading (h : Suspended buffer signatures kind table rest [] found survey) :
    Reading buffer signatures kind table rest found survey := by
  cases h with
  | waiting h => exact h
  | exploring h hentry hrun =>
    rw [run_nil] at hrun
    exact .explored h hentry hrun

/-- A task above the table brings the exploration of the destination forward. -/
theorem step {task : Task} {more : List Task}
    (h : Suspended buffer signatures kind table rest (task :: front) found survey)
    (hperform : task.perform buffer signatures survey = (after, .ok more)) :
    Suspended buffer signatures kind table rest (more ++ front) found after := by
  cases h with
  | exploring h hentry hrun =>
    rw [run_cons_ok front hperform] at hrun
    exact .exploring h hentry hrun

end Suspended

namespace Exploring

/-- Wherever a table is on the stack, what is above it is the exploration of the destination
that was found last. -/
theorem suspended {tasks : List Task} (h : Exploring buffer signatures tasks survey)
    (htasks : tasks = front ++ .entries kind table found :: rest) :
    Suspended buffer signatures kind table rest front found survey := by
  induction h generalizing front found with
  | @start script hfound =>
    have hmem : .entries kind table found ∈ script.entrypoints.map Task.probe := by
      rw [htasks]
      exact List.mem_append_right front List.mem_cons_self
    simp at hmem
  | @step task more below survey after hbefore hperform ih =>
    have hlower : ∀ above, below = above ++ .entries kind table found :: rest →
        Suspended buffer signatures kind table rest (more ++ above) found after := by
      intro above hbelow
      have hsuspended : Suspended buffer signatures kind table rest (task :: above) found survey :=
        ih (by rw [hbelow, List.cons_append])
      exact hsuspended.step hperform
    rcases List.append_eq_append_iff.mp htasks with
      ⟨above, rfl, hbelow⟩ | ⟨_ | ⟨first, back⟩, hmore, hrest⟩
    · exact hlower above hbelow
    · rw [List.append_nil] at hmore
      have hnothing := hlower [] (by rw [List.nil_append, hrest, List.nil_append])
      rwa [List.append_nil, hmore] at hnothing
    · rw [List.cons_append, List.cons.injEq] at hrest
      obtain ⟨rfl, rfl⟩ := hrest
      rcases (Task.performs_of_perform hperform).reads hmore with ⟨rfl, rfl⟩ |
        ⟨earlier, destination, rfl, rfl, rfl, rfl, hentry, rfl⟩
      · have hopened := hbefore.step hperform
        rw [hmore] at hopened
        exact .waiting (.opened hopened)
      · have hsuspended : Suspended buffer signatures kind table _ [] earlier survey := ih rfl
        exact .exploring hsuspended.reading hentry rfl

theorem reading (h : Exploring buffer signatures (.entries kind table found :: rest) survey) :
    Reading buffer signatures kind table rest found survey :=
  (h.suspended rfl).reading

end Exploring

/-- The surveys at which a table is on top of the stack, from the one at which it is begun to
the one after its last destination. -/
structure Images (buffer : Buffer) (signatures : Signatures) (kind : TableKind) (table : Nat)
    (rest : List Task) (found : List Nat) (image : Nat → Survey) : Prop where
  opened : Exploring buffer signatures (.entries kind table [] :: rest) (image 0)
  entry : ∀ {place destination : Nat}, found[place]? = some destination →
    nextDestination? buffer (image place).script table (found.take place) = .ok (some destination)
  explored : ∀ {place destination : Nat}, found[place]? = some destination →
    run buffer signatures [.probe destination]
      ((image place).update (·.insertDestination kind destination)) = (image (place + 1), .ok ())

namespace Reading

theorem images (h : Reading buffer signatures kind table rest found survey) :
    ∃ image, Images buffer signatures kind table rest found image ∧
      image found.length = survey := by
  induction h with
  | @opened survey hexploring => exact ⟨fun _ => survey, ⟨hexploring, nofun, nofun⟩, rfl⟩
  | @explored found destination before after h hentry hrun ih =>
    obtain ⟨image, himages, hlast⟩ := ih
    refine ⟨fun place => if place ≤ found.length then image place else after, ⟨?_, ?_, ?_⟩, ?_⟩
    · simpa using himages.opened
    · intro place other hother
      rcases getElem?_concat_cases hother with ⟨hlt, hold⟩ | ⟨rfl, rfl⟩
      · rw [if_pos (by omega), List.take_append_of_le_length (by omega)]
        exact himages.entry hold
      · rw [if_pos (Nat.le_refl _), List.take_left, hlast]
        exact hentry
    · intro place other hother
      rcases getElem?_concat_cases hother with ⟨hlt, hold⟩ | ⟨rfl, rfl⟩
      · rw [if_pos (by omega), if_pos (by omega)]
        exact himages.explored hold
      · rw [if_pos (Nat.le_refl _), if_neg (by omega), hlast]
        exact hrun
    · simp

end Reading

/-- A destination has its roles in a script, and the scan from it has begun. -/
structure Script.Visits (script : Script) (kind : TableKind) (destination : Nat) : Prop where
  branch : destination ∈ script.branches
  listed : destination ∈ script.destinations kind
  subroutine : kind = .subroutine → destination ∈ script.subroutines

theorem Script.Visits.grows {script later : Script} {destination : Nat}
    (h : script.Visits kind destination) (hgrows : script.Grows later) :
    later.Visits kind destination :=
  ⟨hgrows.branches h.branch, hgrows.destinations kind h.listed,
    fun hkind => hgrows.subroutines (h.subroutine hkind)⟩

theorem mem_branches_of_run {start : Nat}
    (hrun : run buffer signatures [.probe start] survey = (after, .ok ())) :
    start ∈ after.script.branches := by
  by_cases hmem : start ∈ survey.script.branches
  · have hgrows := run_grows buffer signatures [.probe start] survey
    rw [hrun] at hgrows
    exact hgrows.branches hmem
  · have hperform : (Task.probe start).perform buffer signatures survey =
        ((survey.update (·.insertBranch start)).note (.probing start), .ok [.scan start]) := by
      simp only [Task.perform, probeStep, if_neg hmem]
    rw [run_cons_ok [] hperform] at hrun
    have hgrows := run_grows buffer signatures [.scan start]
      ((survey.update (·.insertBranch start)).note (.probing start))
    rw [List.append_nil] at hrun
    rw [hrun] at hgrows
    exact hgrows.branches (AddressSet.mem_insert.mpr (.inl rfl))

theorem Reading.visits (h : Reading buffer signatures kind table rest found survey) :
    ∀ destination ∈ found, survey.script.Visits kind destination := by
  induction h with
  | opened => exact fun destination hmem => absurd hmem List.not_mem_nil
  | @explored found destination before after h hentry hrun ih =>
    have hgrows := run_grows buffer signatures [.probe destination]
      (before.update (·.insertDestination kind destination))
    rw [hrun] at hgrows
    intro other hother
    rcases List.mem_append.mp hother with hold | hnew
    · exact (ih other hold).grows ((Script.Grows.insertDestination _ _ _).trans hgrows)
    · rw [List.mem_singleton.mp hnew]
      constructor
      · exact mem_branches_of_run hrun
      · exact hgrows.destinations kind (Script.mem_insertDestination.mpr (.inl ⟨rfl, rfl⟩))
      · rintro rfl
        exact hgrows.subroutines (AddressSet.mem_insert.mpr (.inl rfl))

end

end ScriptDisassembler
