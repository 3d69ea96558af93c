import ScriptDisassembler.Proofs.Arrivals
import ScriptDisassembler.Proofs.Moments
import ScriptDisassembler.Proofs.Termination

/-!
Nothing is done twice. A scan begins at an address once, since the address is a branch from
then on; an instruction is entered at an offset once, since its first word is claimed from
then on. Every instruction that is entered uses up a free slot, and a call that waits for
another has entered the instruction for which it waits. So there are no more instructions
and hardly more calls inside each other than there are words.
-/

namespace ScriptDisassembler

/-- The start at which a scan is reported to begin. -/
def Event.start? : Event → Option Nat
  | .probing start => some start
  | _ => none

/-- The starts of the scans, in the order in which they are reported. -/
def startsOf (log : Array Event) : List Nat :=
  log.toList.filterMap Event.start?

theorem startsOf_push (log : Array Event) (event : Event) :
    startsOf (log.push event) = startsOf log ++ event.start?.toList := by
  simp only [startsOf, Array.toList_push, List.filterMap_append]
  cases h : event.start? <;> simp [h]

theorem startsOf_note (survey : Survey) {event : Event} (h : event.start? = none) :
    startsOf (survey.note event).log = startsOf survey.log := by
  simp only [Survey.note, startsOf_push, h, Option.toList_none, List.append_nil]

variable {buffer : Buffer} {signatures : Signatures}

theorem startsOf_followEdge (edge : Edge) (offset : Nat) (value : Int32) (survey : Survey) :
    startsOf (followEdge buffer edge offset value survey).1.log = startsOf survey.log := by
  unfold followEdge
  split
  · rfl
  · exact startsOf_note survey rfl

theorem Follows.startsOf_eq {instruction : Instruction} {survey after : Survey}
    {tasks : List Task} (h : Follows buffer signatures instruction survey after tasks) :
    startsOf after.log = startsOf survey.log := by
  cases h with
  | jump | conditional => exact startsOf_followEdge _ _ _ survey
  | unknown | outside | tableOutside => exact startsOf_note survey rfl
  | stop | onward | call | gosub | fork | tableKnown | tableNew => rfl

theorem start?_of_refusal {script : Script} {instruction : Instruction} {refusal : Event}
    (h : script.claimInstruction instruction = .error refusal) : refusal.start? = none := by
  simp only [Script.claimInstruction] at h
  repeat' split at h
  all_goals cases h <;> rfl

theorem startsOf_closeTable (table : Nat) (found : List Nat) (survey : Survey) :
    startsOf (closeTable table found survey).log = startsOf survey.log := by
  have hnoted := startsOf_note survey (rfl : (Event.tableDecoded table found.length).start? = none)
  unfold closeTable
  split
  · exact hnoted
  · rw [startsOf_note _ rfl]
    exact hnoted

theorem branches_claimInstruction {script entered : Script} {instruction : Instruction}
    (h : script.claimInstruction instruction = .ok entered) :
    entered.branches = script.branches := by
  obtain ⟨named, slots, labels, -, rfl⟩ := Script.claimInstruction_eq h
  rfl

/-- A task begins no scan, or one scan at an address that becomes a branch by it. -/
theorem Task.Performs.startsOf_eq {task : Task} {survey after : Survey} {tasks : List Task}
    (h : Task.Performs buffer signatures survey task after tasks) :
    (startsOf after.log = startsOf survey.log ∧
        after.script.branches = survey.script.branches) ∨
      ∃ start, start ∉ survey.script.branches ∧
        startsOf after.log = startsOf survey.log ++ [start] ∧
        after.script.branches = survey.script.branches.insert start := by
  cases h with
  | @probeNew start hmem => exact .inr ⟨start, hmem, startsOf_push _ _, rfl⟩
  | probeKnown | scanEnd | argumentsDone | argumentValue => exact .inl ⟨rfl, rfl⟩
  | scanUndecodable | argumentUnknown | argumentOutside =>
    exact .inl ⟨startsOf_note survey rfl, rfl⟩
  | scanRefused hinside hdecode hclaim =>
    exact .inl ⟨startsOf_note survey (start?_of_refusal hclaim), rfl⟩
  | scanEntered hinside hdecode hclaim hfollow =>
    refine .inl ⟨hfollow.startsOf_eq, ?_⟩
    rw [hfollow.branches_eq, branches_claimInstruction hclaim]
  | argumentEntered =>
    refine .inl ⟨rfl, ?_⟩
    simp only [script_update, Script.insertRole]
    split <;> rfl
  | @tableEnd kind table found =>
    obtain ⟨names, slots, labels, heq⟩ := survey.script.placeTable_eq table found
    refine .inl ⟨startsOf_closeTable table found survey, ?_⟩
    rw [script_closeTable, heq]
  | @tableEntry kind => exact .inl ⟨rfl, by cases kind <;> rfl⟩

theorem Task.Fails.log_eq {task : Task} {survey after : Survey} {fault : Fault}
    (h : Task.Fails buffer signatures survey task after fault) : after.log = survey.log := by
  cases h <;> rfl

/-- The scans that have begun are the branches, each reported once. -/
structure Survey.Announced (survey : Survey) : Prop where
  nodup : (startsOf survey.log).Nodup
  mem_iff : ∀ {start : Nat}, start ∈ startsOf survey.log ↔ start ∈ survey.script.branches

theorem Survey.Announced.step {task : Task} {survey after : Survey} {tasks : List Task}
    (hperform : Task.Performs buffer signatures survey task after tasks) (h : survey.Announced) :
    after.Announced := by
  rcases hperform.startsOf_eq with ⟨hstarts, hbranches⟩ | ⟨start, hnew, hstarts, hbranches⟩
  · constructor
    · rw [hstarts]
      exact h.nodup
    · intro start
      rw [hstarts, hbranches]
      exact h.mem_iff
  · constructor
    · rw [hstarts, List.nodup_append]
      refine ⟨h.nodup, List.pairwise_singleton _ _, ?_⟩
      intro other hother again hagain heq
      rw [heq, List.mem_singleton.mp hagain] at hother
      exact hnew (h.mem_iff.mp hother)
    · intro other
      rw [hstarts, hbranches, List.mem_append, List.mem_singleton, AddressSet.mem_insert,
        h.mem_iff, or_comm]

theorem Exploring.announced {tasks : List Task} {survey : Survey}
    (h : Exploring buffer signatures tasks survey) : survey.Announced := by
  induction h with
  | @start found hfound =>
    have hbranches : found.branches = .empty := by
      rw [(findEntrypoints_unexplored hfound).rest]
      rfl
    refine ⟨.nil, ?_⟩
    intro start
    rw [hbranches]
    simp [startsOf, Event.start?]
  | step hbefore hperform ih => exact ih.step (Task.performs_of_perform hperform)

/-- The reports of a disassembly tell of a scan where one begins and nowhere else. -/
theorem startsOf_trailingReport (bytes : List UInt8) : startsOf (trailingReport bytes) = [] := by
  unfold trailingReport
  split <;> rfl

theorem startsOf_append (front back : Array Event) :
    startsOf (front ++ back) = startsOf front ++ startsOf back := by
  simp only [startsOf, Array.toList_append, List.filterMap_append]

theorem nodup_startsOf_trace (bytes : List UInt8) (signatures : Signatures) :
    (startsOf (trace bytes signatures).log).Nodup := by
  rcases trace_cases bytes signatures with ⟨explored, script, hend, -, htrace⟩ |
    ⟨task, rest, survey, explored, fault, hreached, hperform, htrace⟩
  · rw [htrace, startsOf_append, startsOf_trailingReport, List.nil_append, startsOf_push]
    simp only [Script.summary, Event.start?, Option.toList_none, List.append_nil]
    exact hend.announced.nodup
  · rw [htrace, startsOf_append, startsOf_trailingReport, List.nil_append,
      (Task.fails_of_perform hperform).log_eq]
    exact hreached.announced.nodup

theorem mem_startsOf_trace {bytes : List UInt8} {script : Script} {start : Nat}
    (h : disassemble bytes signatures = .ok script) :
    start ∈ startsOf (trace bytes signatures).log ↔ start ∈ script.branches := by
  rcases trace_cases bytes signatures with ⟨explored, filled, hend, hfilled, htrace⟩ |
    ⟨task, rest, survey, explored, fault, hreached, hperform, htrace⟩
  · simp only [disassemble, htrace, Except.ok.injEq] at h
    subst h
    have hbranches : filled.branches = explored.script.branches := by
      rw [(fillGaps_filled hfilled).rest]
    rw [htrace, startsOf_append, startsOf_trailingReport, List.nil_append, startsOf_push,
      hbranches]
    simp only [Script.summary, Event.start?, Option.toList_none, List.append_nil]
    exact hend.announced.mem_iff
  · simp only [disassemble, htrace, reduceCtorEq] at h

/-- The offset of the instruction that is entered at a moment, if one is. -/
def Moment.claim? (buffer : Buffer) (moment : Moment) : Option Nat :=
  match moment.stack with
  | ⟨_, .scan offset⟩ :: _ =>
    match decode buffer offset with
    | .error _ => none
    | .ok instruction =>
      match moment.survey.script.claimInstruction instruction with
      | .error _ => none
      | .ok _ => some offset
  | _ => none

theorem Moment.claim?_eq_some {moment : Moment} {offset : Nat} :
    moment.claim? buffer = some offset ↔
      ∃ depth rest instruction entered, moment.stack = ⟨depth, .scan offset⟩ :: rest ∧
        decode buffer offset = .ok instruction ∧
        moment.survey.script.claimInstruction instruction = .ok entered := by
  obtain ⟨stack, survey⟩ := moment
  constructor
  · intro h
    simp only [Moment.claim?] at h
    split at h
    · split at h
      · cases h
      · next hdecode =>
        split at h
        · cases h
        · next hclaim =>
          cases h
          exact ⟨_, _, _, _, rfl, hdecode, hclaim⟩
    · cases h
  · rintro ⟨depth, rest, instruction, entered, rfl, hdecode, hclaim⟩
    simp only [Moment.claim?, hdecode, hclaim]

namespace Script

/-- The first word of an instruction that has been entered is claimed. -/
theorem isClaimed_of_claimInstruction {script entered : Script} {instruction : Instruction}
    {offset : Nat} (hdecode : decode buffer offset = .ok instruction)
    (hclaim : script.claimInstruction instruction = .ok entered) :
    entered.isClaimed (offset / 4) = true := by
  obtain ⟨rfl, -⟩ := decode_ok hdecode
  obtain ⟨hfree, -, rfl⟩ := claimInstruction_ok hclaim
  exact isClaimed_iff.mpr ⟨script.tokens.size, owner?_placeInstruction_first hfree⟩

theorem Extends.isClaimed {before after : Script} {index : Nat} (h : before.Extends after)
    (hclaimed : before.isClaimed index = true) : after.isClaimed index = true := by
  obtain ⟨id, howner⟩ := isClaimed_iff.mp hclaimed
  exact isClaimed_iff.mpr ⟨id, h.owner howner⟩

theorem not_isClaimed_of_claimInstruction {script entered : Script} {instruction : Instruction}
    (hclaim : script.claimInstruction instruction = .ok entered) :
    script.isClaimed (instruction.offset / 4) = false := by
  have hfree := (claimInstruction_ok hclaim).1
  rw [Script.isClaimed, owner?, hfree]
  rfl

end Script

theorem Task.unclaimed_perform_le {task : Task} {survey after : Survey} {more : List Task}
    (h : task.perform buffer signatures survey = (after, .ok more)) :
    after.script.unclaimed ≤ survey.script.unclaimed := by
  rcases Task.perform_lighter h with hlt | ⟨hle, -⟩
  · exact Nat.le_of_lt hlt
  · exact hle

theorem Follows.unclaimed_eq {instruction : Instruction} {survey after : Survey}
    {tasks : List Task} (h : Follows buffer signatures instruction survey after tasks) :
    after.script.unclaimed = survey.script.unclaimed := by
  rw [Script.unclaimed, Script.unclaimed, h.sameImage.slots]

/-- A moment at which an instruction is entered leaves the first word of it claimed, and
fewer slots free than before. -/
theorem Moment.claimed {nested : Nested} {rest : List Nested} {survey after : Survey}
    {more : List Task} {offset : Nat}
    (hclaim : (⟨nested :: rest, survey⟩ : Moment).claim? buffer = some offset)
    (hperform : nested.task.perform buffer signatures survey = (after, .ok more)) :
    offset % 4 = 0 ∧ survey.script.isClaimed (offset / 4) = false ∧
      after.script.isClaimed (offset / 4) = true ∧
      after.script.unclaimed < survey.script.unclaimed := by
  obtain ⟨depth, tail, instruction, entered, hstack, hdecode, hentered⟩ :=
    Moment.claim?_eq_some.mp hclaim
  cases hstack
  obtain ⟨hoffset, haligned, -⟩ := decode_ok hdecode
  have hbefore := Script.not_isClaimed_of_claimInstruction hentered
  have hafter := Script.isClaimed_of_claimInstruction hdecode hentered
  have hfewer := Script.unclaimed_claimInstruction_lt hentered
  rw [hoffset] at hbefore
  cases Task.performs_of_perform hperform with
  | scanEnd hend =>
    have hinside := (decode_ok hdecode).2.2.1
    omega
  | scanUndecodable hinside hundecodable =>
    rw [hdecode] at hundecodable
    cases hundecodable
  | scanRefused hinside hsame hrefused =>
    rw [hdecode] at hsame
    cases hsame
    rw [hentered] at hrefused
    cases hrefused
  | scanEntered hinside hsame hclaimed hfollow =>
    rw [hdecode] at hsame
    cases hsame
    rw [hentered] at hclaimed
    cases hclaimed
    refine ⟨haligned, hbefore, ?_, ?_⟩
    · exact (Script.Extends.sameImage hfollow.sameImage).isClaimed hafter
    · rw [hfollow.unclaimed_eq]
      exact hfewer

/-- From a moment on, instructions are entered where nothing is claimed, each at an offset of
its own, and as many as slots are free at the most. -/
theorem claims_course (stack : List Nested) (survey : Survey) :
    let claims := (course buffer signatures stack survey).filterMap (Moment.claim? buffer)
    (∀ offset ∈ claims, offset % 4 = 0 ∧ survey.script.isClaimed (offset / 4) = false) ∧
      claims.Nodup ∧ claims.length ≤ survey.script.unclaimed := by
  fun_induction course buffer signatures stack survey with
  | case1 survey =>
    have hnone : (⟨[], survey⟩ : Moment).claim? buffer = none := rfl
    rw [List.filterMap_cons_none hnone]
    exact ⟨fun _ hmem => absurd hmem List.not_mem_nil, .nil, Nat.zero_le _⟩
  | case2 survey nested rest explored fault hfails =>
    cases hclaim : (⟨nested :: rest, survey⟩ : Moment).claim? buffer with
    | none =>
      rw [List.filterMap_cons_none hclaim]
      exact ⟨fun _ hmem => absurd hmem List.not_mem_nil, .nil, Nat.zero_le _⟩
    | some offset =>
      obtain ⟨depth, tail, instruction, entered, -, hdecode, hentered⟩ :=
        Moment.claim?_eq_some.mp hclaim
      obtain ⟨hoffset, haligned, -⟩ := decode_ok hdecode
      have hbefore := Script.not_isClaimed_of_claimInstruction hentered
      have hfewer := Script.unclaimed_claimInstruction_lt hentered
      rw [hoffset] at hbefore
      rw [List.filterMap_cons_some hclaim, List.filterMap_nil]
      refine ⟨?_, List.pairwise_singleton _ _, Nat.lt_of_le_of_lt (Nat.zero_le _) hfewer⟩
      intro other hmem
      rw [List.mem_singleton.mp hmem]
      exact ⟨haligned, hbefore⟩
  | case3 survey nested rest after more hperform ih =>
    obtain ⟨hfree, hnodup, hlength⟩ := ih
    have hextends := (Task.performs_of_perform hperform).places.extends
    have hbefore : ∀ offset ∈ (course buffer signatures (nest nested.depth more ++ rest)
        after).filterMap (Moment.claim? buffer),
        offset % 4 = 0 ∧ survey.script.isClaimed (offset / 4) = false := by
      intro offset hmem
      obtain ⟨haligned, hunclaimed⟩ := hfree offset hmem
      refine ⟨haligned, Bool.eq_false_iff.mpr ?_⟩
      intro hclaimed
      rw [hextends.isClaimed hclaimed] at hunclaimed
      cases hunclaimed
    cases hclaim : (⟨nested :: rest, survey⟩ : Moment).claim? buffer with
    | none =>
      rw [List.filterMap_cons_none hclaim]
      exact ⟨hbefore, hnodup, Nat.le_trans hlength (Task.unclaimed_perform_le hperform)⟩
    | some offset =>
      obtain ⟨haligned, hunclaimed, hclaimed, hfewer⟩ := Moment.claimed hclaim hperform
      rw [List.filterMap_cons_some hclaim]
      refine ⟨?_, ?_, ?_⟩
      · intro other hmem
        rcases List.mem_cons.mp hmem with rfl | hmem
        · exact ⟨haligned, hunclaimed⟩
        · exact hbefore other hmem
      · rw [List.nodup_cons]
        refine ⟨?_, hnodup⟩
        intro hmem
        rw [(hfree offset hmem).2] at hclaimed
        cases hclaimed
      · rw [List.length_cons]
        omega

/-- Each call around a task has used up a slot of its own, and so has the call whose
arguments or whose table a task is about. -/
def Nested.Within (count unclaimed : Nat) (nested : Nested) : Prop :=
  match nested.task with
  | .probe _ | .scan _ => nested.depth + unclaimed ≤ count + 1
  | .arguments .. | .entries .. => nested.depth + unclaimed ≤ count

namespace Nested.Within

variable {count unclaimed : Nat} {nested : Nested}

theorem depth_le (h : nested.Within count unclaimed) : nested.depth ≤ count + 1 := by
  unfold Nested.Within at h
  split at h <;> omega

theorem mono {fewer : Nat} (h : nested.Within count unclaimed) (hle : fewer ≤ unclaimed) :
    nested.Within count fewer := by
  unfold Nested.Within at h ⊢
  split at h <;> omega

/-- A call that has used up a slot of its own may call another. -/
theorem of_mem_nest {depth : Nat} {tasks : List Task} (h : depth + unclaimed ≤ count)
    (hmem : nested ∈ nest depth tasks) : nested.Within count unclaimed := by
  obtain ⟨-, hdepth | ⟨hdepth, hprobe, -⟩⟩ := depth_of_mem_nest hmem
  · unfold Nested.Within
    split <;> omega
  · unfold Nested.Within
    split
    · omega
    · omega
    · next htask => simp [htask, Task.isProbe] at hprobe
    · next htask => simp [htask, Task.isProbe] at hprobe

theorem step {survey after : Survey} {more : List Task}
    (h : nested.Within count survey.script.unclaimed)
    (hperform : nested.task.perform buffer signatures survey = (after, .ok more)) :
    ∀ other ∈ nest nested.depth more, other.Within count after.script.unclaimed := by
  obtain ⟨depth, task⟩ := nested
  have hfewer := Task.unclaimed_perform_le hperform
  intro other hmem
  cases Task.performs_of_perform hperform with
  | probeKnown | scanEnd | scanUndecodable | scanRefused | argumentsDone | tableEnd => cases hmem
  | probeNew =>
    simp only [nest, Task.isProbe, Bool.false_and, Bool.false_eq_true, ↓reduceIte, List.map_cons,
      List.map_nil, List.mem_singleton] at hmem
    rw [hmem]
    exact h
  | scanEntered hinside hdecode hclaim hfollow =>
    have hused := Script.unclaimed_claimInstruction_lt hclaim
    rw [← hfollow.unclaimed_eq] at hused
    unfold Nested.Within at h
    exact of_mem_nest (by dsimp only at h hused ⊢; omega) hmem
  | argumentValue | argumentUnknown | argumentOutside | argumentEntered | tableEntry =>
    unfold Nested.Within at h
    exact of_mem_nest (by dsimp only at h hfewer ⊢; omega) hmem

end Nested.Within

theorem depth_course {count : Nat} {stack : List Nested} {survey : Survey}
    (h : ∀ nested ∈ stack, nested.Within count survey.script.unclaimed) :
    ∀ moment ∈ course buffer signatures stack survey,
      ∀ nested ∈ moment.stack, nested.depth ≤ count + 1 := by
  have hdepth : ∀ nested ∈ stack, nested.depth ≤ count + 1 := fun nested hmem =>
    (h nested hmem).depth_le
  fun_induction course buffer signatures stack survey with
  | case1 survey | case2 survey head rest explored fault hfails =>
    intro moment hmem
    rw [List.mem_singleton.mp hmem]
    exact hdepth
  | case3 survey head rest after more hperform ih =>
    have hafter : ∀ nested ∈ nest head.depth more ++ rest,
        nested.Within count after.script.unclaimed := by
      intro nested hmem
      rcases List.mem_append.mp hmem with hmore | hrest
      · exact (h head List.mem_cons_self).step hperform nested hmore
      · exact (h nested (List.mem_cons_of_mem _ hrest)).mono (Task.unclaimed_perform_le hperform)
    intro moment hmem
    rcases List.mem_cons.mp hmem with rfl | hmem
    · exact hdepth
    · exact ih hafter (fun nested hmem => (hafter nested hmem).depth_le) moment hmem

/-- The work that a disassembly does, whatever comes of it. -/
structure Economical (bytes : List UInt8) (signatures : Signatures) : Prop where
  ends : LocalStacks.Ends (.ofBytes bytes) signatures
  /-- The moments are those between two tasks of the exploration. -/
  moments : ∀ {tasks : List Task} {survey : Survey},
    Exploring (.ofBytes bytes) signatures tasks survey ↔
      ∃ stack, stack.map Nested.task = tasks ∧
        ⟨stack, survey⟩ ∈ (Buffer.ofBytes bytes).course signatures
  /-- No scan begins where one has begun before. -/
  starts_nodup : (startsOf (trace bytes signatures).log).Nodup
  starts_iff : ∀ {script : Script}, disassemble bytes signatures = .ok script →
    ∀ {start : Nat}, start ∈ startsOf (trace bytes signatures).log ↔ start ∈ script.branches
  /-- No instruction is entered twice, and no more are entered than there are words. -/
  claims_nodup : (((Buffer.ofBytes bytes).course signatures).filterMap
    (Moment.claim? (.ofBytes bytes))).Nodup
  claims_length : (((Buffer.ofBytes bytes).course signatures).filterMap
    (Moment.claim? (.ofBytes bytes))).length ≤ (Buffer.ofBytes bytes).wordCount
  depth : ∀ moment ∈ (Buffer.ofBytes bytes).course signatures, ∀ nested ∈ moment.stack,
    nested.depth ≤ (Buffer.ofBytes bytes).wordCount + 1
  /-- What an instruction leaves to be done stays with the call that came to it, except the probe
  of a subroutine or of another thread: this one is a call that the other waits for. -/
  depth_followed : ∀ {instruction : Instruction} {survey after : Survey} {tasks : List Task},
    Follows (.ofBytes bytes) signatures instruction survey after tasks →
      ∀ {depth : Nat}, ∀ nested ∈ nest depth tasks, nested.depth =
        if nested.task.isProbe = true ∧
            (instruction.opcode.flow = .gosub ∨ instruction.opcode.flow = .fork) then
          depth + 1
        else depth
  /-- The probe of an argument or of an entry of a table is such a call as well. -/
  depth_performed : ∀ {task : Task} {survey after : Survey} {more : List Task},
    Task.Performs (.ofBytes bytes) signatures survey task after more →
      (∀ offset, task ≠ .scan offset) → ∀ {depth : Nat}, ∀ nested ∈ nest depth more,
        nested.depth = if nested.task.isProbe = true then depth + 1 else depth

theorem unclaimed_le_wordCount (script : Script) : script.unclaimed ≤ script.wordCount :=
  Array.countP_le_size

theorem economical (bytes : List UInt8) (signatures : Signatures) :
    Economical bytes signatures := by
  obtain ⟨found, hfound⟩ := exists_findEntrypoints (.ofBytes bytes) entrypointLimit 0
    (.blank (Buffer.ofBytes bytes).wordCount)
  have hunclaimed := unclaimed_le_wordCount found
  rw [(Script.Layout.found hfound).wordCount_eq] at hunclaimed
  constructor
  case ends => exact LocalStacks.ends _ _
  case moments => exact exploring_iff
  case starts_nodup => exact nodup_startsOf_trace bytes signatures
  case starts_iff =>
    intro script h start
    exact mem_startsOf_trace h
  case claims_nodup =>
    simp only [Buffer.course, hfound]
    exact (claims_course _ _).2.1
  case claims_length =>
    simp only [Buffer.course, hfound]
    exact Nat.le_trans (claims_course _ _).2.2 hunclaimed
  case depth =>
    simp only [Buffer.course, hfound]
    refine depth_course ?_
    intro nested hmem
    obtain ⟨start, hstart, rfl⟩ := List.mem_map.mp hmem
    dsimp only [Nested.Within]
    omega
  case depth_followed =>
    intro instruction survey after tasks hfollows depth nested hmem
    exact hfollows.depth_eq hmem
  case depth_performed =>
    intro task survey after more hperforms hscan depth nested hmem
    exact hperforms.depth_eq hscan hmem

end ScriptDisassembler
