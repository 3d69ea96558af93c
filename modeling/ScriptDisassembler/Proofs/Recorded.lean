import Mathlib
import ScriptDisassembler.Proofs.Provenance
import ScriptDisassembler.Proofs.Retention

/-!
The addresses that a disassembly records. Whatever is read out of a word is recorded only if it
is the offset of another word, so every such address is inside the buffer. The way on of a
conditional jump is recorded as it is: the jump may be the last instruction of the buffer, and
then the end of the buffer is recorded as the start of a scan, in which nothing is scanned.
-/

namespace ScriptDisassembler

/-- The offset of a word of the buffer. -/
def Buffer.Inside (buffer : Buffer) (address : Nat) : Prop :=
  address % 4 = 0 ∧ address < buffer.length

/-- Only a branch may be at the end of the buffer. -/
def Role.Allows (buffer : Buffer) (role : Role) (address : Nat) : Prop :=
  buffer.Inside address ∨ role = .branch ∧ address = buffer.length

/-- A scan begins at a word or at the end of the buffer. -/
def Task.Bounded (buffer : Buffer) : Task → Prop
  | .probe start => Role.branch.Allows buffer start
  | .scan _ | .arguments .. | .entries .. => True

variable {buffer : Buffer} {signatures : Signatures} {address : Nat}

namespace Buffer

theorem inside_of_wordOffset? {value : Int} (h : buffer.wordOffset? value = some address) :
    buffer.Inside address :=
  (wordOffset?_eq_some.mp h).2

theorem inside_of_headerOffset? {value : Int} (h : buffer.headerOffset? value = some address) :
    buffer.Inside address :=
  inside_of_wordOffset? (wordOffset?_of_headerOffset? h)

theorem not_inside_length : ¬ buffer.Inside buffer.length :=
  fun hinside => Nat.lt_irrefl _ hinside.2

end Buffer

/-- An instruction ends before another word or at the end of the buffer. -/
theorem allows_next {offset : Nat} {instruction : Instruction}
    (h : decode buffer offset = .ok instruction) :
    Role.branch.Allows buffer instruction.next := by
  obtain ⟨hoffset, haligned, -, -, hnext, -⟩ := decode_ok h
  rcases Nat.lt_or_eq_of_le hnext with hlt | heq
  · refine .inl ⟨?_, hlt⟩
    unfold Instruction.next
    omega
  · exact .inr ⟨rfl, heq⟩

theorem Task.Leaves.bounded {script : Script} {task more : Task}
    (h : task.Leaves buffer script more) : more.Bounded buffer := by
  cases h with
  | scan | arguments | entries => trivial
  | argument htarget => exact .inl (Buffer.inside_of_wordOffset? htarget)
  | destination hentry =>
    obtain ⟨word, -, hdestination⟩ := nextDestination?_eq_some hentry
    exact .inl (Buffer.inside_of_headerOffset? hdestination)
  | followed hdecode hleaves =>
    cases hleaves with
    | onward | arguments | table => trivial
    | beside => exact allows_next hdecode
    | target htarget => exact .inl (Buffer.inside_of_wordOffset? htarget)

theorem Exploring.bounded {tasks : List Task} {survey : Survey}
    (h : Exploring buffer signatures tasks survey) : ∀ task ∈ tasks, task.Bounded buffer :=
  h.tasks_induction (Task.Bounded buffer)
    (fun htarget => .inl (Buffer.inside_of_headerOffset? htarget)) fun hleaves _ => hleaves.bounded

/-- What an instruction that is followed puts down is inside the buffer. -/
theorem Follows.inside {instruction : Instruction} {survey after : Survey} {tasks : List Task}
    {role : Role} (h : Follows buffer signatures instruction survey after tasks)
    (hholds : after.script.Holds role address) :
    survey.script.Holds role address ∨ buffer.Inside address := by
  cases h with
  | stop | onward | call | unknown | outside | tableOutside | tableKnown => exact .inl hholds
  | jump | conditional =>
    rw [script_followEdge] at hholds
    exact .inl hholds
  | gosub hflow hvalue htarget =>
    rw [script_update, Script.holds_insertSubroutine] at hholds
    rcases hholds with ⟨-, rfl⟩ | hbefore
    · exact .inr (Buffer.inside_of_wordOffset? htarget)
    · exact .inl hbefore
  | fork hflow hvalue htarget =>
    rw [script_update, Script.holds_insertReentry] at hholds
    rcases hholds with ⟨-, rfl⟩ | hbefore
    · exact .inr (Buffer.inside_of_wordOffset? htarget)
    · exact .inl hbefore
  | tableNew hflow hvalue htable =>
    rw [script_update, Script.holds_insertTable] at hholds
    rcases hholds with ⟨-, rfl⟩ | hbefore
    · exact .inr (Buffer.inside_of_wordOffset? htable)
    · exact .inl hbefore

/-- What a task puts down may be put down there. -/
theorem Task.Performs.allows {task : Task} {survey after : Survey} {tasks : List Task} {role : Role}
    (h : Task.Performs buffer signatures survey task after tasks) (hbounded : task.Bounded buffer)
    (hholds : after.script.Holds role address) :
    survey.script.Holds role address ∨ role.Allows buffer address := by
  cases h with
  | probeKnown | scanEnd | scanUndecodable | scanRefused | argumentsDone | argumentValue
  | argumentUnknown | argumentOutside => exact .inl hholds
  | probeNew =>
    rw [script_note, script_update, Script.holds_insertBranch] at hholds
    rcases hholds with ⟨rfl, rfl⟩ | hbefore
    · exact .inr hbounded
    · exact .inl hbefore
  | scanEntered hinside hdecode hclaim hfollow =>
    rcases hfollow.inside hholds with hentered | hinside
    · exact .inl ((Script.holds_claimInstruction hclaim).mp hentered)
    · exact .inr (.inl hinside)
  | argumentEntered hrole hvalue htarget =>
    rw [script_update, Script.holds_insertRole _ _ _ _ hrole] at hholds
    rcases hholds with ⟨-, rfl⟩ | hbefore
    · exact .inr (.inl (Buffer.inside_of_wordOffset? htarget))
    · exact .inl hbefore
  | tableEnd =>
    rw [script_closeTable, Script.holds_placeTable] at hholds
    exact .inl hholds
  | tableEntry hentry =>
    rw [script_update, Script.holds_insertDestination] at hholds
    obtain ⟨word, -, hdestination⟩ := nextDestination?_eq_some hentry
    rcases hholds with ⟨-, rfl⟩ | hbefore
    · exact .inr (.inl (Buffer.inside_of_headerOffset? hdestination))
    · exact .inl hbefore

/-- The entrypoints and the addresses in all roles are where they may be. -/
structure Script.Bounded (buffer : Buffer) (script : Script) : Prop where
  entrypoints : ∀ address ∈ script.entrypoints, buffer.Inside address
  roles : ∀ role address, script.Holds role address → role.Allows buffer address

theorem findEntrypoints_bounded {limit : Nat} {found : Script}
    (hfound : findEntrypoints buffer limit 0 (.blank buffer.wordCount) = .ok found) :
    found.Bounded buffer := by
  constructor
  · have hinvariant := findEntrypoints_induction
      (fun _ script => ∀ address ∈ script.entrypoints, buffer.Inside address) ?_
      (fun address hmem => absurd hmem List.not_mem_nil) hfound
    · obtain ⟨-, hinside⟩ := hinvariant
      exact hinside
    · intro index target word script hword htarget hbefore address hmem
      rw [entrypoints_placeEntrypoint, List.mem_append, List.mem_singleton] at hmem
      rcases hmem with hold | rfl
      · exact hbefore address hold
      · exact Buffer.inside_of_headerOffset? htarget
  · intro role address hholds
    rw [(findEntrypoints_unexplored hfound).rest] at hholds
    have hnone : ¬ address ∈ AddressSet.empty := List.not_mem_nil
    rcases role with _ | _ | _ | ⟨_ | _⟩ | _
    all_goals simp [Script.Holds, Script.blank, Script.tables, hnone] at hholds

theorem Exploring.script_bounded {tasks : List Task} {survey : Survey}
    (h : Exploring buffer signatures tasks survey) : survey.script.Bounded buffer := by
  induction h with
  | start hfound => exact findEntrypoints_bounded hfound
  | @step task more rest survey after hbefore hperform ih =>
    have hperforms := Task.performs_of_perform hperform
    constructor
    · rw [hperforms.places.entrypoints]
      exact ih.entrypoints
    · intro role address hholds
      rcases hperforms.allows (hbefore.bounded task List.mem_cons_self) hholds with hold | hnew
      · exact ih.roles role address hold
      · exact hnew

/-- Every address that is recorded is that of a word. Only where a conditional jump is the last
instruction of the buffer, the end of the buffer is a branch as well. -/
structure Script.Recorded (buffer : Buffer) (script : Script) : Prop where
  entrypoints : ∀ address ∈ script.entrypoints, buffer.Inside address
  subroutines : ∀ address ∈ script.subroutines, buffer.Inside address
  reentries : ∀ address ∈ script.reentries, buffer.Inside address
  tables : ∀ kind, ∀ address ∈ script.tables kind, buffer.Inside address
  destinations : ∀ address, address ∈ script.jumpDestinations ∨
    address ∈ script.subroutineDestinations → buffer.Inside address
  branches : ∀ address ∈ script.branches, buffer.Inside address ∨ address = buffer.length
  ending : buffer.length ∈ script.branches ↔ script.Falls buffer.length

theorem Script.Bounded.inside {script : Script} {role : Role} (h : script.Bounded buffer)
    (hrole : role ≠ .branch) (hholds : script.Holds role address) : buffer.Inside address := by
  rcases h.roles role address hholds with hinside | ⟨hbranch, -⟩
  · exact hinside
  · exact absurd hbranch hrole

/-- No operand, no role and no entrypoint is the end of the buffer. -/
theorem Script.Bounded.branch_length_iff {script : Script} (h : script.Bounded buffer) :
    script.Gives buffer signatures .branch buffer.length ∨ script.Implies .branch buffer.length ↔
      script.Falls buffer.length := by
  have hnames : ∀ opcode select, ¬ script.Names buffer opcode select buffer.length := by
    rintro opcode select ⟨instruction, operand, -, -, -, value, -, -, hinside⟩
    exact Buffer.not_inside_length hinside
  have hroles : ∀ role, role ≠ .branch → ¬ script.Holds role buffer.length :=
    fun role hrole hholds => Buffer.not_inside_length (h.inside hrole hholds)
  have hsubroutine := hroles .subroutine (by decide)
  have hreentry := hroles .reentry (by decide)
  have hdestination := hroles .destination (by decide)
  have hentrypoint : buffer.length ∉ script.entrypoints :=
    fun hmem => Buffer.not_inside_length (h.entrypoints _ hmem)
  rw [gives_branch]
  simp only [Implies, hnames, hentrypoint, hsubroutine, hreentry, hdestination, false_or, or_false]

theorem recorded_of_disassemble {bytes : List UInt8} {script : Script}
    (h : disassemble bytes signatures = .ok script) : script.Recorded (.ofBytes bytes) := by
  obtain ⟨explored, hend, hfilled⟩ := explored_of_disassemble h
  have hgaps := fillGaps_filled hfilled
  have hbounded : script.Bounded (.ofBytes bytes) := by
    constructor
    · rw [hgaps.rest]
      exact hend.script_bounded.entrypoints
    · intro role address hholds
      exact hend.script_bounded.roles role address (hgaps.holds.mp hholds)
  constructor
  case entrypoints => exact hbounded.entrypoints
  case subroutines =>
    intro address hmem
    exact hbounded.inside (by decide : Role.subroutine ≠ .branch) hmem
  case reentries =>
    intro address hmem
    exact hbounded.inside (by decide : Role.reentry ≠ .branch) hmem
  case tables =>
    intro kind address hmem
    exact hbounded.inside (by nofun : Role.table kind ≠ .branch) hmem
  case destinations =>
    intro address hmem
    exact hbounded.inside (by decide : Role.destination ≠ .branch) hmem
  case branches =>
    intro address hmem
    exact (hbounded.roles .branch address hmem).imp_right And.right
  case ending =>
    exact (holds_of_disassemble h .branch _).trans hbounded.branch_length_iff

/-- A conditional jump to itself that is the last instruction. -/
def lastJump : List UInt8 :=
  [4, 0, 0, 0, 0x42, 3, 0, 0, 0, 0, 0, 0, 0, 0, 0, 0, 0, 0, 0, 0x09]

theorem exists_lastJump :
    ∃ script, disassemble lastJump .empty = .ok script ∧
      (Buffer.ofBytes lastJump).length = 20 ∧ 20 ∈ script.branches := by
  have hbranches : (disassemble lastJump .empty).toOption.map
      (fun script => (script.branches.toList, (Buffer.ofBytes lastJump).length)) =
        some ([4, 20], 20) := by
    cbv
  obtain ⟨script, h, hread⟩ := exists_disassemble hbranches
  obtain ⟨hlist, hlength⟩ := Prod.mk.inj hread
  have hmem : 20 ∈ script.branches.toList := by
    rw [hlist]
    exact .tail _ (.head _)
  exact ⟨script, h, hlength, hmem⟩

theorem recorded_of_lastJump :
    ∃ script, disassemble lastJump .empty = .ok script ∧ script.Falls 20 ∧
      script.Recorded (.ofBytes lastJump) := by
  obtain ⟨script, h, hlength, hmem⟩ := exists_lastJump
  have hrecorded := recorded_of_disassemble h
  have hending := hrecorded.ending
  rw [hlength] at hending
  exact ⟨script, h, hending.mp hmem, hrecorded⟩

/-- Not every branch is the offset of a word: the end of the buffer is a branch here. -/
theorem branch_outside_lastJump :
    ∃ script, disassemble lastJump .empty = .ok script ∧
      ∃ address ∈ script.branches, ¬ (Buffer.ofBytes lastJump).Inside address := by
  obtain ⟨script, h, hlength, hmem⟩ := exists_lastJump
  refine ⟨script, h, 20, hmem, ?_⟩
  rw [← hlength]
  exact Buffer.not_inside_length

end ScriptDisassembler
