import ScriptDisassembler.Proofs.Slots
import ScriptDisassembler.Proofs.Steps

/-!
What a task does to the image of a script, which is its tokens, slots, names and entrypoint
words. A scan may enter the one instruction that it decodes, and the end of a table places
the table; no task does anything else to the image.
-/

namespace ScriptDisassembler

/-- Two scripts that may differ in their sets of addresses only. -/
structure Script.SameImage (before after : Script) : Prop where
  tokens : after.tokens = before.tokens
  slots : after.slots = before.slots
  labels : after.labels = before.labels
  entrypoints : after.entrypoints = before.entrypoints

namespace Script.SameImage

variable (script : Script) (address : Nat)

theorem refl : SameImage script script :=
  ⟨rfl, rfl, rfl, rfl⟩

theorem insertBranch : SameImage script (script.insertBranch address) :=
  ⟨rfl, rfl, rfl, rfl⟩

theorem insertSubroutine : SameImage script (script.insertSubroutine address) :=
  ⟨rfl, rfl, rfl, rfl⟩

theorem insertReentry : SameImage script (script.insertReentry address) :=
  ⟨rfl, rfl, rfl, rfl⟩

theorem insertRole (role : BranchRole) : SameImage script (script.insertRole role address) := by
  unfold Script.insertRole
  split
  · exact insertSubroutine script address
  · exact insertReentry script address

theorem insertTable (kind : TableKind) : SameImage script (script.insertTable kind address) := by
  cases kind <;> exact ⟨rfl, rfl, rfl, rfl⟩

theorem insertDestination (kind : TableKind) :
    SameImage script (script.insertDestination kind address) := by
  cases kind <;> exact ⟨rfl, rfl, rfl, rfl⟩

end Script.SameImage

/-- What a task places in the image of a script. -/
inductive Task.Places (buffer : Buffer) (script : Script) : Task → Script → Prop
  | nothing {task : Task} {after : Script} (hsame : script.SameImage after) :
      Places buffer script task after
  | instruction {offset : Nat} {instruction : Instruction} {entered after : Script}
      (hdecode : decode buffer offset = .ok instruction)
      (hclaim : script.claimInstruction instruction = .ok entered)
      (hsame : entered.SameImage after) :
      Places buffer script (.scan offset) after
  | table {kind : TableKind} {table : Nat} {found : List Nat} :
      Places buffer script (.entries kind table found) (script.placeTable table found)

variable {buffer : Buffer} {signatures : Signatures}

@[simp] theorem script_note (survey : Survey) (event : Event) :
    (survey.note event).script = survey.script := rfl

@[simp] theorem script_update (survey : Survey) (change : Script → Script) :
    (survey.update change).script = change survey.script := rfl

theorem script_closeTable (table : Nat) (found : List Nat) (survey : Survey) :
    (closeTable table found survey).script = survey.script.placeTable table found := by
  simp only [closeTable]
  split <;> rfl

theorem Follows.sameImage {instruction : Instruction} {survey after : Survey}
    {tasks : List Task} (h : Follows buffer signatures instruction survey after tasks) :
    survey.script.SameImage after.script := by
  cases h with
  | stop hflow | onward hflow | call hflow | unknown hflow | outside hflow
  | tableOutside hflow | tableKnown hflow => exact .refl _
  | jump hflow hvalue | conditional hflow hvalue =>
    rw [script_followEdge]
    exact .refl _
  | gosub hflow hvalue htarget => exact .insertSubroutine _ _
  | fork hflow hvalue htarget => exact .insertReentry _ _
  | tableNew hflow hvalue htable hmem => exact .insertTable _ _ _

theorem Task.Performs.places {task : Task} {survey after : Survey} {tasks : List Task}
    (h : Task.Performs buffer signatures survey task after tasks) :
    Task.Places buffer survey.script task after.script := by
  cases h with
  | probeKnown | scanEnd | scanUndecodable | scanRefused | argumentsDone | argumentValue
  | argumentUnknown | argumentOutside => exact .nothing (.refl _)
  | probeNew hmem => exact .nothing (.insertBranch _ _)
  | scanEntered hinside hdecode hclaim hfollow =>
    exact .instruction hdecode hclaim hfollow.sameImage
  | argumentEntered hrole hvalue htarget => exact .nothing (.insertRole _ _ _)
  | tableEnd hentry =>
    rw [script_closeTable]
    exact .table
  | tableEntry hentry => exact .nothing (.insertDestination _ _ _)

end ScriptDisassembler
