import ScriptDisassembler.Proofs.Naming

/-!
A script only grows while it is disassembled. Beside the tokens and the owners of slots, the
names of addresses stay what they are, no address loses a role, and entrypoints come behind
those found before, none once the search for them is over. So whatever is known at one moment
of an exploration is known at its end, and the end is the same from wherever on the way it is
looked for.
-/

namespace ScriptDisassembler

namespace Labels

/-- The later names include the earlier ones. -/
structure Extends (before after : Labels) : Prop where
  name : ∀ {address : Nat} {name : String}, before.find? address = some name →
    after.find? address = some name
  count_le : before.count ≤ after.count

namespace Extends

theorem refl (labels : Labels) : labels.Extends labels :=
  ⟨fun hname => hname, Nat.le_refl _⟩

theorem trans {before between after : Labels} (hfirst : before.Extends between)
    (hsecond : between.Extends after) : before.Extends after :=
  ⟨fun hname => hsecond.name (hfirst.name hname), Nat.le_trans hfirst.count_le hsecond.count_le⟩

theorem add (labels : Labels) (address : Nat) (make : Nat → String) :
    labels.Extends (labels.add address make).2 := by
  cases hfind : labels.find? address with
  | some name =>
    rw [add_of_some hfind]
    exact refl labels
  | none =>
    constructor
    · intro other name hother
      have hne : other ≠ address := by
        rintro rfl
        rw [hfind] at hother
        cases hother
      rw [find?_add, if_neg hne, hother]
    · rw [add_of_none hfind]
      exact Nat.le_succ _

theorem labelOperands (operands : List Operand) (labels : Labels) :
    labels.Extends (Script.labelOperands operands labels).2 := by
  induction operands generalizing labels with
  | nil => exact refl labels
  | cons operand rest ih =>
    simp only [Script.labelOperands]
    split
    · exact ih labels
    · exact (add labels _ _).trans (ih _)

theorem labelDestinations (table place : Nat) (destinations : List Nat) (labels : Labels) :
    labels.Extends (Script.labelDestinations table place destinations labels).2 := by
  induction destinations generalizing labels place with
  | nil => exact refl labels
  | cons destination rest ih =>
    simp only [Script.labelDestinations]
    exact (add labels _ _).trans (ih _ _)

end Extends

end Labels

namespace Script

/-- The destinations that were found in the tables of a kind. -/
def destinations (script : Script) : TableKind → AddressSet
  | .jump => script.jumpDestinations
  | .subroutine => script.subroutineDestinations

theorem mem_insertTable {script : Script} {kind other : TableKind} {table address : Nat} :
    address ∈ (script.insertTable kind table).tables other ↔
      other = kind ∧ address = table ∨ address ∈ script.tables other := by
  cases kind <;> cases other <;> simp [insertTable, tables]

theorem mem_insertDestination {script : Script} {kind other : TableKind}
    {destination address : Nat} :
    address ∈ (script.insertDestination kind destination).destinations other ↔
      other = kind ∧ address = destination ∨ address ∈ script.destinations other := by
  cases kind <;> cases other <;> simp [insertDestination, destinations]

/-- The later of two scripts has all that the earlier one has. -/
structure Grows (before after : Script) : Prop extends before.Extends after where
  labels : before.labels.Extends after.labels
  entrypoints : before.entrypoints <+: after.entrypoints
  branches : ∀ {address : Nat}, address ∈ before.branches → address ∈ after.branches
  subroutines : ∀ {address : Nat}, address ∈ before.subroutines → address ∈ after.subroutines
  reentries : ∀ {address : Nat}, address ∈ before.reentries → address ∈ after.reentries
  tables : ∀ (kind : TableKind) {address : Nat}, address ∈ before.tables kind →
    address ∈ after.tables kind
  destinations : ∀ (kind : TableKind) {address : Nat}, address ∈ before.destinations kind →
    address ∈ after.destinations kind

namespace Grows

variable {script : Script}

theorem refl (script : Script) : script.Grows script where
  toExtends := .refl script
  labels := .refl _
  entrypoints := List.prefix_refl _
  branches h := h
  subroutines h := h
  reentries h := h
  tables _ _ h := h
  destinations _ _ h := h

theorem trans {before between after : Script} (hfirst : before.Grows between)
    (hsecond : between.Grows after) : before.Grows after where
  toExtends := hfirst.toExtends.trans hsecond.toExtends
  labels := hfirst.labels.trans hsecond.labels
  entrypoints := hfirst.entrypoints.trans hsecond.entrypoints
  branches h := hsecond.branches (hfirst.branches h)
  subroutines h := hsecond.subroutines (hfirst.subroutines h)
  reentries h := hsecond.reentries (hfirst.reentries h)
  tables kind _ h := hsecond.tables kind (hfirst.tables kind h)
  destinations kind _ h := hsecond.destinations kind (hfirst.destinations kind h)

/-- A change to the image of a script that leaves the sets of addresses alone. -/
theorem of_image {tokens : Array Token} {slots : Array (Option Nat)} {labels : Labels}
    {entrypoints : List Nat}
    (hextends : script.Extends { script with tokens, slots, labels, entrypoints })
    (hlabels : script.labels.Extends labels) (hentrypoints : script.entrypoints <+: entrypoints) :
    script.Grows { script with tokens, slots, labels, entrypoints } where
  toExtends := hextends
  labels := hlabels
  entrypoints := hentrypoints
  branches h := h
  subroutines h := h
  reentries h := h
  tables kind _ h := by cases kind <;> exact h
  destinations kind _ h := by cases kind <;> exact h

theorem place (script : Script) (token : Token) : script.Grows (script.place token) := by
  obtain ⟨slots, -, heq⟩ := script.place_eq token
  have hextends := Extends.place script token
  rw [heq] at hextends ⊢
  exact of_image hextends (.refl _) (List.prefix_refl _)

theorem claimInstruction {instruction : Instruction} {entered : Script}
    (h : script.claimInstruction instruction = .ok entered) : script.Grows entered := by
  have hextends := Extends.claimInstruction h
  have hlabels := Labels.Extends.labelOperands instruction.operands script.labels
  rw [← labels_claimInstruction h] at hlabels
  obtain ⟨named, slots, labels, -, rfl⟩ := claimInstruction_eq h
  exact of_image hextends hlabels (List.prefix_refl _)

theorem placeTable (script : Script) (table : Nat) (found : List Nat) :
    script.Grows (script.placeTable table found) := by
  have hextends := Extends.placeTable script table found
  have hlabels : script.labels.Extends (script.placeTable table found).labels := by
    rw [Script.placeTable, labels_place]
    exact .labelDestinations table 0 found script.labels
  obtain ⟨names, slots, labels, heq⟩ := script.placeTable_eq table found
  rw [heq] at hextends hlabels ⊢
  exact of_image hextends hlabels (List.prefix_refl _)

theorem placeEntrypoint (script : Script) (index target : Nat) :
    script.Grows (script.placeEntrypoint index target) := by
  have hnamed : script.Extends
      { script with
        labels := (script.labels.add target fun _ => (Label.entrypoint index).text).2
        entrypoints := script.entrypoints ++ [target] } := .congr rfl rfl
  have hextends : script.Extends (script.placeEntrypoint index target) := hnamed.trans (.place _ _)
  have hlabels : script.labels.Extends (script.placeEntrypoint index target).labels := by
    rw [Script.placeEntrypoint, labels_place]
    exact .add script.labels target _
  obtain ⟨name, slots, labels, heq⟩ := script.placeEntrypoint_eq index target
  rw [heq] at hextends hlabels ⊢
  exact of_image hextends hlabels (List.prefix_append _ _)

theorem insertBranch (script : Script) (address : Nat) :
    script.Grows (script.insertBranch address) :=
  { refl script with
    toExtends := .congr rfl rfl
    branches := fun h => AddressSet.mem_insert.mpr (.inr h) }

theorem insertSubroutine (script : Script) (address : Nat) :
    script.Grows (script.insertSubroutine address) :=
  { refl script with
    toExtends := .congr rfl rfl
    subroutines := fun h => AddressSet.mem_insert.mpr (.inr h) }

theorem insertReentry (script : Script) (address : Nat) :
    script.Grows (script.insertReentry address) :=
  { refl script with
    toExtends := .congr rfl rfl
    reentries := fun h => AddressSet.mem_insert.mpr (.inr h) }

theorem insertRole (script : Script) (address : Nat) (role : BranchRole) :
    script.Grows (script.insertRole role address) := by
  unfold Script.insertRole
  split
  · exact insertSubroutine script address
  · exact insertReentry script address

theorem insertTable (script : Script) (address : Nat) (kind : TableKind) :
    script.Grows (script.insertTable kind address) := by
  have htables : ∀ (other : TableKind) {known : Nat}, known ∈ script.tables other →
      known ∈ (script.insertTable kind address).tables other :=
    fun _ _ h => mem_insertTable.mpr (.inr h)
  cases kind with
  | jump => exact { refl script with toExtends := .congr rfl rfl, tables := htables }
  | subroutine => exact { refl script with toExtends := .congr rfl rfl, tables := htables }

theorem insertDestination (script : Script) (address : Nat) (kind : TableKind) :
    script.Grows (script.insertDestination kind address) := by
  have hdestinations : ∀ (other : TableKind) {known : Nat}, known ∈ script.destinations other →
      known ∈ (script.insertDestination kind address).destinations other :=
    fun _ _ h => mem_insertDestination.mpr (.inr h)
  cases kind with
  | jump =>
    exact { refl script with toExtends := .congr rfl rfl, destinations := hdestinations }
  | subroutine =>
    exact { refl script with
      toExtends := .congr rfl rfl
      subroutines := fun h => AddressSet.mem_insert.mpr (.inr h)
      destinations := hdestinations }

end Grows

end Script

variable {buffer : Buffer} {signatures : Signatures}

theorem Follows.grows {instruction : Instruction} {survey after : Survey} {tasks : List Task}
    (h : Follows buffer signatures instruction survey after tasks) :
    survey.script.Grows after.script := by
  cases h with
  | stop | onward | call | unknown | outside | tableOutside | tableKnown => exact .refl _
  | jump | conditional =>
    rw [script_followEdge]
    exact .refl _
  | gosub => exact .insertSubroutine _ _
  | fork => exact .insertReentry _ _
  | tableNew => exact .insertTable _ _ _

theorem Task.Performs.grows {task : Task} {survey after : Survey} {tasks : List Task}
    (h : Task.Performs buffer signatures survey task after tasks) :
    survey.script.Grows after.script := by
  cases h with
  | probeKnown | scanEnd | scanUndecodable | scanRefused | argumentsDone | argumentValue
  | argumentUnknown | argumentOutside => exact .refl _
  | probeNew => exact .insertBranch _ _
  | scanEntered hinside hdecode hclaim hfollow =>
    exact (Script.Grows.claimInstruction hclaim).trans hfollow.grows
  | argumentEntered => exact .insertRole _ _ _
  | tableEnd =>
    rw [script_closeTable]
    exact .placeTable _ _ _
  | tableEntry => exact .insertDestination _ _ _

/-- The later of two scripts has all that the earlier one has, and no more entrypoints. -/
structure Script.Continues (before after : Script) : Prop where
  grows : before.Grows after
  entrypoints : after.entrypoints = before.entrypoints
  only : ∀ token ∈ after.tokens, token.IsEntrypoint → token ∈ before.tokens

namespace Script.Continues

variable {found script after : Script}

theorem refl (script : Script) : script.Continues script :=
  ⟨.refl script, rfl, fun _ hmem _ => hmem⟩

theorem performs {task : Task} {survey after : Survey} {tasks : List Task}
    (h : found.Continues survey.script)
    (hperform : Task.Performs buffer signatures survey task after tasks) :
    found.Continues after.script := by
  refine ⟨h.grows.trans hperform.grows, hperform.places.entrypoints.trans h.entrypoints, ?_⟩
  intro token hmem hentrypoint
  rcases hperform.places.mem_tokens hmem with hold | ⟨-, hnew⟩
  · exact h.only token hold hentrypoint
  · exact absurd hentrypoint hnew

theorem filled (h : found.Continues script) (hfilled : script.Filled after)
    (hgrows : script.Grows after) : found.Continues after := by
  refine ⟨h.grows.trans hgrows, ?_, ?_⟩
  · rw [hfilled.rest, h.entrypoints]
  · intro token hmem hentrypoint
    rcases hfilled.tokens token hmem with hold | hdata
    · exact h.only token hold hentrypoint
    · cases token <;> trivial

end Script.Continues

/-- A task that fails has forgotten nothing either. -/
theorem Task.Fails.grows {task : Task} {survey after : Survey} {fault : Fault}
    (h : Task.Fails buffer signatures survey task after fault) :
    survey.script.Grows after.script := by
  cases h with
  | scanRead | entryRead => exact .refl _
  | unknownMethod hinside hdecode hclaim | argumentCount hinside hdecode hclaim =>
    exact .claimInstruction hclaim

/-- A run forgets nothing, whatever comes of it. -/
theorem run_grows (buffer : Buffer) (signatures : Signatures) (tasks : List Task)
    (survey : Survey) :
    survey.script.Grows (run buffer signatures tasks survey).1.script := by
  fun_induction run buffer signatures tasks survey with
  | case1 survey => exact .refl _
  | case2 survey task rest explored fault hperform =>
    exact (Task.fails_of_perform hperform).grows
  | case3 survey task rest after more hperform ih =>
    exact (Task.performs_of_perform hperform).grows.trans ih

theorem fillGaps_grows {count : Nat} {script filled : Script}
    (hfilled : fillGaps buffer count 0 script = .ok filled) : script.Grows filled := by
  refine fillGaps_induction (fun _ filled => script.Grows filled) ?_ ?_ (.refl script) hfilled
  · intro index filled hclaimed h
    exact h
  · intro index word filled hunclaimed hword h
    exact h.trans (.place filled _)

namespace Exploring

variable {tasks : List Task} {survey explored : Survey}

/-- The rest of an exploration comes to the same as the whole of it. -/
theorem run_eq (h : Exploring buffer signatures tasks survey) :
    ∃ found, findEntrypoints buffer entrypointLimit 0 (.blank buffer.wordCount) = .ok found ∧
      run buffer signatures tasks survey =
        run buffer signatures (found.entrypoints.map .probe)
          ⟨found, #[.entrypointsFound found.entrypoints.length]⟩ := by
  induction h with
  | start hfound => exact ⟨_, hfound, rfl⟩
  | step hbefore hperform ih =>
    obtain ⟨found, hfound, hrun⟩ := ih
    exact ⟨found, hfound, by rw [← run_cons_ok _ hperform, hrun]⟩

/-- Where an exploration ends, all of its moments lead. -/
theorem run_ending (h : Exploring buffer signatures tasks survey)
    (hend : Exploring buffer signatures [] explored) :
    run buffer signatures tasks survey = (explored, .ok ()) := by
  obtain ⟨found, hfound, hrun⟩ := h.run_eq
  obtain ⟨other, hother, hlast⟩ := hend.run_eq
  rw [hfound, Except.ok.injEq] at hother
  subst hother
  rw [hrun, ← hlast, run_nil]

theorem grows_ending (h : Exploring buffer signatures tasks survey)
    (hend : Exploring buffer signatures [] explored) : survey.script.Grows explored.script := by
  have hgrows := run_grows buffer signatures tasks survey
  rw [h.run_ending hend] at hgrows
  exact hgrows

end Exploring

/-- What is returned is what was explored, with its gaps filled. -/
theorem explored_of_disassemble {bytes : List UInt8} {script : Script}
    (h : disassemble bytes signatures = .ok script) :
    ∃ explored, Exploring (.ofBytes bytes) signatures [] explored ∧
      fillGaps (.ofBytes bytes) (Buffer.ofBytes bytes).wordCount 0 explored.script =
        .ok script := by
  rcases trace_cases bytes signatures with ⟨explored, filled, hend, hfilled, htrace⟩ |
    ⟨task, rest, survey, explored, fault, -, -, htrace⟩
  · simp only [disassemble, htrace, Except.ok.injEq] at h
    rw [← h]
    exact ⟨explored, hend, hfilled⟩
  · simp only [disassemble, htrace, reduceCtorEq] at h

end ScriptDisassembler
