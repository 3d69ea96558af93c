import Mathlib
import ScriptDisassembler.Proofs.Followed
import ScriptDisassembler.Proofs.Partition

/-!
Edges that are not followed. An instruction that has been entered owes a warning for each of its
addresses that is not known or leads to no word. A branch pays it at once; a call leaves a task
that pays for one argument after the other. So at any time the warnings that were given and those
that tasks still owe are together what the instructions entered so far ask for, and in the end
each is given once.
-/

namespace ScriptDisassembler

theorem head?_append_string {front : String} {first : Char} (back : String)
    (h : front.toList.head? = some first) : (front ++ back).toList.head? = some first := by
  rw [String.toList_append, List.head?_append, h, Option.some_or]

theorem prefix_append_string {start : List Char} {front : String} (back : String)
    (h : start <+: front.toList) : start <+: (front ++ back).toList := by
  rw [String.toList_append]
  exact h.trans (List.prefix_append _ _)

/-- No instruction has a name that could be taken for a report of a skipped edge. -/
theorem Opcode.exists_head_name (opcode : Opcode) :
    ∃ first, first ≠ 'S' ∧ opcode.name.toList.head? = some first := by
  cases opcode <;> exact ⟨_, by decide, rfl⟩

namespace Event

/-- The report is a warning, and it says that something is skipped. -/
def Skips (event : Event) : Prop :=
  event.level = .warn ∧ "Skipping ".toList <+: event.message.toList

instance : DecidablePred Skips := fun _ =>
  inferInstanceAs (Decidable (_ ∧ _))

theorem not_skips {event : Event} (first : Char) (hfirst : first ≠ 'S')
    (hhead : event.message.toList.head? = some first) : ¬ event.Skips := by
  rintro ⟨-, rest, hrest⟩
  rw [← hrest] at hhead
  exact hfirst (Option.some.inj hhead).symm

theorem not_skips_of_level {event : Event} (hlevel : event.level ≠ .warn) : ¬ event.Skips :=
  fun hskips => hlevel hskips.1

theorem not_skips_entrypointsFound (count : Nat) : ¬ (entrypointsFound count).Skips :=
  not_skips_of_level (by decide : LogLevel.debug ≠ .warn)

theorem not_skips_probing (start : Nat) : ¬ (probing start).Skips :=
  not_skips_of_level (by decide : LogLevel.debug ≠ .warn)

theorem not_skips_tableDecoded (table count : Nat) : ¬ (tableDecoded table count).Skips :=
  not_skips_of_level (by decide : LogLevel.debug ≠ .warn)

theorem not_skips_summary (script : Script) : ¬ script.summary.Skips :=
  not_skips_of_level (by decide : LogLevel.info ≠ .warn)

theorem not_skips_trailingBytes (count : Nat) : ¬ (trailingBytes count).Skips := by
  apply not_skips 'I' (by decide)
  exact head?_append_string _ (head?_append_string _ rfl)

theorem not_skips_undecodable (offset : Nat) (reason : Undecodable) :
    ¬ (undecodable offset reason).Skips := by
  cases reason with
  | unknownHeader word =>
    apply not_skips 'I' (by decide)
    exact head?_append_string _ (head?_append_string _ (head?_append_string _
      (head?_append_string _ rfl)))
  | truncated opcode place =>
    obtain ⟨first, hfirst, hhead⟩ := opcode.exists_head_name
    apply not_skips first hfirst
    exact head?_append_string _ (head?_append_string _ (head?_append_string _
      (head?_append_string _ (head?_append_string _ hhead))))
  | unknownEncoding opcode code =>
    obtain ⟨first, hfirst, hhead⟩ := opcode.exists_head_name
    apply not_skips first hfirst
    exact head?_append_string _ (head?_append_string _ (head?_append_string _
      (head?_append_string _ (head?_append_string _ hhead))))

theorem not_skips_of_refusal {script : Script} {instruction : Instruction} {refusal : Event}
    (h : script.claimInstruction instruction = .error refusal) : ¬ refusal.Skips := by
  have hoverlap : ¬ (overlap instruction.opcode instruction.offset).Skips := by
    obtain ⟨first, hfirst, hhead⟩ := instruction.opcode.exists_head_name
    apply not_skips first hfirst
    exact head?_append_string _ (head?_append_string _ (head?_append_string _ hhead))
  simp only [Script.claimInstruction] at h
  repeat' split at h
  all_goals cases h
  · exact hoverlap
  · exact not_skips_of_level (by decide : LogLevel.debug ≠ .warn)
  · exact hoverlap
  · exact hoverlap
  · apply not_skips 'P' (by decide)
    exact head?_append_string _ (head?_append_string _ (head?_append_string _
      (head?_append_string _ rfl)))

theorem not_skips_tableOverlap (table : Nat) : ¬ (tableOverlap table).Skips := by
  apply not_skips 'T' (by decide)
  exact head?_append_string _ (head?_append_string _ rfl)

theorem skips_unknownBranch (opcode : Opcode) (offset : Nat) :
    (unknownBranch opcode offset).Skips :=
  ⟨rfl, prefix_append_string _ (prefix_append_string _ (prefix_append_string _
    (prefix_append_string _ (List.prefix_refl _))))⟩

theorem skips_outside (edge : Edge) (offset : Nat) (target : Int32) :
    (outside edge offset target).Skips :=
  ⟨rfl, prefix_append_string _ (prefix_append_string _ (prefix_append_string _
    (prefix_append_string _ (prefix_append_string _ (prefix_append_string _
      (List.prefix_refl _))))))⟩

theorem skips_unknownArgument (method : UInt16) (name : String) (offset : Nat)
    (parameter : String) : (unknownArgument method name offset parameter).Skips := by
  have hcall : "Skipping ".toList <+: "Skipping CALL ".toList := by decide
  exact ⟨rfl, prefix_append_string _ (prefix_append_string _ (prefix_append_string _
    (prefix_append_string _ (prefix_append_string _ (prefix_append_string _
      (prefix_append_string _ hcall))))))⟩

end Event

namespace Operand

/-- What is to be said of an operand that is the address of an edge: that it is not known, or
that its value is no word's address. -/
def skipped (buffer : Buffer) (unknown : Event) (outside : Int32 → Event) (operand : Operand) :
    List Event :=
  match operand.resolved with
  | none => [unknown]
  | some value =>
    if 0 ≤ value.toInt ∧ value.toInt % 4 = 0 ∧ value.toInt < buffer.length then
      []
    else
      [outside value]

variable {buffer : Buffer} {unknown : Event} {outside : Int32 → Event} {operand : Operand}

theorem skipped_unknown (hvalue : operand.resolved = none) :
    operand.skipped buffer unknown outside = [unknown] := by
  rw [skipped, hvalue]

theorem skipped_outside {value : Int32} (hvalue : operand.resolved = some value)
    (htarget : buffer.wordOffset? value.toInt = none) :
    operand.skipped buffer unknown outside = [outside value] := by
  have hnot : ¬ (0 ≤ value.toInt ∧ value.toInt % 4 = 0 ∧ value.toInt < buffer.length) := by
    intro hinside
    rw [Buffer.wordOffset?, if_pos hinside] at htarget
    cases htarget
  rw [skipped, hvalue]
  exact if_neg hnot

theorem skipped_inside {value : Int32} {target : Nat} (hvalue : operand.resolved = some value)
    (htarget : buffer.wordOffset? value.toInt = some target) :
    operand.skipped buffer unknown outside = [] := by
  obtain ⟨htarget, haligned, hinside⟩ := Buffer.wordOffset?_eq_some.mp htarget
  rw [skipped, hvalue]
  exact if_pos (by omega)

end Operand

namespace Instruction

/-- The operand through which an instruction other than a call leads elsewhere: the first of a
jump, of a call of a subroutine and of a fork, the last of a conditional jump, and the second
where a table is used. -/
def target? (instruction : Instruction) : Option Operand :=
  match instruction.opcode with
  | .jmp | .gosub | .fork => instruction.operands.head?
  | .jmpCmp | .jmpCmp0 => instruction.operands.getLast?
  | .jmpTable | .gosubTable => instruction.operands[1]?
  | _ => none

/-- The edge that an instruction other than a call has. -/
def edge (instruction : Instruction) : Edge :=
  match instruction.opcode with
  | .jmpTable | .gosubTable => .table
  | opcode => .branch opcode

/-- The warning that an argument of a call is due. An argument that is no address of code is due
none. -/
def argumentSkipped (buffer : Buffer) (call : Instruction) (method : Method) :
    Operand × Parameter → List Event
  | (operand, parameter) =>
    if parameter.role = .none then
      []
    else
      operand.skipped buffer
        (.unknownArgument call.immediate method.name call.offset parameter.name)
        (.outside (.argument method.name) call.offset)

/-- The warnings that an instruction is due, all of them at its own offset. -/
def skipped (buffer : Buffer) (signatures : Signatures) (instruction : Instruction) :
    List Event :=
  if instruction.opcode = .call then
    match signatures.method? instruction.immediate.toNat with
    | none => []
    | some method =>
      (instruction.operands.zip method.parameters).flatMap
        (instruction.argumentSkipped buffer method)
  else
    match instruction.target? with
    | none => []
    | some operand =>
      operand.skipped buffer (.unknownBranch instruction.opcode instruction.offset)
        (.outside instruction.edge instruction.offset)

end Instruction

/-- An instruction that branches has the operand through which it does. -/
theorem Opcode.lt_length_operands {opcode : Opcode} (h : opcode.flow.Branches) :
    0 < opcode.operands.length ∧
      (opcode.flow = .jumpTable ∨ opcode.flow = .gosubTable → 1 < opcode.operands.length) := by
  cases opcode <;> first | exact False.elim h | decide

namespace Instruction

variable {buffer : Buffer} {signatures : Signatures} {instruction : Instruction}

theorem target?_eq_branchOperand? (instruction : Instruction) :
    instruction.target? = instruction.branchOperand? := by
  unfold target? branchOperand?
  cases instruction.opcode <;> rfl

theorem edge_eq_branch (hjump : instruction.opcode.flow ≠ .jumpTable)
    (hgosub : instruction.opcode.flow ≠ .gosubTable) :
    instruction.edge = .branch instruction.opcode := by
  unfold edge
  cases hopcode : instruction.opcode <;> rw [hopcode] at hjump hgosub <;>
    first | rfl | exact absurd rfl hjump | exact absurd rfl hgosub

theorem edge_eq_table {kind : TableKind} (hflow : instruction.opcode.flow = kind.flow) :
    instruction.edge = .table := by
  unfold edge
  cases hopcode : instruction.opcode <;> rw [hopcode] at hflow <;>
    first | rfl | cases kind <;> cases hflow

/-- An instruction that neither branches nor calls is due nothing. -/
theorem skipped_eq_nil (hcall : instruction.opcode.flow ≠ .call)
    (hflow : ¬ instruction.opcode.flow.Branches) : instruction.skipped buffer signatures = [] := by
  unfold skipped target?
  cases hopcode : instruction.opcode <;> rw [hopcode] at hcall hflow <;>
    first | rfl | exact absurd rfl hcall | exact absurd trivial hflow

/-- An instruction that has an operand in each of its places has the one through which it
branches. -/
theorem exists_branchOperand? (hflow : instruction.opcode.flow.Branches)
    (harity : instruction.opcode = .call ∨
      instruction.operands.length = instruction.opcode.operands.length) :
    ∃ operand, instruction.branchOperand? = some operand := by
  have hlength : instruction.operands.length = instruction.opcode.operands.length := by
    rcases harity with hcall | hlength
    · rw [hcall] at hflow
      exact absurd hflow id
    · exact hlength
  obtain ⟨hsome, htable⟩ := Opcode.lt_length_operands hflow
  rw [← hlength] at hsome htable
  have hfirst : ∃ operand, instruction.operands.head? = some operand :=
    ⟨_, List.head?_eq_some_head (List.ne_nil_of_length_pos hsome)⟩
  have hlast : ∃ operand, instruction.operands.getLast? = some operand :=
    ⟨_, List.getLast?_eq_some_getLast (List.ne_nil_of_length_pos hsome)⟩
  unfold branchOperand?
  cases hclass : instruction.opcode.flow with
  | jump | gosub | fork => exact hfirst
  | conditional => exact hlast
  | jumpTable => exact ⟨_, List.getElem?_eq_getElem (htable (.inl hclass))⟩
  | gosubTable => exact ⟨_, List.getElem?_eq_getElem (htable (.inr hclass))⟩
  | call | forkReenter | terminal | plain =>
    rw [hclass] at hflow
    exact absurd hflow id

theorem exists_skipped (buffer : Buffer) (signatures : Signatures)
    (hflow : instruction.opcode.flow.Branches)
    (harity : instruction.opcode = .call ∨
      instruction.operands.length = instruction.opcode.operands.length) :
    ∃ operand : Operand, operand.resolved = instruction.branchValue? ∧
      instruction.skipped buffer signatures =
        operand.skipped buffer (.unknownBranch instruction.opcode instruction.offset)
          (.outside instruction.edge instruction.offset) := by
  obtain ⟨operand, htarget⟩ := exists_branchOperand? hflow harity
  have hcall : instruction.opcode ≠ .call := by
    intro hcall
    rw [hcall] at hflow
    exact hflow
  refine ⟨operand, ?_, ?_⟩
  · rw [branchValue?, htarget, Option.bind_some]
  · rw [skipped, if_neg hcall, target?_eq_branchOperand?, htarget]

/-- The names of its operands play no part in what an instruction is due. -/
theorem skipped_bare (buffer : Buffer) (signatures : Signatures) (instruction : Instruction) :
    instruction.bare.skipped buffer signatures = instruction.skipped buffer signatures := by
  have hargument : ∀ method argument,
      instruction.bare.argumentSkipped buffer method (argument.map Operand.bare id) =
        instruction.argumentSkipped buffer method argument := fun _ _ => rfl
  unfold skipped
  rw [target?_eq_branchOperand?, target?_eq_branchOperand?, branchOperand?_bare, opcode_bare,
    immediate_bare, operands_bare]
  by_cases hcall : instruction.opcode = .call
  · rw [if_pos hcall, if_pos hcall]
    cases signatures.method? instruction.immediate.toNat with
    | none => rfl
    | some method =>
      simp only [List.zip_map_left, List.flatMap_map, hargument]
  · rw [if_neg hcall, if_neg hcall]
    cases instruction.branchOperand? with
    | none => rfl
    | some operand => rfl

end Instruction

def Token.instruction? : Token → Option Instruction
  | instruction i => some i
  | operand _ | data _ _ | entrypoint _ _ _ | table _ => none

namespace Script

/-- The warnings that the instructions entered so far are due. -/
def skipped (script : Script) (buffer : Buffer) (signatures : Signatures) : Multiset Event :=
  (script.tokens.toList.filterMap Token.instruction?).flatMap
    (Instruction.skipped buffer signatures)

variable {script : Script} {buffer : Buffer} {signatures : Signatures}

theorem SameImage.skipped {after : Script} (h : script.SameImage after) :
    after.skipped buffer signatures = script.skipped buffer signatures := by
  unfold Script.skipped
  rw [h.tokens]

theorem skipped_push {after : Script} {token : Token}
    (htokens : after.tokens = script.tokens.push token) (htoken : token.instruction? = none) :
    after.skipped buffer signatures = script.skipped buffer signatures := by
  have hnone : [token].filterMap Token.instruction? = [] := by
    rw [List.filterMap_cons_none htoken, List.filterMap_nil]
  rw [skipped, skipped, htokens, Array.toList_push, List.filterMap_append, hnone, List.append_nil]

theorem skipped_placeTable (script : Script) (table : Nat) (found : List Nat) :
    (script.placeTable table found).skipped buffer signatures =
      script.skipped buffer signatures := by
  obtain ⟨names, slots, labels, heq⟩ := script.placeTable_eq table found
  rw [heq]
  exact skipped_push rfl rfl

theorem skipped_claimInstruction {instruction : Instruction} {entered : Script}
    (h : script.claimInstruction instruction = .ok entered) :
    entered.skipped buffer signatures =
      script.skipped buffer signatures + instruction.skipped buffer signatures := by
  obtain ⟨named, slots, labels, hbare, rfl⟩ := claimInstruction_eq h
  have hoperands : (named.operands.map Token.operand).filterMap Token.instruction? = [] := by
    simp [Token.instruction?]
  have hnamed : named.skipped buffer signatures = instruction.skipped buffer signatures := by
    rw [← Instruction.skipped_bare, hbare, Instruction.skipped_bare]
  simp only [skipped, Array.toList_append, List.filterMap_append, List.filterMap_cons,
    Token.instruction?, hoperands, List.flatMap_append, List.flatMap_cons, List.flatMap_nil,
    List.append_nil, hnamed, Multiset.coe_add]

end Script

/-- The reports of skipped edges among all reports. -/
def skipsOf (log : Array Event) : Multiset Event :=
  log.toList.filter fun event => event.Skips

theorem skipsOf_push {log : Array Event} {event : Event} (h : event.Skips) :
    skipsOf (log.push event) = skipsOf log + [event] := by
  rw [skipsOf, Array.toList_push, List.filter_append, List.filter_singleton, decide_eq_true h,
    ← Multiset.coe_add]
  rfl

theorem skipsOf_push_of_not {log : Array Event} {event : Event} (h : ¬ event.Skips) :
    skipsOf (log.push event) = skipsOf log := by
  simp [skipsOf, h]

theorem skipsOf_note (survey : Survey) {event : Event} (h : ¬ event.Skips) :
    skipsOf (survey.note event).log = skipsOf survey.log :=
  skipsOf_push_of_not h

/-- The warnings that a task still has to give. -/
def Task.owed (buffer : Buffer) : Task → List Event
  | .arguments call method pending => pending.flatMap (call.argumentSkipped buffer method)
  | .probe _ | .scan _ | .entries _ _ _ => []

section

variable {buffer : Buffer} {signatures : Signatures} {survey after : Survey} {tasks : List Task}

theorem owed_probes (starts : List Nat) :
    (starts.map Task.probe).flatMap (Task.owed buffer) = [] := by
  simp [List.flatMap_map, Task.owed]

theorem owed_onward (kind : TableKind) (instruction : Instruction) :
    (kind.onward instruction).flatMap (Task.owed buffer) = [] := by
  cases kind <;> rfl

/-- An edge is taken or reported. -/
theorem skipsOf_followEdge {operand : Operand} {value : Int32} {unknown : Event} (edge : Edge)
    (offset : Nat) (hvalue : operand.resolved = some value) (survey : Survey) :
    skipsOf (followEdge buffer edge offset value survey).1.log =
      skipsOf survey.log + operand.skipped buffer unknown (.outside edge offset) := by
  cases htarget : buffer.wordOffset? value.toInt with
  | none =>
    rw [followEdge_outside htarget, Operand.skipped_outside hvalue htarget]
    exact skipsOf_push (Event.skips_outside edge offset value)
  | some target =>
    rw [followEdge_inside htarget, Operand.skipped_inside hvalue htarget]
    exact (add_zero _).symm

/-- What an instruction is due is given at once, or left to the task that follows its
arguments. -/
theorem Follows.dues {instruction : Instruction}
    (h : Follows buffer signatures instruction survey after tasks)
    (harity : instruction.opcode = .call ∨
      instruction.operands.length = instruction.opcode.operands.length) :
    skipsOf after.log + tasks.flatMap (Task.owed buffer) =
      skipsOf survey.log + instruction.skipped buffer signatures := by
  have hbranch := fun hflow => instruction.exists_skipped buffer signatures hflow harity
  cases h with
  | stop hflow =>
    rw [Instruction.skipped_eq_nil (by rw [hflow]; decide) (by rw [hflow]; exact id)]
    rfl
  | onward hflow =>
    have hnone : instruction.skipped buffer signatures = [] := by
      rcases hflow with hflow | hflow <;>
        exact Instruction.skipped_eq_nil (by rw [hflow]; decide) (by rw [hflow]; exact id)
    rw [hnone]
    rfl
  | call hflow hmethod hlength =>
    rw [Instruction.skipped, if_pos (Opcode.flow_eq_call.mp hflow), hmethod]
    simp only [List.flatMap_cons, List.flatMap_nil, Task.owed, List.append_nil]
  | unknown hflow hvalue =>
    obtain ⟨operand, hresolved, hskipped⟩ := hbranch hflow
    rw [hskipped, Operand.skipped_unknown (hresolved.trans hvalue)]
    exact (add_zero _).trans (skipsOf_push (Event.skips_unknownBranch _ _))
  | jump hflow hvalue | conditional hflow hvalue =>
    obtain ⟨operand, hresolved, hskipped⟩ := hbranch (by rw [hflow]; trivial)
    rw [hskipped, instruction.edge_eq_branch (by rw [hflow]; decide) (by rw [hflow]; decide),
      ← skipsOf_followEdge _ _ (hresolved.trans hvalue) survey]
    simp only [List.flatMap_cons, Task.owed, List.nil_append, owed_probes]
    exact add_zero _
  | outside hflow hvalue htarget =>
    rcases hflow with hflow | hflow
    all_goals
      obtain ⟨operand, hresolved, hskipped⟩ := hbranch (by rw [hflow]; trivial)
      rw [hskipped, instruction.edge_eq_branch (by rw [hflow]; decide) (by rw [hflow]; decide),
        Operand.skipped_outside (hresolved.trans hvalue) htarget]
      exact (add_zero _).trans (skipsOf_push (Event.skips_outside _ _ _))
  | gosub hflow hvalue htarget | fork hflow hvalue htarget =>
    obtain ⟨operand, hresolved, hskipped⟩ := hbranch (by rw [hflow]; trivial)
    rw [hskipped, Operand.skipped_inside (hresolved.trans hvalue) htarget]
    rfl
  | @tableOutside kind value hflow hvalue htable =>
    obtain ⟨operand, hresolved, hskipped⟩ := hbranch (by cases kind <;> rw [hflow] <;> trivial)
    rw [hskipped, instruction.edge_eq_table hflow,
      Operand.skipped_outside (hresolved.trans hvalue) htable, owed_onward]
    exact (add_zero _).trans (skipsOf_push (Event.skips_outside _ _ _))
  | @tableKnown kind value table hflow hvalue htable =>
    obtain ⟨operand, hresolved, hskipped⟩ := hbranch (by cases kind <;> rw [hflow] <;> trivial)
    rw [hskipped, Operand.skipped_inside (hresolved.trans hvalue) htable, owed_onward]
  | @tableNew kind value table hflow hvalue htable =>
    obtain ⟨operand, hresolved, hskipped⟩ := hbranch (by cases kind <;> rw [hflow] <;> trivial)
    rw [hskipped, Operand.skipped_inside (hresolved.trans hvalue) htable, List.flatMap_cons,
      owed_onward]
    rfl

theorem skipsOf_closeTable (table : Nat) (found : List Nat) (survey : Survey) :
    skipsOf (closeTable table found survey).log = skipsOf survey.log := by
  have hdecoded := skipsOf_note survey (Event.not_skips_tableDecoded table found.length)
  unfold closeTable
  split
  · exact hdecoded
  · exact (skipsOf_note _ (Event.not_skips_tableOverlap table)).trans hdecoded

/-- The warnings that are given and those that are owed grow as those that are due do. -/
theorem Task.Performs.dues {task : Task}
    (h : Task.Performs buffer signatures survey task after tasks) :
    skipsOf after.log + tasks.flatMap (Task.owed buffer) + survey.script.skipped buffer signatures =
      skipsOf survey.log + task.owed buffer + after.script.skipped buffer signatures := by
  cases h with
  | probeKnown | scanEnd | argumentsDone => rfl
  | @probeNew start =>
    have hlog := skipsOf_note (survey.update (·.insertBranch start))
      (Event.not_skips_probing start)
    exact congrArg₂ (· + ·) ((add_zero _).trans (hlog.trans (add_zero _).symm)) rfl
  | @scanUndecodable offset reason =>
    have hlog := skipsOf_note survey (Event.not_skips_undecodable offset reason)
    exact congrArg₂ (· + ·) ((add_zero _).trans (hlog.trans (add_zero _).symm)) rfl
  | scanRefused hinside hdecode hclaim =>
    have hlog := skipsOf_note survey (Event.not_skips_of_refusal hclaim)
    exact congrArg₂ (· + ·) ((add_zero _).trans (hlog.trans (add_zero _).symm)) rfl
  | scanEntered hinside hdecode hclaim hfollow =>
    rw [hfollow.dues (arity_of_decode hdecode), hfollow.sameImage.skipped,
      Script.skipped_claimInstruction hclaim]
    simp only [Task.owed, Multiset.coe_nil]
    abel
  | @argumentValue call method operand parameter pending hrole =>
    have hnone : call.argumentSkipped buffer method (operand, parameter) = [] := if_pos hrole
    simp only [Task.owed, List.flatMap_cons, List.flatMap_nil, hnone, List.nil_append,
      List.append_nil]
  | @argumentUnknown call method operand parameter pending hrole hvalue =>
    have hdue : call.argumentSkipped buffer method (operand, parameter) =
        [.unknownArgument call.immediate method.name call.offset parameter.name] :=
      (if_neg hrole).trans (Operand.skipped_unknown hvalue)
    refine congrArg₂ (· + ·) ?_ rfl
    simp only [Task.owed, List.flatMap_cons, List.flatMap_nil, hdue, List.append_nil,
      ← Multiset.coe_add, ← add_assoc]
    exact congrArg (· + _) (skipsOf_push (Event.skips_unknownArgument _ _ _ _))
  | @argumentOutside call method operand parameter pending value hrole hvalue htarget =>
    have hdue : call.argumentSkipped buffer method (operand, parameter) =
        [.outside (.argument method.name) call.offset value] :=
      (if_neg hrole).trans (Operand.skipped_outside hvalue htarget)
    refine congrArg₂ (· + ·) ?_ rfl
    simp only [Task.owed, List.flatMap_cons, List.flatMap_nil, hdue, List.append_nil,
      ← Multiset.coe_add, ← add_assoc]
    exact congrArg (· + _) (skipsOf_push (Event.skips_outside _ _ _))
  | @argumentEntered call method operand parameter pending value target hrole hvalue htarget =>
    have hdue : call.argumentSkipped buffer method (operand, parameter) = [] :=
      (if_neg hrole).trans (Operand.skipped_inside hvalue htarget)
    rw [script_update, (Script.SameImage.insertRole survey.script target parameter.role).skipped]
    simp only [Task.owed, List.flatMap_cons, List.flatMap_nil, hdue, List.nil_append,
      List.append_nil, Survey.update]
  | @tableEnd kind table found =>
    rw [script_closeTable, Script.skipped_placeTable, skipsOf_closeTable]
    rfl
  | @tableEntry kind table destination found =>
    rw [script_update, (Script.SameImage.insertDestination survey.script destination kind).skipped]
    rfl

end

variable {buffer : Buffer} {signatures : Signatures}

/-- At any time the warnings that are given and those that are owed are all that are due. -/
theorem Exploring.dues {tasks : List Task} {survey : Survey}
    (h : Exploring buffer signatures tasks survey) :
    skipsOf survey.log + tasks.flatMap (Task.owed buffer) =
      survey.script.skipped buffer signatures := by
  induction h with
  | @start found hfound =>
    have hinstructions : found.tokens.toList.filterMap Token.instruction? = [] := by
      apply List.filterMap_eq_nil_iff.mpr
      intro token hmem
      have hentrypoint := (findEntrypoints_unexplored hfound).tokens token
        (Array.mem_toList_iff.mp hmem)
      cases token with
      | instruction => exact absurd hentrypoint id
      | operand | data | entrypoint | table => rfl
    have hlog : skipsOf (#[].push (.entrypointsFound found.entrypoints.length)) = skipsOf #[] :=
      skipsOf_push_of_not (Event.not_skips_entrypointsFound _)
    rw [owed_probes, Script.skipped, hinstructions]
    exact (add_zero _).trans hlog
  | @step task more rest survey after hbefore hperform ih =>
    have hdues := (Task.performs_of_perform hperform).dues
    rw [List.flatMap_cons, ← Multiset.coe_add] at ih
    rw [List.flatMap_append, ← Multiset.coe_add]
    apply add_left_cancel (a := survey.script.skipped buffer signatures)
    calc survey.script.skipped buffer signatures +
          (skipsOf after.log + (more.flatMap (Task.owed buffer) + rest.flatMap (Task.owed buffer)))
        = skipsOf after.log + more.flatMap (Task.owed buffer) +
            survey.script.skipped buffer signatures + rest.flatMap (Task.owed buffer) := by abel
      _ = skipsOf survey.log + task.owed buffer + after.script.skipped buffer signatures +
            rest.flatMap (Task.owed buffer) := by rw [hdues]
      _ = skipsOf survey.log + (task.owed buffer + rest.flatMap (Task.owed buffer)) +
            after.script.skipped buffer signatures := by abel
      _ = survey.script.skipped buffer signatures + after.script.skipped buffer signatures := by
        rw [ih]

theorem skipped_fillGaps {count : Nat} {script filled : Script}
    (hfilled : fillGaps buffer count 0 script = .ok filled) :
    filled.skipped buffer signatures = script.skipped buffer signatures := by
  refine fillGaps_induction (fun _ filled => filled.skipped buffer signatures =
    script.skipped buffer signatures) ?_ ?_ rfl hfilled
  · intro index filled hclaimed h
    exact h
  · intro index word filled hunclaimed hword h
    exact (Script.skipped_push (Script.tokens_place _ _) rfl).trans h

theorem eq_filterMap_of_map_some {α β : Type} {f : α → Option β} {given : List α} {list : List β}
    (h : list.map some = given.map f) : list = given.filterMap f := by
  have hfilter := congrArg (List.filterMap id) h
  rw [List.filterMap_map, List.filterMap_map] at hfilter
  exact List.filterMap_some.symm.trans hfilter

/-- Two lists without duplicates give the same if they agree on what gives something. -/
theorem filterMap_perm_filterMap {α β : Type} {f : α → Option β} {first second : List α}
    (hfirst : first.Nodup) (hsecond : second.Nodup)
    (h : ∀ a b, f a = some b → (a ∈ first ↔ a ∈ second)) :
    (first.filterMap f).Perm (second.filterMap f) := by
  have hfilter : ∀ list : List α,
      (list.filter fun a => (f a).isSome).filterMap f = list.filterMap f := by
    intro list
    rw [List.filterMap_filter]
    apply List.filterMap_congr
    intro a _
    cases f a <;> rfl
  rw [← hfilter first, ← hfilter second]
  apply List.Perm.filterMap
  apply (List.perm_ext_iff_of_nodup (hfirst.filter _) (hsecond.filter _)).mpr
  intro a
  rw [List.mem_filter, List.mem_filter]
  apply and_congr_left
  intro hsome
  obtain ⟨b, hb⟩ := Option.isSome_iff_exists.mp hsome
  exact h a b hb

/-- The instructions of a script are those among its tokens, each of them once. -/
theorem instructions_perm_of_disassemble {bytes : List UInt8} {script : Script}
    (h : disassemble bytes signatures = .ok script) :
    script.instructions.Perm (script.tokens.toList.filterMap Token.instruction?) := by
  obtain ⟨hlayout, hcomplete⟩ := Script.Layout.disassembled h
  obtain ⟨owners, hspans, hentries⟩ := hlayout.tiled.entries_spans hcomplete
  have hinstructions : script.instructions = script.entries.filterMap Token.instruction? := by
    apply List.filterMap_congr
    intro token _
    cases token <;> rfl
  have hids : script.entries = (owners.map Prod.fst).filterMap (script.tokens[·]?) :=
    hentries.trans (eq_filterMap_of_map_some hspans.map_tokens)
  have hrange : script.tokens.toList =
      (List.range script.tokens.size).filterMap (script.tokens[·]?) := by
    apply eq_filterMap_of_map_some
    apply List.ext_getElem?
    intro id
    by_cases hid : id < script.tokens.size <;> simp [hid]
  rw [hinstructions, hids, hrange, List.filterMap_filterMap, List.filterMap_filterMap]
  apply filterMap_perm_filterMap hspans.nodup_ids List.nodup_range
  intro id instruction hinstruction
  obtain ⟨token, htoken, hkind⟩ := Option.bind_eq_some_iff.mp hinstruction
  have hlt := (Array.getElem?_eq_some_iff.mp htoken).1
  refine iff_of_true (hspans.mem_ids.mpr ⟨token.offset / 4, ?_⟩) (List.mem_range.mpr hlt)
  cases token with
  | instruction =>
    apply hlayout.tiled.owns htoken (fun htable => htable)
    simp only [Token.Covers, Token.width]
    omega
  | operand | data | entrypoint | table => cases hkind

theorem skipsOf_trailingReport (bytes : List UInt8) : skipsOf (trailingReport bytes) = 0 := by
  have hreport : skipsOf (#[].push (.trailingBytes (bytes.length % 4))) = skipsOf #[] :=
    skipsOf_push_of_not (Event.not_skips_trailingBytes _)
  unfold trailingReport
  split
  · rfl
  · exact hreport

theorem skipsOf_append (front back : Array Event) :
    skipsOf (front ++ back) = skipsOf front + skipsOf back := by
  rw [skipsOf, Array.toList_append, List.filter_append, ← Multiset.coe_add, ← skipsOf, ← skipsOf]

/-- The reports of skipped edges are the warnings that the instructions of the script are due,
each as often as it is due. -/
theorem skips_of_disassemble {bytes : List UInt8} {script : Script}
    (h : disassemble bytes signatures = .ok script) :
    (((trace bytes signatures).log.toList.filter fun event => event.Skips : List Event) :
        Multiset Event) =
      (script.instructions.flatMap (Instruction.skipped (.ofBytes bytes) signatures) :
        List Event) := by
  have hperm := (instructions_perm_of_disassemble h).flatMap_right
    (Instruction.skipped (.ofBytes bytes) signatures)
  rw [Multiset.coe_eq_coe.mpr hperm, ← Script.skipped, ← skipsOf]
  rcases trace_cases bytes signatures with ⟨explored, filled, hend, hfilled, htrace⟩ |
    ⟨task, rest, survey, explored, fault, -, -, htrace⟩
  · simp only [disassemble, htrace, Except.ok.injEq] at h
    have hdues := hend.dues
    rw [List.flatMap_nil] at hdues
    rw [htrace, ← h, skipped_fillGaps hfilled, ← hdues, skipsOf_append, skipsOf_trailingReport,
      zero_add, skipsOf_push_of_not (Event.not_skips_summary filled)]
    exact (add_zero _).symm
  · simp only [disassemble, htrace, reduceCtorEq] at h

/-- A call with two unknown arguments, the first of which is the address of a subroutine, a call
of a subroutine outside the script, a call through an unknown table, and a conditional jump to
itself. -/
def skippedEdges : List UInt8 :=
  [4, 0, 0, 0, 0x38, 2, 0, 0, 0, 0, 0, 0x02, 0, 0, 0, 0x02, 0x48, 1, 0, 0, 0x7f, 0, 0, 0x09,
    0x4a, 2, 0, 0, 0, 0, 0, 0x02, 0, 0, 0, 0x02, 0x42, 3, 0, 0, 0, 0, 0, 0, 0, 0, 0, 0,
    0, 0, 0, 0x09, 0x49, 0, 0, 0]

def startAndWait : Signatures :=
  ⟨[⟨"start", [⟨"entry", "code", .gosub⟩, ⟨"delay", "int", .none⟩]⟩]⟩

theorem skips_of_skippedEdges :
    ∃ script, disassemble skippedEdges startAndWait = .ok script ∧
      script.instructions.flatMap (Instruction.skipped (.ofBytes skippedEdges) startAndWait) =
        [.unknownArgument 0 "start" 4 "entry", .outside (.branch .gosub) 16 524,
          .unknownBranch .gosubTable 24] ∧
      (((trace skippedEdges startAndWait).log.toList.filter fun event => event.Skips :
          List Event) : Multiset Event) =
        (script.instructions.flatMap
          (Instruction.skipped (.ofBytes skippedEdges) startAndWait) : List Event) := by
  have hread : (disassemble skippedEdges startAndWait).toOption.map (fun script =>
      script.instructions.flatMap
        (Instruction.skipped (.ofBytes skippedEdges) startAndWait)) =
      some [.unknownArgument 0 "start" 4 "entry", .outside (.branch .gosub) 16 524,
        .unknownBranch .gosubTable 24] := by
    cbv
  obtain ⟨script, h, hskipped⟩ := exists_disassemble hread
  exact ⟨script, h, hskipped, skips_of_disassemble h⟩

end ScriptDisassembler
