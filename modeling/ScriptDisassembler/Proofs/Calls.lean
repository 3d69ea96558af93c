import Mathlib
import ScriptDisassembler.Listing
import ScriptDisassembler.Proofs.Encoded
import ScriptDisassembler.Proofs.Provenance
import ScriptDisassembler.Proofs.Retention

/-!
Calls and the signatures of their methods. A call is compared with its method when it is
entered, and a disassembly is given up for the first call that is entered and does not fit, and
for no other. So in a script that is returned all calls fit, and a listing has a name for every
method.
-/

namespace ScriptDisassembler

/-- The call has as many operands as its method has parameters. -/
def Signatures.Fits (signatures : Signatures) (call : Instruction) : Prop :=
  ∃ method, signatures.methods[call.immediate.toNat]? = some method ∧
    call.operands.length = method.parameters.length

/-- A scan has come to a call, which is decoded in full and of which all slots are free. -/
structure EntersCall (buffer : Buffer) (signatures : Signatures) (offset : Nat)
    (call : Instruction) : Prop where
  decoded : decode buffer offset = .ok call
  opcode : call.opcode = .call
  entered : ∃ rest survey entered, Exploring buffer signatures (.scan offset :: rest) survey ∧
    survey.script.claimInstruction call = .ok entered

variable {buffer : Buffer} {signatures : Signatures}

theorem Signatures.fits_bare {call : Instruction} :
    signatures.Fits call.bare ↔ signatures.Fits call := by
  unfold Fits
  rw [Instruction.immediate_bare, Instruction.operands_bare, List.length_map]

theorem Follows.fits {call : Instruction} {survey after : Survey} {tasks : List Task}
    (h : Follows buffer signatures call survey after tasks) (hopcode : call.opcode = .call) :
    signatures.Fits call := by
  have hflow : call.opcode.flow = .call := Opcode.flow_eq_call.mpr hopcode
  cases h with
  | call _ hmethod hlength => exact ⟨_, hmethod, hlength.symm⟩
  | onward hother | outside hother => simp [hflow] at hother
  | stop hother | jump hother | conditional hother | gosub hother | fork hother =>
    rw [hflow] at hother
    cases hother
  | unknown hbranches =>
    rw [hflow] at hbranches
    exact absurd hbranches id
  | @tableOutside kind _ hother | @tableKnown kind _ _ hother | @tableNew kind _ _ hother =>
    rw [hflow] at hother
    cases kind <;> cases hother

/-- Every call that has been entered on the way fits its method. -/
theorem Exploring.fits {tasks : List Task} {survey : Survey}
    (h : Exploring buffer signatures tasks survey) :
    ∀ call, .instruction call ∈ survey.script.tokens → call.opcode = .call →
      signatures.Fits call := by
  induction h with
  | start hfound =>
    intro call hmem
    exact absurd hmem ((findEntrypoints_unexplored hfound).not_mem_instruction call)
  | step hbefore hperform ih =>
    intro call hmem hopcode
    rcases (Task.performs_of_perform hperform).mem_instruction hmem with
      hold | ⟨entered, -, -, hfollow⟩
    · exact ih call hold hopcode
    · exact Signatures.fits_bare.mp (hfollow.fits hopcode)

/-- A disassembly that fails does so for a task of its exploration. -/
theorem fails_of_disassemble {bytes : List UInt8} {fault : Fault}
    (h : disassemble bytes signatures = .error fault) :
    ∃ task rest survey explored, Exploring (.ofBytes bytes) signatures (task :: rest) survey ∧
      Task.Fails (.ofBytes bytes) signatures survey task explored fault := by
  rcases trace_cases bytes signatures with ⟨explored, script, -, -, htrace⟩ |
    ⟨task, rest, survey, explored, other, hreached, hperform, htrace⟩
  · simp only [disassemble, htrace, reduceCtorEq] at h
  · simp only [disassemble, htrace, Except.error.injEq] at h
    rw [h] at hperform
    exact ⟨task, rest, survey, explored, hreached, Task.fails_of_perform hperform⟩

/-- A task that fails on the way makes the whole disassembly fail. -/
theorem disassemble_eq_error_of_perform {bytes : List UInt8} {fault : Fault} {task : Task}
    {rest : List Task} {survey explored : Survey}
    (h : Exploring (.ofBytes bytes) signatures (task :: rest) survey)
    (hperform : task.perform (.ofBytes bytes) signatures survey = (explored, .error fault)) :
    disassemble bytes signatures = .error fault := by
  obtain ⟨found, hfound, hrun⟩ := h.run_eq
  rw [run_cons_error rest hperform] at hrun
  simp only [disassemble, trace, Buffer.trace, hfound, ← hrun]

/-- A call that is entered and refused on account of its method is the end of a disassembly. -/
theorem EntersCall.disassemble_eq_error {bytes : List UInt8} {offset : Nat} {call : Instruction}
    {fault : Fault} (h : EntersCall (.ofBytes bytes) signatures offset call)
    (hrefuses : ∀ survey, followCall signatures call survey = (survey, .error fault)) :
    disassemble bytes signatures = .error fault := by
  obtain ⟨rest, survey, entered, hreached, hclaim⟩ := h.entered
  obtain ⟨-, -, hinside, -⟩ := decode_ok h.decoded
  have hflow : call.opcode.flow = .call := Opcode.flow_eq_call.mpr h.opcode
  have hperform : (Task.scan offset).perform (.ofBytes bytes) signatures survey =
      ({ survey with script := entered }, .error fault) := by
    simp only [Task.perform, scanStep, Nat.not_le.mpr hinside, ↓reduceIte, h.decoded, hclaim,
      follow, hflow, hrefuses]
  exact disassemble_eq_error_of_perform hreached hperform

/-- Where the method of a call is missing, a question mark takes the place of its name. -/
theorem instructionText_call {call : Instruction} {method : Method} (hopcode : call.opcode = .call)
    (hmethod : signatures.methods[call.immediate.toNat]? = some method) :
    ∃ front, ListingLine.instructionText signatures call = front ++ method.name ∧
      ListingLine.instructionText .empty call = front ++ "?" := by
  have hname : signatures.method? call.immediate.toNat = some method := hmethod
  have hmissing : Signatures.empty.method? call.immediate.toNat = none := List.getElem?_nil
  unfold ListingLine.instructionText
  simp only [hopcode, ↓reduceIte, hname, hmissing, Option.map_some, Option.map_none,
    Option.getD_some, Option.getD_none]
  exact ⟨_, rfl, rfl⟩

/-- Calls are checked against the signatures, each when it is entered. A disassembly fails for
a call if and only if it comes to one that does not fit. -/
structure CallsChecked (bytes : List UInt8) (signatures : Signatures) : Prop where
  unknownMethod : ∀ {offset : Nat} {index : UInt16},
    disassemble bytes signatures = .error (.unknownMethod offset index) ↔
      ∃ call, EntersCall (.ofBytes bytes) signatures offset call ∧ call.immediate = index ∧
        signatures.methods.length ≤ index.toNat
  argumentCount : ∀ {offset : Nat} {index : UInt16} {expected actual : Nat},
    disassemble bytes signatures = .error (.argumentCount offset index expected actual) ↔
      ∃ call method word, EntersCall (.ofBytes bytes) signatures offset call ∧
        call.immediate = index ∧ call.operands.length = actual ∧
        (Buffer.ofBytes bytes).wordAt offset = .ok word ∧ word.field 8 8 = actual ∧
        signatures.methods[index.toNat]? = some method ∧ method.parameters.length = expected ∧
        expected ≠ actual
  returned : ∀ {script : Script}, disassemble bytes signatures = .ok script →
    ∀ call, .instruction call ∈ script.tokens → call.opcode = .call →
      ∃ method, signatures.methods[call.immediate.toNat]? = some method ∧
        call.operands.length = method.parameters.length ∧
        ∃ front, ListingLine.instructionText signatures call = front ++ method.name ∧
          ListingLine.instructionText .empty call = front ++ "?"

theorem calls_checked (bytes : List UInt8) (signatures : Signatures) :
    CallsChecked bytes signatures := by
  constructor
  case unknownMethod =>
    intro offset index
    constructor
    · intro h
      obtain ⟨task, rest, survey, explored, hreached, hfails⟩ := fails_of_disassemble h
      cases hfails with
      | @unknownMethod offset call entered hinside hdecode hclaim hflow hmethod =>
        obtain ⟨rfl, -⟩ := decode_ok hdecode
        have hopcode := Opcode.flow_eq_call.mp hflow
        exact ⟨call, ⟨hdecode, hopcode, rest, survey, entered, hreached, hclaim⟩, rfl,
          List.getElem?_eq_none_iff.mp hmethod⟩
    · rintro ⟨call, henters, rfl, hlength⟩
      obtain ⟨rfl, -⟩ := decode_ok henters.decoded
      have hmethod : signatures.method? call.immediate.toNat = none :=
        List.getElem?_eq_none_iff.mpr hlength
      apply henters.disassemble_eq_error
      intro survey
      simp only [followCall, hmethod]
  case argumentCount =>
    intro offset index expected actual
    constructor
    · intro h
      obtain ⟨task, rest, survey, explored, hreached, hfails⟩ := fails_of_disassemble h
      cases hfails with
      | @argumentCount offset call entered method hinside hdecode hclaim hflow hmethod hlength =>
        obtain ⟨word, hword, -, harity, -⟩ := (encoded_of_decode hdecode).header
        obtain ⟨rfl, -⟩ := decode_ok hdecode
        have hopcode := Opcode.flow_eq_call.mp hflow
        exact ⟨call, method, word,
          ⟨hdecode, hopcode, rest, survey, entered, hreached, hclaim⟩, rfl, rfl, hword, harity,
          hmethod, rfl, hlength⟩
    · rintro ⟨call, method, word, henters, rfl, rfl, -, -, hfound, rfl, hlength⟩
      obtain ⟨rfl, -⟩ := decode_ok henters.decoded
      have hmethod : signatures.method? call.immediate.toNat = some method := hfound
      apply henters.disassemble_eq_error
      intro survey
      simp only [followCall, hmethod, ne_eq, hlength, not_false_eq_true, ↓reduceIte]
  case returned =>
    intro script h call hmem hopcode
    obtain ⟨explored, hend, hfilled⟩ := explored_of_disassemble h
    have hexplored := ((fillGaps_filled hfilled).mem_instruction call).mp hmem
    obtain ⟨method, hmethod, hlength⟩ := hend.fits call hexplored hopcode
    exact ⟨method, hmethod, hlength, instructionText_call hopcode hmethod⟩

/-- A subroutine calls a method without its argument. -/
def shortCall : List UInt8 :=
  [4, 0, 0, 0, 0x48, 1, 0, 0, 3, 0, 0, 0x09, 0x49, 0, 0, 0, 0x38, 0, 1, 0]

theorem calls_checked_of_shortCall :
    disassemble shortCall ⟨[⟨"idle", []⟩]⟩ = .error (.unknownMethod 16 1) ∧
      disassemble shortCall ⟨[⟨"idle", []⟩, ⟨"wake", [⟨"thread", "int", .none⟩]⟩]⟩ =
        .error (.argumentCount 16 1 1 0) ∧
      (∃ call, EntersCall (.ofBytes shortCall) ⟨[⟨"idle", []⟩]⟩ 16 call ∧ call.immediate = 1) := by
  have hunknown : disassemble shortCall ⟨[⟨"idle", []⟩]⟩ = .error (.unknownMethod 16 1) := by
    cbv
  have hcount : disassemble shortCall ⟨[⟨"idle", []⟩, ⟨"wake", [⟨"thread", "int", .none⟩]⟩]⟩ =
      .error (.argumentCount 16 1 1 0) := by
    cbv
  obtain ⟨call, henters, hindex, -⟩ := (calls_checked shortCall ⟨[⟨"idle", []⟩]⟩).unknownMethod.mp
    hunknown
  exact ⟨hunknown, hcount, call, henters, hindex⟩

end ScriptDisassembler
