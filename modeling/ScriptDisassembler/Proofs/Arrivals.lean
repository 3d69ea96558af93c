import Mathlib
import ScriptDisassembler.Proofs.Growth
import ScriptDisassembler.Proofs.WellFormed

/-!
Nothing that control can reach is left undecoded without a reason. Control arrives where a
scan begins and behind every instruction that lets it go on. While scripts are explored an
arrival is settled, or the scan from it is still to be done; a scan that meets an
instruction entered before may stop, because the arrivals of that instruction are settled
or wait in the same way.
-/

namespace ScriptDisassembler

namespace Instruction

/-- The instructions behind which a scan does not go on. -/
def Stops (instruction : Instruction) : Prop :=
  match instruction.opcode.flow with
  | .terminal => True
  | .jump | .conditional | .jumpTable => ∃ value, instruction.branchValue? = some value
  | .call | .gosub | .gosubTable | .fork | .forkReenter | .plain => False

theorem stops_bare (instruction : Instruction) : instruction.bare.Stops ↔ instruction.Stops := by
  unfold Stops
  rw [opcode_bare, branchValue?_bare]

end Instruction

namespace Script

/-- The instruction at an address has been entered. -/
def Decoded (script : Script) (address : Nat) : Prop :=
  ∃ instruction, script.tokenAt? (address / 4) = some (.instruction instruction) ∧
    instruction.offset = address

/-- The addresses to which control can come. -/
inductive Arrives (script : Script) : Nat → Prop
  | branch {address : Nat} (hmem : address ∈ script.branches) : Arrives script address
  | onward {instruction : Instruction} (hmem : .instruction instruction ∈ script.tokens)
      (hruns : ¬ instruction.Stops) : Arrives script instruction.next

/-- Why nothing is left to be done at an address. -/
inductive Settled (buffer : Buffer) (script : Script) (address : Nat) : Prop
  | decoded (h : script.Decoded address)
  | undecodable {reason : Undecodable} (h : buffer.Malformed address reason)
  /-- The first word is an entrypoint, an operand or a table. -/
  | occupied {token : Token} (htoken : script.tokenAt? (address / 4) = some token)
      (hdata : ¬ token.IsData) (hinstruction : ∀ instruction, token ≠ .instruction instruction)
  /-- A word of an operand is more than data already. -/
  | obstructed {stop index : Nat} {token : Token} (hformed : buffer.Formed address stop)
      (hlower : address / 4 < index) (hupper : 4 * index < stop)
      (htoken : script.tokenAt? index = some token) (hdata : ¬ token.IsData)

variable {buffer : Buffer} {script : Script}

theorem Decoded.extends {before after : Script} {address : Nat} (h : before.Decoded address)
    (hextends : before.Extends after) : after.Decoded address := by
  obtain ⟨instruction, htoken, hoffset⟩ := h
  exact ⟨instruction, hextends.tokenAt? htoken, hoffset⟩

theorem Settled.extends {before after : Script} {address : Nat}
    (h : before.Settled buffer address) (hextends : before.Extends after) :
    after.Settled buffer address := by
  cases h with
  | decoded h => exact .decoded (h.extends hextends)
  | undecodable h => exact .undecodable h
  | occupied htoken hdata hinstruction =>
    exact .occupied (hextends.tokenAt? htoken) hdata hinstruction
  | obstructed hformed hlower hupper htoken hdata =>
    exact .obstructed hformed hlower hupper (hextends.tokenAt? htoken) hdata

theorem Layout.exists_tokenAt? {index : Nat} (h : script.Layout buffer)
    (hclaimed : script.isClaimed index = true) :
    ∃ token, script.tokenAt? index = some token ∧ token ∈ script.tokens ∧ token.Covers index ∧
      token.offset % 4 = 0 := by
  obtain ⟨id, howner⟩ := isClaimed_iff.mp hclaimed
  obtain ⟨token, htoken, hcovers⟩ := h.tiled.owned howner
  exact ⟨token, tokenAt?_eq howner htoken, Array.mem_of_getElem? htoken, hcovers,
    h.tiled.aligned htoken⟩

theorem Decoded.of_claimInstruction {instruction : Instruction} {entered : Script}
    (h : entered.Layout buffer) (hclaim : script.claimInstruction instruction = .ok entered) :
    entered.Decoded instruction.offset := by
  obtain ⟨named, slots, labels, hbare, heq⟩ := claimInstruction_eq hclaim
  have hoffset : named.offset = instruction.offset := by
    rw [← Instruction.offset_bare named, hbare, Instruction.offset_bare]
  have htoken : entered.tokens[script.tokens.size]? = some (.instruction named) := by
    rw [heq]
    simp
  have howner := h.tiled.owns htoken (fun htable => htable) (instruction.offset / 4) (by
    simp only [Token.Covers, Token.offset, Token.width]
    omega)
  exact ⟨named, tokenAt?_eq howner htoken, hoffset⟩

/-- Where no data has been entered yet, a refusal is a reason. -/
theorem Settled.of_refusal {instruction : Instruction} {address : Nat} {refusal : Event}
    (h : script.Layout buffer) (hdata : ∀ token ∈ script.tokens, ¬ token.IsData)
    (hdecode : decode buffer address = .ok instruction)
    (hclaim : script.claimInstruction instruction = .error refusal) :
    script.Settled buffer address := by
  obtain ⟨rfl, haligned, -⟩ := decode_ok hdecode
  rcases claimInstruction_error (h.first_lt hdecode) hclaim with
    ⟨existing, htoken, hoffset, -⟩ | ⟨hclaimed, -⟩ | ⟨index, hlower, hupper, hclaimed, -⟩
  · exact .decoded ⟨existing, htoken, hoffset⟩
  · obtain ⟨token, htoken, hmem, hcovers, htokenAligned⟩ := h.exists_tokenAt? hclaimed
    by_cases hkind : ∃ existing, token = .instruction existing
    · obtain ⟨existing, rfl⟩ := hkind
      simp only [Token.Covers, Token.offset, Token.width] at hcovers htokenAligned
      exact .decoded ⟨existing, htoken, by omega⟩
    · exact .occupied htoken (hdata token hmem) (not_exists.mp hkind)
  · obtain ⟨token, htoken, hmem, -⟩ := h.exists_tokenAt? hclaimed
    have hbefore : 4 * index < instruction.next := by
      unfold Instruction.next
      omega
    exact .obstructed (formed_of_decode hdecode) hlower hbefore htoken (hdata token hmem)

end Script

variable {buffer : Buffer} {signatures : Signatures}

/-- A scan goes on behind an instruction that does not stop it. -/
theorem Follows.scan_next_mem {instruction : Instruction} {survey after : Survey}
    {tasks : List Task} (h : Follows buffer signatures instruction survey after tasks)
    (hruns : ¬ instruction.Stops) : .scan instruction.next ∈ tasks := by
  unfold Instruction.Stops at hruns
  have honward : ∀ kind : TableKind, instruction.opcode.flow = kind.flow →
      ∀ value, instruction.branchValue? = some value →
        Task.scan instruction.next ∈ kind.onward instruction := by
    intro kind hflow value hvalue
    cases kind with
    | jump =>
      rw [hflow] at hruns
      exact absurd ⟨value, hvalue⟩ hruns
    | subroutine => exact List.mem_singleton_self _
  cases h with
  | stop hflow =>
    rw [hflow] at hruns
    exact absurd trivial hruns
  | onward | call | unknown | outside | gosub | fork => simp
  | jump hflow hvalue | conditional hflow hvalue =>
    rw [hflow] at hruns
    exact absurd ⟨_, hvalue⟩ hruns
  | tableOutside hflow hvalue | tableKnown hflow hvalue => exact honward _ hflow _ hvalue
  | tableNew hflow hvalue => exact List.mem_cons_of_mem _ (honward _ hflow _ hvalue)

theorem Follows.branches_eq {instruction : Instruction} {survey after : Survey}
    {tasks : List Task} (h : Follows buffer signatures instruction survey after tasks) :
    after.script.branches = survey.script.branches := by
  cases h with
  | jump | conditional => rw [script_followEdge]
  | @tableNew kind => cases kind <;> rfl
  | _ => rfl

namespace Task.Performs

variable {task : Task} {survey after : Survey} {tasks : List Task}

theorem mem_branches {address : Nat}
    (h : Task.Performs buffer signatures survey task after tasks)
    (hmem : address ∈ after.script.branches) :
    address ∈ survey.script.branches ∨ .scan address ∈ tasks := by
  cases h with
  | probeNew =>
    rcases AddressSet.mem_insert.mp hmem with rfl | hmem
    · exact .inr (List.mem_singleton_self _)
    · exact .inl hmem
  | scanEntered hinside hdecode hclaim hfollow =>
    obtain ⟨named, slots, labels, -, rfl⟩ := Script.claimInstruction_eq hclaim
    rw [hfollow.branches_eq] at hmem
    exact .inl hmem
  | argumentEntered =>
    simp only [script_update, Script.insertRole] at hmem
    split at hmem <;> exact .inl hmem
  | @tableEnd kind table found =>
    obtain ⟨names, slots, labels, heq⟩ := survey.script.placeTable_eq table found
    rw [script_closeTable, heq] at hmem
    exact .inl hmem
  | @tableEntry kind => cases kind <;> exact .inl hmem
  | _ => exact .inl hmem

/-- An instruction that is new stops the scan, or the scan goes on behind it. -/
theorem mem_instructions {instruction : Instruction}
    (h : Task.Performs buffer signatures survey task after tasks)
    (hmem : .instruction instruction ∈ after.script.tokens) :
    .instruction instruction ∈ survey.script.tokens ∨ instruction.Stops ∨
      .scan instruction.next ∈ tasks := by
  cases h with
  | @scanEntered _ decoded _ _ _ hinside hdecode hclaim hfollow =>
    obtain ⟨named, hbare, htokens⟩ := Script.mem_tokens_claimInstruction hclaim
    rw [hfollow.sameImage.tokens, htokens] at hmem
    rcases hmem with hold | hnew | ⟨operand, hoperand, hnew⟩
    · exact .inl hold
    · cases hnew
      right
      rw [← Instruction.stops_bare, ← Instruction.next_bare, hbare, Instruction.stops_bare,
        Instruction.next_bare]
      by_cases hstops : decoded.Stops
      · exact .inl hstops
      · exact .inr (hfollow.scan_next_mem hstops)
    · cases hnew
  | @tableEnd kind table found =>
    obtain ⟨names, htokens⟩ := survey.script.mem_tokens_placeTable table found
    rw [script_closeTable, htokens] at hmem
    rcases hmem with hold | hnew
    · exact .inl hold
    · cases hnew
  | argumentEntered =>
    rw [script_update, (Script.SameImage.insertRole survey.script _ _).tokens] at hmem
    exact .inl hmem
  | tableEntry =>
    rw [script_update, (Script.SameImage.insertDestination survey.script _ _).tokens] at hmem
    exact .inl hmem
  | _ => exact .inl hmem

/-- A scan that ends inside the buffer has a reason. -/
theorem settled {address : Nat}
    (h : Task.Performs buffer signatures survey (.scan address) after tasks)
    (hlayout : survey.script.Layout buffer)
    (hdata : ∀ token ∈ survey.script.tokens, ¬ token.IsData) (hinside : address < buffer.length) :
    after.script.Settled buffer address := by
  cases h with
  | scanEnd hend => omega
  | scanUndecodable _ hdecode => exact .undecodable (malformed_of_decode hdecode)
  | scanRefused _ hdecode hclaim => exact .of_refusal hlayout hdata hdecode hclaim
  | scanEntered _ hdecode hclaim hfollow =>
    have hentered := Script.Decoded.of_claimInstruction
      (hlayout.claimInstruction hdecode hclaim) hclaim
    rw [(decode_ok hdecode).1] at hentered
    exact .decoded (hentered.extends (.sameImage hfollow.sameImage))

end Task.Performs

theorem mem_note {survey : Survey} {event other : Event} :
    other ∈ (survey.note event).log ↔ other ∈ survey.log ∨ other = event :=
  Array.mem_push

/-- No branch is reported as one that joins a scan. -/
theorem Follows.joined {instruction : Instruction} {survey after : Survey} {tasks : List Task}
    {address : Nat} (h : Follows buffer signatures instruction survey after tasks)
    (hmem : .joined address ∈ after.log) : .joined address ∈ survey.log := by
  have hedge : ∀ edge offset value,
      .joined address ∈ (followEdge buffer edge offset value survey).1.log →
        .joined address ∈ survey.log := by
    intro edge offset value hjoined
    unfold followEdge at hjoined
    split at hjoined
    · exact hjoined
    · simpa only [mem_note, reduceCtorEq, or_false] using hjoined
  cases h with
  | jump | conditional => exact hedge _ _ _ hmem
  | unknown | outside | tableOutside => simpa only [mem_note, reduceCtorEq, or_false] using hmem
  | stop | onward | call | gosub | fork | tableKnown | tableNew => exact hmem

/-- A scan is reported to join another one only where the instruction is there. -/
theorem Task.Performs.joined {task : Task} {survey after : Survey} {tasks : List Task}
    {address : Nat} (h : Task.Performs buffer signatures survey task after tasks)
    (hlayout : survey.script.Layout buffer) (hmem : .joined address ∈ after.log) :
    .joined address ∈ survey.log ∨ survey.script.Decoded address := by
  cases h with
  | probeKnown | scanEnd | argumentsDone | argumentValue | argumentEntered | tableEntry =>
    exact .inl hmem
  | probeNew | scanUndecodable | argumentUnknown | argumentOutside =>
    simp only [mem_note, reduceCtorEq, or_false] at hmem
    exact .inl hmem
  | scanEntered hinside hdecode hclaim hfollow => exact .inl (hfollow.joined hmem)
  | @scanRefused offset instruction refusal hinside hdecode hclaim =>
    rcases mem_note.mp hmem with hold | hnew
    · exact .inl hold
    · rcases Script.claimInstruction_error (hlayout.first_lt hdecode) hclaim with
        ⟨existing, htoken, hoffset, rfl⟩ | ⟨-, rfl⟩ | ⟨index, -, -, -, rfl⟩
      · cases hnew
        exact .inr ⟨existing, htoken, hoffset⟩
      · cases hnew
      · cases hnew
  | tableEnd =>
    unfold closeTable at hmem
    split at hmem <;>
      · simp only [mem_note, Survey.update, reduceCtorEq, or_false] at hmem
        exact .inl hmem

/-- Every arrival is settled or awaits its scan, and nothing has become data. -/
structure Awaited (buffer : Buffer) (tasks : List Task) (survey : Survey) : Prop where
  progress : Progress buffer tasks survey
  dataless : ∀ token ∈ survey.script.tokens, ¬ token.IsData
  arrivals : ∀ address < buffer.length, survey.script.Arrives address →
    survey.script.Settled buffer address ∨ .scan address ∈ tasks
  joined : ∀ address, .joined address ∈ survey.log → survey.script.Decoded address

namespace Awaited

theorem step {task : Task} {tasks rest : List Task} {survey after : Survey}
    (hperform : Task.Performs buffer signatures survey task after tasks)
    (h : Awaited buffer (task :: rest) survey) : Awaited buffer (tasks ++ rest) after := by
  have hextends := hperform.places.extends
  constructor
  case progress => exact h.progress.step hperform
  case dataless =>
    intro token hmem
    rcases hperform.places.mem_tokens hmem with hold | ⟨hnew, -⟩
    · exact h.dataless token hold
    · exact hnew
  case arrivals =>
    intro address hinside harrives
    -- An arrival that is not new was settled or awaited, and if the scan that it awaited
    -- is the task, then the task has settled it.
    have hknown : survey.script.Arrives address →
        after.script.Settled buffer address ∨ .scan address ∈ tasks ++ rest := by
      intro hold
      rcases h.arrivals address hinside hold with hsettled | hscan
      · exact .inl (hsettled.extends hextends)
      · rcases List.mem_cons.mp hscan with rfl | hrest
        · exact .inl (hperform.settled h.progress.layout h.dataless hinside)
        · exact .inr (List.mem_append_right _ hrest)
    cases harrives with
    | branch hmem =>
      rcases hperform.mem_branches hmem with hold | hnew
      · exact hknown (.branch hold)
      · exact .inr (List.mem_append_left _ hnew)
    | onward hmem hruns =>
      rcases hperform.mem_instructions hmem with hold | hstops | hnew
      · exact hknown (.onward hold hruns)
      · exact absurd hstops hruns
      · exact .inr (List.mem_append_left _ hnew)
  case joined =>
    intro address hmem
    rcases hperform.joined h.progress.layout hmem with hold | hnew
    · exact (h.joined address hold).extends hextends
    · exact hnew.extends hextends

theorem probes {found : Script} {log : Array Event} (hlayout : found.Layout buffer)
    (hunexplored : found.Unexplored) (hlog : ∀ address, .joined address ∉ log) :
    Awaited buffer (found.entrypoints.map .probe) ⟨found, log⟩ := by
  constructor
  case progress => exact .probes hlayout
  case dataless =>
    intro token hmem hdata
    have hentrypoint := hunexplored.tokens token hmem
    cases token <;> first | exact hentrypoint | exact hdata
  case arrivals =>
    intro address hinside harrives
    cases harrives with
    | branch hmem =>
      have hempty : found.branches = .empty := congrArg Script.branches hunexplored.rest
      rw [hempty] at hmem
      exact absurd hmem (AddressSet.not_mem_empty address)
    | onward hmem hruns => exact absurd (hunexplored.tokens _ hmem) id
  case joined =>
    intro address hmem
    exact absurd hmem (hlog address)

theorem run {tasks : List Task} {survey explored : Survey} (h : Awaited buffer tasks survey)
    (hrun : run buffer signatures tasks survey = (explored, .ok ())) :
    Awaited buffer [] explored :=
  run_induction (Awaited buffer) step h hrun

end Awaited

/-- Data lets nothing arrive. -/
theorem Script.Filled.arrives {before after : Script} {address : Nat} (h : before.Filled after)
    (harrives : after.Arrives address) : before.Arrives address := by
  cases harrives with
  | branch hmem =>
    have hbranches : after.branches = before.branches := by rw [h.rest]
    rw [hbranches] at hmem
    exact .branch hmem
  | onward hmem hruns =>
    rcases h.tokens _ hmem with hold | hdata
    · exact .onward hold hruns
    · exact absurd hdata id

theorem joined_not_mem_trailingReport {bytes : List UInt8} {address : Nat} :
    .joined address ∉ trailingReport bytes := by
  unfold trailingReport
  split <;> simp

/-- Every address to which control can come is settled when the disassembly ends, and a scan
that was reported to join another one has lost nothing. -/
theorem settled_of_disassemble {bytes : List UInt8} {signatures : Signatures} {script : Script}
    (h : disassemble bytes signatures = .ok script) :
    (∀ address < (Buffer.ofBytes bytes).length, script.Arrives address →
      script.Settled (.ofBytes bytes) address) ∧
    ∀ address, .joined address ∈ (trace bytes signatures).log → script.Decoded address := by
  obtain ⟨found, explored, hfound, hrun, hfilled, hlog⟩ := disassemble_ok h
  have hstart : Awaited (.ofBytes bytes) (found.entrypoints.map .probe)
      ⟨found, #[.entrypointsFound found.entrypoints.length]⟩ := by
    apply Awaited.probes (.found hfound) (findEntrypoints_unexplored hfound)
    simp
  have hend := hstart.run hrun
  have hgaps := fillGaps_filled hfilled
  constructor
  · intro address hinside harrives
    rcases hend.arrivals address hinside (hgaps.arrives harrives) with hsettled | hscan
    · exact hsettled.extends hgaps.extends_before
    · exact absurd hscan List.not_mem_nil
  · intro address hmem
    rw [hlog, Array.mem_append, Array.mem_push] at hmem
    rcases hmem with htrailing | hjoined | hsummary
    · exact absurd htrailing joined_not_mem_trailingReport
    · exact (hend.joined address hjoined).extends hgaps.extends_before
    · cases hsummary

/-- Four calls of subroutines in a row. The first leads to the last instruction, which the scan
behind the calls joins; the others lead to an instruction whose operand would be the first word of
the one behind it, into an operand, and to a word that is no instruction. -/
def haltedScans : List UInt8 :=
  [8, 0, 0, 0, 0x02, 1, 0, 0, 0x02, 1, 0, 0, 0x49, 0, 0, 0,
    0x48, 1, 0, 0, 9, 0, 0, 0x09, 0x48, 1, 0, 0, 0xfb, 0xff, 0, 0x09,
    0x48, 1, 0, 0, 0xfb, 0xff, 0, 0x09, 0x48, 1, 0, 0, 4, 0, 0, 0x09,
    0x00, 0, 0, 0, 0x49, 0, 0, 0, 0xff, 0xff, 0xff, 0xff]

theorem settled_of_haltedScans :
    ∃ script, disassemble haltedScans .empty = .ok script ∧
      script.branches.toList = [4, 8, 12, 52, 56] ∧
      (∀ address ∈ script.branches, script.Settled (.ofBytes haltedScans) address) ∧
      script.tokenAt? 1 = some (.data 4 0x102) ∧
      script.tokenAt? 2 =
        some (.instruction ⟨8, .wait, 0, [⟨12, .immediate, [0x49], some 0x49, none⟩]⟩) ∧
      script.tokenAt? 3 = some (.operand ⟨12, .immediate, [0x49], some 0x49, none⟩) ∧
      script.tokenAt? 14 = some (.data 56 0xffffffff) ∧
      .joined 52 ∈ (trace haltedScans .empty).log ∧ script.Decoded 52 := by
  have hread : (disassemble haltedScans .empty).toOption.map (fun script =>
      (script.branches.toList, script.tokenAt? 1, script.tokenAt? 2, script.tokenAt? 3,
        script.tokenAt? 14)) =
      some ([4, 8, 12, 52, 56], some (.data 4 0x102),
        some (.instruction ⟨8, .wait, 0, [⟨12, .immediate, [0x49], some 0x49, none⟩]⟩),
        some (.operand ⟨12, .immediate, [0x49], some 0x49, none⟩),
        some (.data 56 0xffffffff)) := by
    cbv
  have hlog : (trace haltedScans .empty).log.contains (.joined 52) = true := by cbv
  have hlength : (Buffer.ofBytes haltedScans).length = 60 := by cbv
  obtain ⟨script, h, heq⟩ := exists_disassemble hread
  simp only [Prod.mk.injEq] at heq
  obtain ⟨hbranches, hobstructed, hfirst, hoccupied, hundecodable⟩ := heq
  obtain ⟨hsettled, hdecoded⟩ := settled_of_disassemble h
  have hjoined : .joined 52 ∈ (trace haltedScans .empty).log := Array.contains_iff_mem.mp hlog
  refine ⟨script, h, hbranches, ?_, hobstructed, hfirst, hoccupied, hundecodable, hjoined,
    hdecoded 52 hjoined⟩
  intro address hmem
  have hlist : address ∈ script.branches.toList := hmem
  have hinside : address < 60 := by
    simp only [hbranches, List.mem_cons, List.not_mem_nil, or_false] at hlist
    omega
  rw [← hlength] at hinside
  exact hsettled address hinside (.branch hmem)

end ScriptDisassembler
