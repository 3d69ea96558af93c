import ScriptDisassembler.Proofs.Arrivals
import ScriptDisassembler.Proofs.Recorded
import ScriptDisassembler.Proofs.References

/-!
The front of a script. The entrypoints are the longest front of the first sixteen words all of
whose values are addresses of instructions, as far as the first word at the address tells. Their
tokens come first and stand in the slots of their words, one after the other. Whatever is explored
later meets them there and stops: the slots stay with the entrypoints to the end, and no entrypoint
comes to be anywhere else.
-/

namespace ScriptDisassembler

namespace Buffer

/-- A script can be entered through the word: an instruction may begin at the address that is its
value. -/
def Enters (buffer : Buffer) (word : Word) : Prop :=
  buffer.Begins word.toNat

instance (buffer : Buffer) : DecidablePred buffer.Enters :=
  fun word => inferInstanceAs (Decidable (buffer.Begins word.toNat))

theorem headerOffset?_toNat (buffer : Buffer) (word : Word) :
    buffer.headerOffset? word.toNat = if buffer.Enters word then some word.toNat else none := by
  by_cases henters : buffer.Enters word
  · rw [if_pos henters, headerOffset?_eq_some]
    exact ⟨rfl, henters⟩
  · rw [if_neg henters, Option.eq_none_iff_forall_not_mem]
    intro offset hoffset
    obtain ⟨heq, hbegins⟩ := headerOffset?_eq_some.mp hoffset
    rw [Nat.cast_inj] at heq
    rw [heq] at hbegins
    exact henters hbegins

theorem exists_drop_eq_cons {buffer : Buffer} {index : Nat} (h : index < buffer.wordCount) :
    ∃ word, buffer.wordAt (4 * index) = .ok word ∧
      buffer.words.toList.drop index = word :: buffer.words.toList.drop (index + 1) :=
  ⟨_, buffer.wordAt_mul_four h, List.drop_eq_getElem_cons h⟩

theorem drop_eq_nil {buffer : Buffer} {index : Nat} (h : buffer.length ≤ 4 * index) :
    buffer.words.toList.drop index = [] := by
  apply List.drop_eq_nil_of_le
  unfold length wordCount at h
  rw [Array.length_toList]
  omega

end Buffer

variable {buffer : Buffer} {signatures : Signatures}

/-- The search for entrypoints goes on up to its limit, to the end of the buffer or to a word
through which the script cannot be entered. -/
theorem entrypoints_findEntrypoints {limit index : Nat} {script found : Script}
    (hfound : findEntrypoints buffer limit index script = .ok found) :
    found.entrypoints = script.entrypoints ++
      (((buffer.words.toList.drop index).take limit).takeWhile buffer.Enters).map
        UInt32.toNat := by
  induction limit generalizing index script with
  | zero =>
    cases hfound
    simp
  | succ limit ih =>
    simp only [findEntrypoints] at hfound
    by_cases hend : buffer.length ≤ 4 * index
    · rw [if_pos hend, Except.ok.injEq] at hfound
      rw [Buffer.drop_eq_nil hend, ← hfound]
      simp
    · have hindex : index < buffer.wordCount := by
        unfold Buffer.length at hend
        omega
      obtain ⟨word, hword, hdrop⟩ := Buffer.exists_drop_eq_cons hindex
      simp only [if_neg hend, hword, Buffer.headerOffset?_toNat] at hfound
      rw [hdrop, List.take_succ_cons, List.takeWhile_cons]
      by_cases henters : buffer.Enters word
      · simp only [if_pos henters] at hfound
        rw [ih hfound, entrypoints_placeEntrypoint, if_pos (decide_eq_true henters), List.map_cons,
          List.append_assoc, List.singleton_append]
      · simp only [if_neg henters, Except.ok.injEq] at hfound
        rw [if_neg (by simpa using henters), ← hfound, List.map_nil, List.append_nil]

namespace Script

/-- The entrypoints before an index have been entered, each under the number of its slot, and
the slots from there on are free. -/
structure Fronted (buffer : Buffer) (index : Nat) (script : Script) : Prop where
  entrypoints : script.entrypoints.length = index
  tokens : script.tokens.size = index
  token : ∀ {place target : Nat}, script.entrypoints[place]? = some target →
    ∃ name, script.tokens[place]? = some (.entrypoint (4 * place) target name) ∧
      script.labels.find? target = some name
  owner : ∀ place < index, script.owner? place = some place
  free : ∀ place, index ≤ place → place < buffer.wordCount → script.slots[place]? = some none

namespace Fronted

theorem blank (buffer : Buffer) : (Script.blank buffer.wordCount).Fronted buffer 0 where
  entrypoints := rfl
  tokens := rfl
  token h := by simp [Script.blank] at h
  owner place hlt := absurd hlt (Nat.not_lt_zero place)
  free place _ hlt := by simp [Script.blank, hlt]

theorem placeEntrypoint {index : Nat} {script : Script} (h : script.Fronted buffer index)
    (hindex : index < buffer.wordCount) (target : Nat) :
    (script.placeEntrypoint index target).Fronted buffer (index + 1) := by
  have hgrows := Grows.placeEntrypoint script index target
  have hfree := h.free index (Nat.le_refl index) hindex
  have hslots : ∀ place, (script.placeEntrypoint index target).slots[place]? =
      if place = index then some (some script.tokens.size) else script.slots[place]? :=
    slots_placeEntrypoint hfree
  have htokens : (script.placeEntrypoint index target).tokens = script.tokens.push
      (.entrypoint (4 * index) target
        (script.labels.add target fun _ => (Label.entrypoint index).text).1) := by
    rw [Script.placeEntrypoint, tokens_place]
  have hlabels : (script.placeEntrypoint index target).labels =
      (script.labels.add target fun _ => (Label.entrypoint index).text).2 := by
    rw [Script.placeEntrypoint, labels_place]
  constructor
  case entrypoints =>
    rw [entrypoints_placeEntrypoint, List.length_append, h.entrypoints, List.length_singleton]
  case tokens => rw [htokens, Array.size_push, h.tokens]
  case token =>
    intro place other hplace
    rw [entrypoints_placeEntrypoint] at hplace
    rcases getElem?_concat_cases hplace with ⟨-, hold⟩ | ⟨hlast, rfl⟩
    · obtain ⟨name, htoken, hname⟩ := h.token hold
      exact ⟨name, hgrows.token htoken, hgrows.labels.name hname⟩
    · rw [h.entrypoints] at hlast
      refine ⟨_, ?_, (congrArg (·.find? other) hlabels).trans (Labels.find?_add_self ..)⟩
      rw [htokens, hlast, ← h.tokens, Array.getElem?_push_size]
  case owner =>
    intro place hplace
    rw [owner?, hslots]
    split
    · next heq => rw [h.tokens, heq, Option.join_some]
    · next hne => exact h.owner place (by omega)
  case free =>
    intro place hlower hupper
    rw [hslots, if_neg (by omega)]
    exact h.free place (by omega) hupper

/-- There are no other tokens than those of the entrypoints. -/
theorem eq_entrypoint {index place : Nat} {script : Script} {token : Token}
    (h : script.Fronted buffer index) (htoken : script.tokens[place]? = some token) :
    place < index ∧ ∃ target name, token = .entrypoint (4 * place) target name := by
  have hplace := (Array.getElem?_eq_some_iff.mp htoken).1
  rw [h.tokens, ← h.entrypoints] at hplace
  obtain ⟨name, hname, -⟩ := h.token (List.getElem?_eq_getElem hplace)
  rw [htoken, Option.some.injEq] at hname
  rw [← h.entrypoints]
  exact ⟨hplace, _, name, hname⟩

end Fronted

end Script

theorem findEntrypoints_fronted {limit : Nat} {found : Script}
    (hfound : findEntrypoints buffer limit 0 (.blank buffer.wordCount) = .ok found) :
    found.Fronted buffer found.entrypoints.length := by
  have hinvariant := findEntrypoints_induction (Script.Fronted buffer) ?_ (.blank buffer) hfound
  · obtain ⟨index, h⟩ := hinvariant
    rw [h.entrypoints]
    exact h
  · intro index target word script hword htarget h
    have hinside := (wordAt_ok hword).2
    refine h.placeEntrypoint ?_ target
    unfold Buffer.length at hinside
    omega

namespace Script.Continues

variable {found script after : Script}

/-- The slots of the entrypoints stay with their tokens. -/
theorem front (h : found.Continues script) (hfronted : found.Fronted buffer found.entrypoints.length)
    {index target : Nat} (htarget : script.entrypoints[index]? = some target) :
    script.slots[index]? = some (some index) ∧
      ∃ name, found.tokens[index]? = some (.entrypoint (4 * index) target name) ∧
        script.tokens[index]? = some (.entrypoint (4 * index) target name) ∧
        script.labels.find? target = some name := by
  rw [h.entrypoints] at htarget
  have hindex := (List.getElem?_eq_some_iff.mp htarget).1
  obtain ⟨name, htoken, hname⟩ := hfronted.token htarget
  exact ⟨slots_of_owner? (h.grows.owner (hfronted.owner index hindex)), name, htoken,
    h.grows.token htoken, h.grows.labels.name hname⟩

section

variable (h : found.Continues script) (hfronted : found.Fronted buffer found.entrypoints.length)
include h hfronted

theorem slot {index : Nat} (hindex : index < script.entrypoints.length) :
    script.slots[index]? = some (some index) :=
  (h.front hfronted (List.getElem?_eq_getElem hindex)).1

/-- Whatever continues the search has the same tokens in front. -/
theorem token_eq (hafter : found.Continues after) {index : Nat}
    (hindex : index < script.entrypoints.length) : script.tokens[index]? = after.tokens[index]? := by
  obtain ⟨target, htarget⟩ : ∃ target, script.entrypoints[index]? = some target :=
    ⟨_, List.getElem?_eq_getElem hindex⟩
  obtain ⟨-, name, hfound, htoken, -⟩ := h.front hfronted htarget
  rw [h.entrypoints, ← hafter.entrypoints] at htarget
  obtain ⟨-, other, hother, hsame, -⟩ := hafter.front hfronted htarget
  rw [htoken, hsame, ← hfound, ← hother]

variable (htiled : script.Tiled)
include htiled

/-- The slots in front are taken, so a token that asks for one of them is the one that has it. -/
theorem eq_of_covers {id index : Nat} {token : Token} (htoken : script.tokens[id]? = some token)
    (htable : ¬ token.IsTable) (hindex : index < script.entrypoints.length)
    (hcovers : token.Covers index) : id = index := by
  have howner := htiled.owns htoken htable index hcovers
  rw [owner?, h.slot hfronted hindex, Option.join_some, Option.some.injEq] at howner
  exact howner.symm

theorem front_of_entrypoint {id : Nat} {token : Token} (htoken : script.tokens[id]? = some token)
    (hentrypoint : token.IsEntrypoint) :
    id < script.entrypoints.length ∧ ∀ index : Nat, script.slots[index]? = some (some id) →
      index = id := by
  have hold := h.only token (Array.mem_of_getElem? htoken) hentrypoint
  obtain ⟨place, hfront⟩ := Array.getElem?_of_mem hold
  obtain ⟨hplace, target, name, rfl⟩ := hfronted.eq_entrypoint hfront
  rw [← h.entrypoints] at hplace
  have hcovers : ∀ index, (Token.entrypoint (4 * place) target name).Covers index ↔
      index = place := fun _ => Token.covers_word rfl rfl
  obtain rfl : id = place :=
    h.eq_of_covers hfronted htiled htoken (fun htable => htable) hplace ((hcovers place).mpr rfl)
  refine ⟨hplace, ?_⟩
  intro index hindex
  have howner : script.owner? index = some id := by rw [owner?, hindex, Option.join_some]
  exact (hcovers index).mp (htiled.covers howner htoken)

end

end Script.Continues

/-- Every moment of an exploration continues the search for entrypoints. -/
theorem Exploring.continues {tasks : List Task} {survey : Survey} {found : Script}
    (h : Exploring buffer signatures tasks survey)
    (hfound : findEntrypoints buffer entrypointLimit 0 (.blank buffer.wordCount) = .ok found) :
    found.Continues survey.script := by
  induction h with
  | start hother =>
    rw [hfound, Except.ok.injEq] at hother
    rw [← hother]
    exact .refl found
  | step hbefore hperform ih => exact ih.performs (Task.performs_of_perform hperform)

/-- An instruction that begins in the slot of an entrypoint is not entered. -/
theorem Script.claimInstruction_of_entrypoint {script : Script} {instruction : Instruction}
    {id offset target : Nat} {name : String}
    (hslot : script.slots[instruction.offset / 4]? = some (some id))
    (htoken : script.tokens[id]? = some (.entrypoint offset target name)) :
    script.claimInstruction instruction =
      .error (.overlap instruction.opcode instruction.offset) := by
  simp only [claimInstruction, hslot, htoken]

/-- The entrypoints are the front of what a disassembly returns, and of what it goes through. -/
structure Script.EnteredInFront (bytes : List UInt8) (signatures : Signatures)
    (script : Script) : Prop where
  words : script.entrypoints =
    (((Buffer.ofBytes bytes).words.toList.take 16).takeWhile (Buffer.ofBytes bytes).Enters).map
      UInt32.toNat
  token : ∀ {index target : Nat}, script.entrypoints[index]? = some target →
    script.slots[index]? = some (some index) ∧
      ∃ name, script.tokens[index]? = some (.entrypoint (4 * index) target name) ∧
        script.labels.find? target = some name
  /-- There are no other entrypoints, and these own no other slots. -/
  only : ∀ {id : Nat} {token : Token}, script.tokens[id]? = some token → token.IsEntrypoint →
    id < script.entrypoints.length ∧ ∀ index : Nat, script.slots[index]? = some (some id) →
      index = id
  /-- A table that would begin in front owns nothing, and no other token asks for a slot there. -/
  uncovered : ∀ {id : Nat} {token : Token}, script.tokens[id]? = some token →
    script.entrypoints.length ≤ id → ∀ index < script.entrypoints.length,
      script.slots[index]? ≠ some (some id) ∧ (token.Covers index → token.IsTable)
  kept : ∀ {tasks : List Task} {survey : Survey},
    Exploring (.ofBytes bytes) signatures tasks survey →
      survey.script.entrypoints = script.entrypoints ∧ ∀ index < script.entrypoints.length,
        survey.script.slots[index]? = some (some index) ∧
        survey.script.tokens[index]? = script.tokens[index]?
  refused : ∀ {tasks : List Task} {survey : Survey} {offset : Nat} {instruction : Instruction},
    Exploring (.ofBytes bytes) signatures tasks survey →
      decode (.ofBytes bytes) offset = .ok instruction →
        offset / 4 < script.entrypoints.length →
          survey.script.claimInstruction instruction = .error (.overlap instruction.opcode offset)

theorem entered_in_front_of_disassemble {bytes : List UInt8} {script : Script}
    (h : disassemble bytes signatures = .ok script) :
    script.EnteredInFront bytes signatures := by
  obtain ⟨explored, hend, hfilled⟩ := explored_of_disassemble h
  obtain ⟨found, hfound⟩ := exists_findEntrypoints (.ofBytes bytes) entrypointLimit 0
    (.blank (Buffer.ofBytes bytes).wordCount)
  have hfronted := findEntrypoints_fronted hfound
  have hcontinues := (hend.continues hfound).filled (fillGaps_filled hfilled) (fillGaps_grows hfilled)
  have htiled := (Script.Layout.disassembled h).1.tiled
  constructor
  case words =>
    rw [hcontinues.entrypoints, entrypoints_findEntrypoints hfound, List.drop_zero]
    rfl
  case token =>
    intro index target htarget
    obtain ⟨hindex, name, -, htoken, hname⟩ := hcontinues.front hfronted htarget
    exact ⟨hindex, name, htoken, hname⟩
  case only =>
    intro id token htoken hentrypoint
    exact hcontinues.front_of_entrypoint hfronted htiled htoken hentrypoint
  case uncovered =>
    intro id token htoken hbehind index hindex
    constructor
    · rw [hcontinues.slot hfronted hindex, ne_eq, Option.some.injEq, Option.some.injEq]
      omega
    · intro hcovers
      by_contra htable
      have hid := hcontinues.eq_of_covers hfronted htiled htoken htable hindex hcovers
      omega
  case kept =>
    intro tasks survey hexploring
    have hmoment := hexploring.continues hfound
    have hentrypoints := hmoment.entrypoints.trans hcontinues.entrypoints.symm
    refine ⟨hentrypoints, ?_⟩
    intro index hindex
    rw [← hentrypoints] at hindex
    exact ⟨hmoment.slot hfronted hindex, hmoment.token_eq hfronted hcontinues hindex⟩
  case refused =>
    intro tasks survey offset instruction hexploring hdecode hindex
    obtain ⟨rfl, -⟩ := decode_ok hdecode
    have hmoment := hexploring.continues hfound
    rw [hcontinues.entrypoints, ← hmoment.entrypoints] at hindex
    obtain ⟨hthen, name, -, htoken, -⟩ :=
      hmoment.front hfronted (List.getElem?_eq_getElem hindex)
    exact Script.claimInstruction_of_entrypoint hthen htoken

/-- The first word is the address of itself and the first word of an instruction, the other two lead
to one address. From there a table is read that begins at the second word, and then a jump leads
back to the first. -/
def enteredThroughItself : List UInt8 :=
  [0, 0, 0, 0, 12, 0, 0, 0, 12, 0, 0, 0, 0x4a, 2, 0, 0, 0, 0, 0, 2, 0xfe, 0xff, 0, 0x09,
    0x40, 1, 0, 0, 0xfa, 0xff, 0, 0x09]

theorem entered_in_front_of_enteredThroughItself :
    ∃ script, disassemble enteredThroughItself .empty = .ok script ∧
      script.entrypoints = [0, 12, 12] ∧
      script.slots = #[some 0, some 1, some 2, some 3, some 4, some 5, some 7, some 8] ∧
      script.tokens[6]? = some (.table ⟨4, [], []⟩) ∧
      script.EnteredInFront enteredThroughItself .empty := by
  have hread : (disassemble enteredThroughItself .empty).toOption.map
      (fun script => (script.entrypoints, script.slots, script.tokens[6]?)) =
      some ([0, 12, 12],
        #[some 0, some 1, some 2, some 3, some 4, some 5, some 7, some 8],
        some (.table ⟨4, [], []⟩)) := by
    cbv
  obtain ⟨script, h, heq⟩ := exists_disassemble hread
  simp only [Prod.mk.injEq] at heq
  obtain ⟨hentrypoints, hslots, htable⟩ := heq
  exact ⟨script, h, hentrypoints, hslots, htable, entered_in_front_of_disassemble h⟩

end ScriptDisassembler
