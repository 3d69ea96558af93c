import Mathlib.Data.List.Basic
import ScriptDisassembler.Proofs.Tiling

/-!
The entries of a script whose slots are all claimed. They follow each other without a gap
from the first slot to the last, and each of them owns every slot that it asks for. So the
offsets ascend, the widths add up to the number of slots and no token is listed twice.
-/

namespace ScriptDisassembler

namespace Script

variable {script : Script}

/-- Tokens with their numbers, each of which begins where the one before it ends and owns
all of its slots. -/
inductive Spans (script : Script) : (start : Nat) → List (Nat × Token) → (stop : Nat) → Prop
  | nil (stop : Nat) : Spans script stop [] stop
  | cons {start stop id : Nat} {token : Token} {rest : List (Nat × Token)}
      (htoken : script.tokens[id]? = some token) (haligned : token.offset % 4 = 0)
      (hstart : token.offset / 4 = start) (hwidth : 0 < token.width)
      (howns : ∀ index, token.Covers index → script.owner? index = some id)
      (hrest : Spans script (start + token.width) rest stop) :
      Spans script start ((id, token) :: rest) stop

namespace Spans

variable {start stop : Nat} {owners : List (Nat × Token)}

theorem sum_width (h : script.Spans start owners stop) :
    start + (owners.map fun owner => owner.2.width).sum = stop := by
  induction h with
  | nil => simp
  | cons htoken haligned hstart hwidth howns hrest ih =>
    simp only [List.map_cons, List.sum_cons]
    omega

theorem start_le {id : Nat} {token : Token} (h : script.Spans start owners stop)
    (hmem : (id, token) ∈ owners) : start ≤ token.offset / 4 ∧ token.offset % 4 = 0 := by
  induction h with
  | nil => simp at hmem
  | cons htoken haligned hstart hwidth howns hrest ih =>
    rcases List.mem_cons.mp hmem with heq | hmem
    · cases heq
      exact ⟨Nat.le_of_eq hstart.symm, haligned⟩
    · obtain ⟨hle, hmod⟩ := ih hmem
      exact ⟨by omega, hmod⟩

theorem pairwise_offset (h : script.Spans start owners stop) :
    owners.Pairwise fun first second => first.2.offset < second.2.offset := by
  induction h with
  | nil => exact .nil
  | cons htoken haligned hstart hwidth howns hrest ih =>
    refine List.pairwise_cons.mpr ⟨?_, ih⟩
    intro owner hmem
    obtain ⟨hle, hmod⟩ := hrest.start_le hmem
    dsimp only
    omega

theorem owns {id : Nat} {token : Token} (h : script.Spans start owners stop)
    (hmem : (id, token) ∈ owners) :
    script.tokens[id]? = some token ∧ 0 < token.width ∧
      ∀ index, token.Covers index → script.owner? index = some id := by
  induction h with
  | nil => simp at hmem
  | cons htoken haligned hstart hwidth howns hrest ih =>
    rcases List.mem_cons.mp hmem with heq | hmem
    · cases heq
      exact ⟨htoken, hwidth, howns⟩
    · exact ih hmem

/-- No slot is passed over. -/
theorem exists_covers {index : Nat} (h : script.Spans start owners stop)
    (hlower : start ≤ index) (hupper : index < stop) :
    ∃ id token, (id, token) ∈ owners ∧ token.Covers index := by
  induction h with
  | nil => omega
  | @cons start stop id token rest htoken haligned hstart hwidth howns hrest ih =>
    by_cases hfirst : index < start + token.width
    · refine ⟨id, token, List.mem_cons_self, ?_⟩
      unfold Token.Covers
      omega
    · obtain ⟨other, covering, hmem, hcovers⟩ := ih (by omega) hupper
      exact ⟨other, covering, List.mem_cons_of_mem _ hmem, hcovers⟩

/-- Two tokens of one number would begin at one offset. -/
theorem nodup_ids (h : script.Spans start owners stop) : (owners.map Prod.fst).Nodup := by
  unfold List.Nodup
  rw [List.pairwise_map]
  refine h.pairwise_offset.imp_of_mem ?_
  intro first second hfirst hsecond hlt heq
  have hone := (h.owns hfirst).1
  have hother := (h.owns hsecond).1
  rw [heq, hother, Option.some.injEq] at hone
  rw [hone] at hlt
  exact Nat.lt_irrefl _ hlt

theorem map_tokens (h : script.Spans start owners stop) :
    (owners.map Prod.snd).map some = (owners.map Prod.fst).map (script.tokens[·]?) := by
  rw [List.map_map, List.map_map]
  refine List.map_congr_left ?_
  intro owner hmem
  exact (h.owns hmem).1.symm

/-- Every owner of a slot is listed, and nothing else is. -/
theorem mem_ids {id : Nat} (h : script.Spans 0 owners script.wordCount) :
    id ∈ owners.map Prod.fst ↔ ∃ index, script.owner? index = some id := by
  constructor
  · intro hmem
    obtain ⟨⟨number, token⟩, howner, rfl⟩ := List.mem_map.mp hmem
    obtain ⟨htoken, hwidth, howns⟩ := h.owns howner
    exact ⟨token.offset / 4, howns _ ⟨Nat.le_refl _, Nat.lt_add_of_pos_right hwidth⟩⟩
  · intro howns
    obtain ⟨index, howner⟩ := howns
    have hlt := (Array.getElem?_eq_some_iff.mp (slots_of_owner? howner)).1
    obtain ⟨other, token, hmem, hcovers⟩ := h.exists_covers (Nat.zero_le index) hlt
    have hother := (h.owns hmem).2.2 index hcovers
    rw [howner, Option.some.injEq] at hother
    rw [hother]
    exact List.mem_map_of_mem hmem

end Spans

/-- The token that begins at a slot and owns it. -/
def startAt? (script : Script) (index : Nat) : Option Token :=
  (script.tokenAt? index).filter fun token => token.offset / 4 = index

theorem entries_eq (script : Script) :
    script.entries = (List.range' 0 script.wordCount).filterMap script.startAt? := by
  have hsnd : script.slots.toList.zipIdx.map Prod.snd = List.range' 0 script.wordCount := by
    rw [List.zipIdx_map_snd, Array.length_toList]
    rfl
  rw [← hsnd, List.filterMap_map, entries]
  refine List.filterMap_congr ?_
  rintro ⟨owner, index⟩ hmem
  have hslot := List.mk_mem_zipIdx_iff_getElem?.mp hmem
  rw [Array.getElem?_toList] at hslot
  simp only [Function.comp_apply, startAt?, tokenAt?, owner?, hslot, Option.join_some]
  cases owner.bind fun id => script.tokens[id]? <;> simp [Option.filter]

theorem startAt?_eq_some {index : Nat} {token : Token} : script.startAt? index = some token ↔
    script.tokenAt? index = some token ∧ token.offset / 4 = index := by
  rw [startAt?, Option.filter_eq_some_iff, decide_eq_true_eq]

theorem mem_entries {token : Token} : token ∈ script.entries ↔
    ∃ index < script.wordCount, script.startAt? index = some token := by
  rw [entries_eq, List.mem_filterMap]
  simp only [List.mem_range'_1, Nat.zero_le, Nat.zero_add, true_and]

theorem mem_tokens_of_mem_entries {token : Token} (h : token ∈ script.entries) :
    token ∈ script.tokens := by
  obtain ⟨index, -, hstart⟩ := mem_entries.mp h
  obtain ⟨id, -, hid⟩ := Option.bind_eq_some_iff.mp (startAt?_eq_some.mp hstart).1
  exact Array.mem_of_getElem? hid

/-- Of the slots of a token only the first begins one. -/
theorem filterMap_startAt?_covered {start id : Nat} {token : Token}
    (htoken : script.tokens[id]? = some token) (hstart : token.offset / 4 = start)
    (hwidth : 0 < token.width)
    (howns : ∀ index, token.Covers index → script.owner? index = some id) :
    (List.range' start token.width).filterMap script.startAt? = [token] := by
  have hat : ∀ index, token.Covers index →
      script.startAt? index = if token.offset / 4 = index then some token else none := by
    intro index hcovers
    rw [startAt?, tokenAt?_eq (howns index hcovers) htoken, Option.filter]
    simp
  obtain ⟨count, hcount⟩ := Nat.exists_eq_succ_of_ne_zero (Nat.ne_of_gt hwidth)
  have hfirst : script.startAt? start = some token := by
    rw [hat start ⟨by omega, by omega⟩, if_pos hstart]
  have hrest : (List.range' (start + 1) count).filterMap script.startAt? = [] := by
    rw [List.filterMap_eq_nil_iff]
    intro index hmem
    rw [List.mem_range'_1] at hmem
    rw [hat index ⟨by omega, by omega⟩, if_neg (by omega)]
  rw [hcount, List.range'_succ, List.filterMap_cons_some hfirst, hrest]

namespace Tiled

/-- A token that owns one slot owns all that it asks for; a table asks for one only. -/
theorem owner?_of_covers {index other id : Nat} {token : Token} (h : script.Tiled)
    (howner : script.owner? index = some id) (htoken : script.tokens[id]? = some token)
    (hcovers : token.Covers other) : script.owner? other = some id := by
  cases token with
  | table table =>
    have hindex := Token.covers_table.mp (h.covers howner htoken)
    rw [Token.covers_table.mp hcovers, ← hindex, howner]
  | instruction | operand | data | entrypoint =>
    exact h.owns htoken (fun htable => htable) other hcovers

/-- The slot after the last one of a token is the first of another. -/
theorem start_after {id other : Nat} {token next : Token} (h : script.Tiled)
    (htoken : script.tokens[id]? = some token) (hwidth : 0 < token.width)
    (howns : ∀ index, token.Covers index → script.owner? index = some id)
    (hother : script.owner? (token.offset / 4 + token.width) = some other)
    (hnext : script.tokens[other]? = some next) :
    token.offset / 4 + token.width ≤ next.offset / 4 := by
  have hcovers := h.covers hother hnext
  apply Nat.le_of_not_lt
  intro hlt
  -- Otherwise the last slot of the first token is one of the second.
  unfold Token.Covers at hcovers
  have hlast : next.Covers (token.offset / 4 + token.width - 1) := ⟨by omega, by omega⟩
  have hshared := h.owner?_of_covers hother hnext hlast
  rw [howns _ ⟨by omega, by omega⟩, Option.some.injEq] at hshared
  subst hshared
  rw [htoken, Option.some.injEq] at hnext
  subst hnext
  exact Nat.lt_irrefl _ hcovers.2

/-- Where a token has just ended, the tokens from there on cover the rest. -/
theorem exists_spans {start count : Nat} (h : script.Tiled)
    (hcomplete : ∀ index < script.wordCount, script.isClaimed index = true)
    (hcount : start + count = script.wordCount)
    (hstart : ∀ {id : Nat} {token : Token}, script.owner? start = some id →
      script.tokens[id]? = some token → start ≤ token.offset / 4) :
    ∃ owners, script.Spans start owners script.wordCount ∧
      (List.range' start count).filterMap script.startAt? = owners.map Prod.snd := by
  induction count using Nat.strongRecOn generalizing start with
  | ind count ih =>
    rcases Nat.eq_zero_or_pos count with rfl | hpos
    · exact ⟨[], hcount ▸ .nil _, rfl⟩
    · obtain ⟨id, howner⟩ := isClaimed_iff.mp (hcomplete start (by omega))
      obtain ⟨token, htoken, hcovers⟩ := h.owned howner
      have hfirst : token.offset / 4 = start := Nat.le_antisymm hcovers.1 (hstart howner htoken)
      have hwidth := h.width_pos htoken
      have howns : ∀ index, token.Covers index → script.owner? index = some id :=
        fun index => h.owner?_of_covers howner htoken
      have hlast := howns (token.offset / 4 + token.width - 1) ⟨by omega, by omega⟩
      have hinside := (Array.getElem?_eq_some_iff.mp (slots_of_owner? hlast)).1
      have hrest : start + token.width + (count - token.width) = script.wordCount := by
        unfold wordCount at hcount ⊢
        omega
      obtain ⟨owners, hspans, hentries⟩ := ih (count - token.width) (by omega) hrest
        (hfirst ▸ h.start_after htoken hwidth howns)
      refine ⟨(id, token) :: owners, ?_, ?_⟩
      · exact .cons htoken (h.aligned htoken) hfirst hwidth howns hspans
      · have hcut : count = token.width + (count - token.width) := by
          unfold wordCount at hcount
          omega
        rw [hcut, ← List.range'_append_1, List.filterMap_append, hentries,
          filterMap_startAt?_covered htoken hfirst hwidth howns]
        rfl

theorem entries_spans (h : script.Tiled)
    (hcomplete : ∀ index < script.wordCount, script.isClaimed index = true) :
    ∃ owners, script.Spans 0 owners script.wordCount ∧
      script.entries = owners.map Prod.snd := by
  rw [entries_eq]
  exact h.exists_spans hcomplete (Nat.zero_add _) fun _ _ => Nat.zero_le _

end Tiled

end Script

end ScriptDisassembler
