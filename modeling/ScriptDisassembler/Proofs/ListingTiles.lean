import Mathlib
import ScriptDisassembler.Proofs.Blocks
import ScriptDisassembler.Proofs.DefinedLabels

/-!
The lines of a listing stand for all the words of the buffer, each line for the words that
follow those of the line before it. So the lines can be shown with the words of another buffer
if and only if it is as long as the one that the script was made from, and if it is shorter the
first word that it lacks is the first that cannot be read.
-/

namespace ScriptDisassembler

namespace Buffer

variable {buffer : Buffer}

theorem wordsAt_inside {index count : Nat} (h : index + count ≤ buffer.wordCount) :
    buffer.wordsAt (4 * index) count = .ok ((buffer.words.toList.drop index).take count) := by
  induction count generalizing index with
  | zero => rfl
  | succ count ih =>
    have hlt : index < buffer.wordCount := by omega
    have hnext : 4 * index + 4 = 4 * (index + 1) := by omega
    have hrest := ih (by omega : index + 1 + count ≤ buffer.wordCount)
    have hdrop : buffer.words.toList.drop index =
        buffer.words[index] :: buffer.words.toList.drop (index + 1) :=
      List.drop_eq_getElem_cons hlt
    simp only [wordsAt, wordAt_mul_four buffer hlt, hnext, hrest, hdrop, List.take_succ_cons]

/-- The first word that is missing cannot be read. -/
theorem wordsAt_beyond {index count : Nat} (hindex : index ≤ buffer.wordCount)
    (hcount : buffer.wordCount < index + count) :
    buffer.wordsAt (4 * index) count = .error (.outOfBounds buffer.length buffer.length) := by
  induction count generalizing index with
  | zero => omega
  | succ count ih =>
    by_cases hlt : index < buffer.wordCount
    · have hnext : 4 * index + 4 = 4 * (index + 1) := by omega
      have hrest := ih (by omega : index + 1 ≤ buffer.wordCount) (by omega)
      simp only [wordsAt, wordAt_mul_four buffer hlt, hnext, hrest]
    · obtain rfl : index = buffer.wordCount := by omega
      have hmod : 4 * buffer.wordCount % 4 = 0 := by omega
      have hnone : buffer.words[4 * buffer.wordCount / 4]? = none := by
        rw [Array.getElem?_eq_none_iff]
        show buffer.wordCount ≤ _
        omega
      simp only [wordsAt, wordAt, hmod, ne_eq, not_true_eq_false, ↓reduceIte, hnone]
      rfl

end Buffer

/-- The lines stand for the words from one place to another: each begins with the word at which
the line before it ends. -/
inductive ListingLine.Tiles : Nat → List ListingLine → Nat → Prop
  | nil (start : Nat) : Tiles start [] start
  | cons {start stop : Nat} {line : ListingLine} {rest : List ListingLine}
      (hoffset : line.offset = 4 * start) (hwidth : 0 < line.width)
      (hrest : Tiles (start + line.width) rest stop) : Tiles start (line :: rest) stop

namespace ListingLine.Tiles

variable {start stop : Nat} {lines : List ListingLine} {buffer : Buffer}

theorem start_le (h : Tiles start lines stop) : start ≤ stop := by
  induction h with
  | nil => exact Nat.le_refl _
  | cons hoffset hwidth hrest ih => omega

theorem pairwise_offset (h : Tiles start lines stop) :
    (∀ line ∈ lines, 4 * start ≤ line.offset) ∧
      lines.Pairwise fun first second => first.offset < second.offset := by
  induction h with
  | nil => exact ⟨by simp, .nil⟩
  | cons hoffset hwidth hrest ih =>
    obtain ⟨hlower, hpairwise⟩ := ih
    refine ⟨List.forall_mem_cons.mpr ⟨by omega, fun line hmem => ?_⟩,
      .cons (fun line hmem => ?_) hpairwise⟩
    · have := hlower line hmem
      omega
    · have := hlower line hmem
      omega

/-- A buffer that has the last of the words has those of each line. -/
theorem exists_words (h : Tiles start lines stop) (hstop : stop ≤ buffer.wordCount) :
    ∀ line ∈ lines, ∃ words, buffer.wordsAt line.offset line.width = .ok words := by
  induction h with
  | nil => simp
  | cons hoffset hwidth hrest ih =>
    have hle := hrest.start_le
    refine List.forall_mem_cons.mpr ⟨?_, ih hstop⟩
    rw [hoffset]
    exact ⟨_, Buffer.wordsAt_inside (by omega)⟩

/-- The words that the lines show, one line after the other, are the words without a gap. -/
theorem flatMap_shown (h : Tiles start lines stop) (hstop : stop ≤ buffer.wordCount) :
    lines.flatMap (fun line => (line.shown buffer true).getD []) =
      (buffer.words.toList.drop start).take (stop - start) := by
  induction h with
  | nil => simp
  | @cons start stop line rest hoffset hwidth hrest ih =>
    have hle := hrest.start_le
    have hcut : stop - start = line.width + (stop - (start + line.width)) := by omega
    have hshown : line.shown buffer true =
        some ((buffer.words.toList.drop start).take line.width) := by
      rw [ListingLine.shown, hoffset, Buffer.wordsAt_inside (by omega)]
      rfl
    rw [List.flatMap_cons, ih hstop, hshown, Option.getD_some, hcut, List.take_add, List.drop_drop]

/-- A buffer that lacks some of the words is read up to its end. -/
theorem mapM_render_beyond (h : Tiles start lines stop) (hstart : start ≤ buffer.wordCount)
    (hstop : buffer.wordCount < stop) :
    lines.mapM (fun line => line.render buffer true) =
      .error (.outOfBounds buffer.length buffer.length) := by
  induction h with
  | nil => omega
  | @cons start stop line rest hoffset hwidth hrest ih =>
    rw [List.mapM_cons]
    -- The words may end behind this line, and the fault is that of a later one, or in it.
    by_cases hinside : start + line.width ≤ buffer.wordCount
    · have hwords := Buffer.wordsAt_inside hinside
      rw [ih hinside hstop, ListingLine.render, hoffset, hwords]
      rfl
    · have hwords := Buffer.wordsAt_beyond hstart (by omega : buffer.wordCount < start + line.width)
      rw [ListingLine.render, hoffset, hwords]
      rfl

end ListingLine.Tiles

theorem ListingLine.width_of_ofToken? {script : Script} {signatures : Signatures} {token : Token}
    {line : ListingLine} (h : ofToken? script signatures token = some line) :
    line.width = token.breadth := by
  cases token with
  | operand => cases h
  | instruction | data | entrypoint | table =>
    cases h
    rfl

namespace Script

/-- The line of the token that begins at a slot. -/
def lineAt? (script : Script) (signatures : Signatures) (index : Nat) : Option ListingLine :=
  (script.startAt? index).bind (ListingLine.ofToken? script signatures)

theorem listingLines_eq (script : Script) (signatures : Signatures) :
    script.listingLines signatures =
      (List.range' 0 script.wordCount).filterMap (script.lineAt? signatures) := by
  rw [listingLines, entries_eq, List.filterMap_filterMap]
  rfl

namespace Layout

variable {buffer : Buffer} {script : Script} {signatures : Signatures}

/-- Inside of a block there are operands only, and they have no line. -/
theorem lineAt?_inside {start first index : Nat} {token : Token} (h : script.Layout buffer)
    (hbegins : script.Begins start first token) (hlower : start < index)
    (hupper : index < start + token.breadth) : script.lineAt? signatures index = none := by
  rw [lineAt?]
  cases hother : script.startAt? index with
  | none => rfl
  | some other =>
    have hkind := h.isOperand_inside hbegins hlower hupper hother
    cases other with
    | operand => rfl
    | instruction | data | entrypoint | table => exact absurd hkind id

/-- A block has one line, that of the token at its head. -/
theorem filterMap_lineAt?_block {start first : Nat} {token : Token} {line : ListingLine}
    (h : script.Layout buffer) (hbegins : script.Begins start first token)
    (hline : ListingLine.ofToken? script signatures token = some line) :
    (List.range' start token.breadth).filterMap (script.lineAt? signatures) = [line] := by
  have hpos := token.breadth_pos hbegins.2.2
  obtain ⟨more, hmore⟩ := Nat.exists_eq_succ_of_ne_zero (Nat.ne_of_gt hpos)
  have hfirst : script.lineAt? signatures start = some line := by
    rw [lineAt?, h.startAt?_of_begins hbegins]
    exact hline
  have hrest : (List.range' (start + 1) more).filterMap (script.lineAt? signatures) = [] := by
    rw [List.filterMap_eq_nil_iff]
    intro index hindex
    rw [List.mem_range'_1] at hindex
    exact h.lineAt?_inside hbegins (by omega) (by omega)
  rw [hmore, List.range'_succ, List.filterMap_cons_some hfirst, hrest]

/-- From the beginning of a block on, the lines stand for all the words. -/
theorem tiles_lineAt? {start count : Nat} (h : script.Layout buffer)
    (hfaithful : script.Faithful buffer)
    (hcomplete : ∀ index < script.wordCount, script.isClaimed index = true)
    (hcount : start + count = script.wordCount)
    (hstart : ∀ {id : Nat} {token : Token}, script.owner? start = some id →
      script.tokens[id]? = some token → script.Begins start id token) :
    ListingLine.Tiles start
      ((List.range' start count).filterMap (script.lineAt? signatures)) (start + count) := by
  refine h.blocks_induction (motive := fun start count => ListingLine.Tiles start
    ((List.range' start count).filterMap (script.lineAt? signatures)) (start + count))
    hfaithful hcomplete hcount hstart (fun start => .nil start) ?_
  intro start count first token hbegins hrest
  obtain ⟨line, hline⟩ := ListingLine.exists_ofToken? script signatures hbegins.2.2
  have hbreadth := token.breadth_pos hbegins.2.2
  have hoffset := (ListingLine.offset_of_ofToken? hline).1
  rw [← List.range'_append_1, List.filterMap_append, h.filterMap_lineAt?_block hbegins hline,
    List.singleton_append]
  rw [Nat.add_assoc] at hrest
  rw [← ListingLine.width_of_ofToken? hline] at hbreadth hrest ⊢
  exact .cons (hoffset.trans (h.offset_of_begins hbegins)) hbreadth hrest

end Layout

end Script

theorem tiles_of_disassemble {bytes : List UInt8} {known : Signatures} {script : Script}
    (h : disassemble bytes known = .ok script) (signatures : Signatures) :
    ListingLine.Tiles 0 (script.listingLines signatures) (bytes.length / 4) := by
  obtain ⟨hlayout, hcomplete⟩ := Script.Layout.disassembled h
  have hfaithful := faithful_of_disassemble h
  have hcount : script.wordCount = bytes.length / 4 := by
    rw [hlayout.wordCount_eq, wordCount_ofBytes]
  have htiles : ListingLine.Tiles 0 (script.listingLines signatures) (0 + script.wordCount) := by
    rw [Script.listingLines_eq]
    exact hlayout.tiles_lineAt? hfaithful hcomplete (Nat.zero_add _)
      (hlayout.begins_first hfaithful)
  rwa [Nat.zero_add, hcount] at htiles

/-- A script is listed with the words of another buffer if that has enough of them. The listing
without words is one text for all buffers. -/
structure Script.Lists (script : Script) (signatures : Signatures) (count : Nat) : Prop where
  plain : ∃ text, ∀ other, script.listing other signatures false = .ok text
  dumped : ∀ other : List UInt8,
    (∃ text, script.listing (.ofBytes other) signatures true = .ok text) ↔ count ≤ other.length / 4
  beyond : ∀ other : List UInt8, other.length / 4 < count →
    script.listing (.ofBytes other) signatures true =
      .error (.outOfBounds (4 * (other.length / 4)) (4 * (other.length / 4)))

theorem lists_of_disassemble {bytes : List UInt8} {known : Signatures} {script : Script}
    (h : disassemble bytes known = .ok script) (signatures : Signatures) :
    script.Lists signatures (bytes.length / 4) := by
  have htiles := tiles_of_disassemble h signatures
  have hbeyond : ∀ other : List UInt8, other.length / 4 < bytes.length / 4 →
      script.listing (.ofBytes other) signatures true =
        .error (.outOfBounds (4 * (other.length / 4)) (4 * (other.length / 4))) := by
    intro other hlt
    rw [← wordCount_ofBytes other] at hlt
    rw [Script.listing, htiles.mapM_render_beyond (Nat.zero_le _) hlt, ← wordCount_ofBytes other]
    rfl
  constructor
  case plain =>
    refine ⟨String.join ((script.listingLines signatures).map fun line => line.text none), ?_⟩
    intro other
    have hplain : ∀ line ∈ script.listingLines signatures,
        line.render other false = .ok (line.text none) := fun line _ => rfl
    rw [Script.listing, mapM_eq_ok hplain]
    rfl
  case dumped =>
    intro other
    constructor
    · rintro ⟨text, htext⟩
      by_contra hlt
      rw [hbeyond other (by omega)] at htext
      cases htext
    · intro hle
      rw [← wordCount_ofBytes other] at hle
      exact ⟨_, Script.listing_eq_printed true (htiles.exists_words hle)⟩
  case beyond => exact hbeyond

/-- With two of the five words the operand of the call in the second line is missing. -/
theorem lists_of_calledSubroutine :
    ∃ script, disassemble calledSubroutine .empty = .ok script ∧ script.Lists .empty 5 ∧
      script.listing (.ofBytes (calledSubroutine.take 11)) .empty true =
        .error (.outOfBounds 8 8) := by
  have hcount : (disassemble calledSubroutine .empty).toOption.map Script.wordCount = some 5 := by
    cbv
  obtain ⟨script, h, -⟩ := exists_disassemble hcount
  have hlists := lists_of_disassemble h .empty
  exact ⟨script, h, hlists, hlists.beyond (calledSubroutine.take 11) (by decide)⟩

end ScriptDisassembler
