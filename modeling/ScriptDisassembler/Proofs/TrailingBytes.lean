import Mathlib
import ScriptDisassembler.Output
import ScriptDisassembler.Proofs.Partition

/-!
Bytes after the last whole word. A word is made of the four bytes at its offset, and it is read
only if the offset is below the length of the whole words; so a tail shorter than a word is
never read. What can be read of a buffer is all that there is of it. So two disassemblies that
differ in such a tail only are the same but for the report of the tail, and so are the listings.
-/

namespace ScriptDisassembler

/-- The length of the bytes up to the end of the last whole word. -/
def wholeLength (bytes : List UInt8) : Nat :=
  bytes.length - bytes.length % 4

/-- The four bytes at an offset as a word, if the offset is one of the whole words. -/
def readWord (bytes : List UInt8) (offset : Nat) : Except ReadFault Word :=
  if offset % 4 ≠ 0 then
    .error (.misaligned offset)
  else if offset < wholeLength bytes then
    .ok (Word.ofBytes (bytes.getD offset 0) (bytes.getD (offset + 1) 0)
      (bytes.getD (offset + 2) 0) (bytes.getD (offset + 3) 0))
  else
    .error (.outOfBounds offset (wholeLength bytes))

namespace Buffer

theorem length_ofBytes (bytes : List UInt8) : (ofBytes bytes).length = wholeLength bytes := by
  have hcount := wordCount_ofBytes bytes
  unfold length wholeLength
  omega

theorem getElem?_wordsOf (bytes : List UInt8) (index : Nat) :
    (wordsOf bytes)[index]? =
      if 4 * index + 4 ≤ bytes.length then
        some (Word.ofBytes (bytes.getD (4 * index) 0) (bytes.getD (4 * index + 1) 0)
          (bytes.getD (4 * index + 2) 0) (bytes.getD (4 * index + 3) 0))
      else
        none := by
  fun_induction wordsOf bytes generalizing index with
  | case1 b₀ b₁ b₂ b₃ rest ih =>
    cases index with
    | zero => simp
    | succ index =>
      have hshift : 4 * (index + 1) = 4 * index + 1 + 1 + 1 + 1 := by omega
      simp only [List.getElem?_cons_succ, ih, hshift, List.length_cons, List.getD_cons_succ,
        Nat.add_le_add_iff_right]
  | case2 bytes hshort =>
    have hlength := length_wordsOf bytes
    rw [wordsOf.eq_2 bytes hshort, List.length_nil] at hlength
    rw [List.getElem?_nil, if_neg (by omega)]

/-- Reading a word of a buffer is reading four of its bytes. -/
theorem wordAt_ofBytes (bytes : List UInt8) (offset : Nat) :
    (ofBytes bytes).wordAt offset = readWord bytes offset := by
  unfold wordAt readWord
  by_cases haligned : offset % 4 = 0
  · have hoffset : 4 * (offset / 4) = offset := by omega
    have hword := getElem?_wordsOf bytes (offset / 4)
    rw [hoffset] at hword
    rw [if_neg (not_not.mpr haligned), if_neg (not_not.mpr haligned), length_ofBytes, ofBytes,
      List.getElem?_toArray, hword]
    by_cases hinside : offset < wholeLength bytes
    · have hfits : offset + 4 ≤ bytes.length := by
        unfold wholeLength at hinside
        omega
      rw [if_pos hfits, if_pos hinside]
    · have hbeyond : ¬ offset + 4 ≤ bytes.length := by
        unfold wholeLength at hinside
        omega
      rw [if_neg hbeyond, if_neg hinside]
  · rw [if_pos haligned, if_pos haligned]

/-- A buffer is known by its length and its words. -/
theorem ext_wordAt {first second : Buffer} (hlength : first.length = second.length)
    (hword : ∀ offset, first.wordAt offset = second.wordAt offset) : first = second := by
  have hcount : first.words.size = second.words.size := by
    unfold length wordCount at hlength
    omega
  have hwords : first.words = second.words := by
    apply Array.ext hcount
    intro index hfirst hsecond
    have hread := hword (4 * index)
    rw [first.wordAt_mul_four hfirst, second.wordAt_mul_four hsecond] at hread
    exact Except.ok.inj hread
  cases first
  cases second
  exact congrArg Buffer.mk hwords

end Buffer

section

variable {bytes tail : List UInt8}

theorem wholeLength_append (hwhole : bytes.length % 4 = 0) (htail : tail.length < 4) :
    wholeLength (bytes ++ tail) = wholeLength bytes := by
  unfold wholeLength
  rw [List.length_append]
  omega

/-- No byte of the tail is read. -/
theorem readWord_append (hwhole : bytes.length % 4 = 0) (htail : tail.length < 4) (offset : Nat) :
    readWord (bytes ++ tail) offset = readWord bytes offset := by
  unfold readWord
  rw [wholeLength_append hwhole htail]
  by_cases haligned : offset % 4 = 0
  · by_cases hinside : offset < wholeLength bytes
    · have hbyte : ∀ n < 4, (bytes ++ tail).getD (offset + n) 0 = bytes.getD (offset + n) 0 := by
        intro n hn
        have hlt : offset + n < bytes.length := by
          unfold wholeLength at hinside
          omega
        exact List.getD_append bytes tail 0 (offset + n) hlt
      have hfirst := hbyte 0 (by omega)
      rw [Nat.add_zero] at hfirst
      rw [hfirst, hbyte 1 (by omega), hbyte 2 (by omega), hbyte 3 (by omega)]
    · rw [if_neg hinside, if_neg hinside]
  · rw [if_pos haligned, if_pos haligned]

theorem Buffer.ofBytes_append (hwhole : bytes.length % 4 = 0) (htail : tail.length < 4) :
    Buffer.ofBytes (bytes ++ tail) = Buffer.ofBytes bytes := by
  apply Buffer.ext_wordAt
  · rw [Buffer.length_ofBytes, Buffer.length_ofBytes, wholeLength_append hwhole htail]
  · intro offset
    rw [Buffer.wordAt_ofBytes, Buffer.wordAt_ofBytes, readWord_append hwhole htail]

end

/-- A tail after some bytes is reported, and has no other effect. -/
structure TailIgnored (bytes tail : List UInt8) (signatures : Signatures) : Prop where
  /-- The script is the same, or the fault. -/
  result : disassemble (bytes ++ tail) signatures = disassemble bytes signatures
  /-- There is one report more, before all others. -/
  log : (trace (bytes ++ tail) signatures).log =
    #[.trailingBytes tail.length] ++ (trace bytes signatures).log
  level : (Event.trailingBytes tail.length).level = .warn
  message : (Event.trailingBytes tail.length).message =
    "Ignoring " ++ toString tail.length ++ " trailing bytes after the last whole word"
  /-- Any script has the same listing with the words of either. -/
  listing : ∀ (script : Script) (hexDump : Bool),
    script.listing (.ofBytes (bytes ++ tail)) signatures hexDump =
      script.listing (.ofBytes bytes) signatures hexDump
  output : ∀ options : OutputOptions,
    disassembleTo options (bytes ++ tail) signatures = disassembleTo options bytes signatures

theorem tail_ignored {bytes tail : List UInt8} (hwhole : bytes.length % 4 = 0)
    (hsome : 1 ≤ tail.length) (hfew : tail.length ≤ 3) (signatures : Signatures) :
    TailIgnored bytes tail signatures := by
  have hbuffer := Buffer.ofBytes_append hwhole (by omega : tail.length < 4)
  have hreport : trailingReport bytes = #[] := by rw [trailingReport, if_pos hwhole]
  have htailReport : trailingReport (bytes ++ tail) = #[.trailingBytes tail.length] := by
    have hcount : (bytes ++ tail).length % 4 = tail.length := by
      rw [List.length_append]
      omega
    have hne : ¬ (bytes ++ tail).length % 4 = 0 := by omega
    rw [trailingReport, if_neg hne, hcount]
  have hresult : disassemble (bytes ++ tail) signatures = disassemble bytes signatures := by
    simp only [disassemble, trace, hbuffer]
  constructor
  case result => exact hresult
  case log => simp only [trace, hbuffer, hreport, htailReport, Array.empty_append]
  case level => rfl
  case message => rfl
  case listing =>
    intro script hexDump
    rw [hbuffer]
  case output =>
    intro options
    simp only [disassembleTo, hresult, hbuffer]

/-- The operand of the last instruction is missing. -/
def cutShort : List UInt8 :=
  [4, 0, 0, 0, 2, 1, 0, 0]

/-- Three more bytes are no operand either. -/
theorem tail_ignored_of_cutShort :
    cutShort.length % 4 = 0 ∧ TailIgnored cutShort [0, 0, 0] .empty ∧
      (trace (cutShort ++ [0, 0, 0]) .empty).log =
        #[.trailingBytes 3, .entrypointsFound 1, .probing 4,
          .undecodable 4 (.truncated .wait 0), .complete 1 1 0 0 0] := by
  refine ⟨rfl, tail_ignored rfl (by decide) (by decide) .empty, ?_⟩
  cbv

end ScriptDisassembler
