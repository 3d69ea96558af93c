import ScriptDisassembler.Cursor
import ScriptDisassembler.Proofs.Reads

/-!
How many words are left before a read head, wherever it has been moved. The test for words is exact
as long as 64 bits hold the number of their bytes, also where the end of the words is no position any
more; what is granted to an aligned head can be read. From 2⁶² words on the number of bytes is too
large, and the test gives no answer, although so many words are never there.
-/

namespace ScriptDisassembler

namespace Cursor

variable {head moved : Cursor} {words : UInt64}

/-- The least number of words whose bytes no position can count. -/
def wordLimit : Nat := 2 ^ 62

theorem toNat_mul_four (hwords : words.toNat < wordLimit) : (words * 4).toNat = 4 * words.toNat := by
  unfold wordLimit at hwords
  rw [UInt64.toNat_mul]
  simp only [UInt64.reduceToNat]
  omega

theorem bytesOf_eq (words : UInt64) :
    bytesOf words = if words.toNat < wordLimit then .ok (words * 4) else .error .overflow := by
  have hlimit : 4 * words.toNat < UInt64.size ↔ words.toNat < wordLimit := by
    unfold UInt64.size wordLimit
    omega
  simp only [bytesOf, hlimit]

theorem hasWords_of_lt (hlength : head.buffer.length < UInt64.size)
    (hwords : words.toNat < wordLimit) :
    head.hasWords words =
      .ok (decide (head.current.toNat + 4 * words.toNat ≤ head.buffer.length)) := by
  rw [hasWords, bytesOf_eq, if_pos hwords, Except.map, toNat_mul_four hwords]
  congr 1
  rw [Bool.eq_iff_iff, Bool.and_eq_true, decide_eq_true_eq, decide_eq_true_eq]
  exact ⟨fun hboth => hboth.2, fun hfits => ⟨Nat.lt_of_le_of_lt hfits hlength, hfits⟩⟩

theorem hasWords_of_le (hwords : wordLimit ≤ words.toNat) :
    head.hasWords words = .error .overflow := by
  rw [hasWords, bytesOf_eq, if_neg (Nat.not_lt.mpr hwords), Except.map]

/-- The head moves exactly if its new position is one. -/
theorem advance_eq (head : Cursor) (words : UInt64) :
    head.advance words =
      if head.current.toNat + 4 * words.toNat < UInt64.size then
        .ok { head with current := head.current + words * 4 }
      else .error .overflow := by
  rw [advance, bytesOf_eq]
  by_cases hwords : words.toNat < wordLimit
  · simp only [if_pos hwords, toNat_mul_four hwords]
  · have hbeyond : ¬ head.current.toNat + 4 * words.toNat < UInt64.size := by
      unfold wordLimit at hwords
      unfold UInt64.size
      omega
    simp only [if_neg hwords, if_neg hbeyond]

theorem advance_ok (h : head.advance words = .ok moved) :
    moved.buffer = head.buffer ∧ moved.header = head.header ∧
      moved.current.toNat = head.current.toNat + 4 * words.toNat := by
  rw [advance_eq] at h
  split at h
  · next hposition =>
    cases h
    refine ⟨rfl, rfl, ?_⟩
    unfold UInt64.size at hposition
    rw [UInt64.toNat_add, toNat_mul_four (by unfold wordLimit; omega)]
    omega
  · cases h

/-- The ways to move a head. -/
inductive Move where
  | jump (offset : UInt64)
  | advance (words : UInt64)
  | step
deriving DecidableEq

def move (head : Cursor) : Move → Except PositionFault Cursor
  | .jump offset => .ok (head.jump offset)
  | .advance words => head.advance words
  | .step => .ok head.step

theorem buffer_of_move {move : Move} (h : head.move move = .ok moved) :
    moved.buffer = head.buffer := by
  cases move with
  | jump | step =>
    cases h
    rfl
  | advance words => exact (advance_ok h).1

theorem buffer_of_moves {moves : List Move} (h : moves.foldlM move head = .ok moved) :
    moved.buffer = head.buffer := by
  induction moves generalizing head with
  | nil =>
    cases h
    rfl
  | cons first rest ih =>
    rw [List.foldlM_cons] at h
    cases hfirst : head.move first with
    | error fault =>
      rw [hfirst] at h
      cases h
    | ok between =>
      rw [hfirst] at h
      exact (ih h).trans (buffer_of_move hfirst)

/-- What the test for so many words is worth. -/
structure Measures (head : Cursor) (words : UInt64) : Prop where
  exact : words.toNat < wordLimit →
    head.hasWords words =
      .ok (decide (head.current.toNat + 4 * words.toNat ≤ head.buffer.length))
  readable : head.current.toNat % 4 = 0 → head.hasWords words = .ok true →
    ∀ place < words.toNat, ∃ offset : UInt64,
      offset.toNat = head.current.toNat + 4 * place ∧ ∃ word, head.wordAt offset = .ok word
  /-- So many words are never there, but the test does not come to say so. -/
  beyond : wordLimit ≤ words.toNat →
    head.buffer.length < head.current.toNat + 4 * words.toNat ∧
      head.hasWords words = .error .overflow

theorem measures (hlength : head.buffer.length < UInt64.size) : head.Measures words := by
  constructor
  case exact => exact hasWords_of_lt hlength
  case readable =>
    intro haligned hgranted place hplace
    have hwords : words.toNat < wordLimit := by
      refine Nat.lt_of_not_le fun hbeyond => ?_
      rw [hasWords_of_le hbeyond] at hgranted
      cases hgranted
    rw [hasWords_of_lt hlength hwords, Except.ok.injEq, decide_eq_true_eq] at hgranted
    have hoffset : (UInt64.ofNat (head.current.toNat + 4 * place)).toNat =
        head.current.toNat + 4 * place :=
      UInt64.toNat_ofNat_of_lt' (by omega)
    refine ⟨_, hoffset, ?_⟩
    rw [Cursor.wordAt, hoffset]
    apply exists_wordAt
    · omega
    · omega
  case beyond =>
    intro hwords
    refine ⟨?_, hasWords_of_le hwords⟩
    unfold UInt64.size at hlength
    unfold wordLimit at hwords
    omega

/-- The test is worth the same wherever the head has been moved in a buffer whose length is a
position. -/
theorem measures_of_moves {bytes : List UInt8} {moves : List Move}
    (hlength : (Buffer.ofBytes bytes).length < UInt64.size)
    (hmoves : moves.foldlM move (start (.ofBytes bytes)) = .ok head) (words : UInt64) :
    head.Measures words := by
  apply measures
  rw [buffer_of_moves hmoves]
  exact hlength

/-- A head before the last word of four, asked for that word and for so many words that 64 bits just
hold the number of their bytes. -/
theorem measures_of_moves_toLastWord :
    let moves := [Move.jump 18446744073709551612, .step, .jump 4, .advance 2]
    let head : Cursor := ⟨.ofBytes (List.replicate 17 0), 4, 12, 0⟩
    (Buffer.ofBytes (List.replicate 17 0)).length < UInt64.size ∧
      moves.foldlM move (start (.ofBytes (List.replicate 17 0))) = .ok head ∧
      head.hasWords 1 = .ok true ∧ head.hasWords 4611686018427387903 = .ok false ∧
      head.Measures 1 ∧ head.Measures 4611686018427387903 := by
  have hlength : (Buffer.ofBytes (List.replicate 17 0)).length < UInt64.size := by decide
  have hmoves : [Move.jump 18446744073709551612, .step, .jump 4, .advance 2].foldlM move
      (start (.ofBytes (List.replicate 17 0))) =
      .ok ⟨.ofBytes (List.replicate 17 0), 4, 12, 0⟩ := rfl
  exact ⟨hlength, hmoves, rfl, rfl, measures_of_moves hlength hmoves 1,
    measures_of_moves hlength hmoves 4611686018427387903⟩

/-- So many words are not in a buffer of one word, and no test says so. -/
theorem words_unanswered_beyond :
    (start (.ofBytes [0, 0, 0, 0])).hasWords 4611686018427387904 ≠
      .ok (decide ((start (.ofBytes [0, 0, 0, 0])).current.toNat +
        4 * (4611686018427387904 : UInt64).toNat ≤ (Buffer.ofBytes [0, 0, 0, 0]).length)) := by
  rw [hasWords_of_le (by decide)]
  exact nofun

end Cursor

end ScriptDisassembler
