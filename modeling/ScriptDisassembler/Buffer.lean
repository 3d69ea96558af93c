/-!
A compiled script is a sequence of 32-bit little-endian words. Bytes after the last whole
word are no part of it. Offsets are counted in bytes, and a word can only be read at a
multiple of four.
-/

namespace ScriptDisassembler

abbrev Word := UInt32

namespace Word

def ofBytes (b₀ b₁ b₂ b₃ : UInt8) : Word :=
  UInt32.ofNat (b₀.toNat + 256 * (b₁.toNat + 256 * (b₂.toNat + 256 * b₃.toNat)))

/-- The number held by `width` bits of a word, the lowest of which is bit `low`. -/
def field (word : Word) (low width : Nat) : Nat :=
  word.toNat >>> low % (1 <<< width)

/-- The word as a signed number. -/
def signed (word : Word) : Int32 :=
  word.toInt32

/-- The lower half of the word as a signed number. -/
def signedLow (word : Word) : Int32 :=
  word.toUInt16.toInt16.toInt32

end Word

structure Buffer where
  words : Array Word
deriving DecidableEq

inductive ReadFault where
  | misaligned (offset : Nat)
  | outOfBounds (offset length : Nat)
deriving DecidableEq, Repr

namespace Buffer

/-- The whole words at the front of a sequence of bytes. -/
def wordsOf : List UInt8 → List Word
  | b₀ :: b₁ :: b₂ :: b₃ :: rest => Word.ofBytes b₀ b₁ b₂ b₃ :: wordsOf rest
  | _ => []

def ofBytes (bytes : List UInt8) : Buffer :=
  ⟨(wordsOf bytes).toArray⟩

def wordCount (buffer : Buffer) : Nat :=
  buffer.words.size

/-- The length of the whole words, in bytes. -/
def length (buffer : Buffer) : Nat :=
  4 * buffer.wordCount

/-- An offset between two words is refused before its size is looked at. -/
def wordAt (buffer : Buffer) (offset : Nat) : Except ReadFault Word :=
  if offset % 4 ≠ 0 then
    .error (.misaligned offset)
  else
    match buffer.words[offset / 4]? with
    | some word => .ok word
    | none => .error (.outOfBounds offset buffer.length)

/-- A computed address is the offset of a word if it is aligned and inside the buffer. -/
def wordOffset? (buffer : Buffer) (address : Int) : Option Nat :=
  if 0 ≤ address ∧ address % 4 = 0 ∧ address < buffer.length then
    some address.toNat
  else
    none

theorem wordAt_mul_four (buffer : Buffer) {index : Nat} (h : index < buffer.wordCount) :
    buffer.wordAt (4 * index) = .ok buffer.words[index] := by
  have hmod : 4 * index % 4 = 0 := by omega
  have hdiv : 4 * index / 4 = index := by omega
  simp only [wordAt, hmod, hdiv, ne_eq, not_true_eq_false, ↓reduceIte,
    Array.getElem?_eq_getElem h]

theorem wordOffset?_eq_some {buffer : Buffer} {address : Int} {offset : Nat} :
    buffer.wordOffset? address = some offset ↔
      (offset : Int) = address ∧ offset % 4 = 0 ∧ offset < buffer.length := by
  simp only [wordOffset?]
  split <;> simp only [Option.some.injEq, reduceCtorEq, false_iff] <;> omega

end Buffer

end ScriptDisassembler
