import ScriptDisassembler.Buffer

/-!
A read head over a buffer. Positions are 64-bit numbers and their arithmetic is checked: what has
a number of bytes or a position that is too large for them fails, and no value stands in for it.
`header` stays at the start of an instruction while `current` walks through its words. The
secondary byte is latched by the last successful reading of an operand code.
-/

namespace ScriptDisassembler

inductive PositionFault where
  /-- 64 bits do not hold the number of bytes, or the position behind them. -/
  | overflow
deriving DecidableEq, Repr

structure Cursor where
  buffer : Buffer
  header : UInt64
  current : UInt64
  secondary : Nat
deriving DecidableEq

namespace Cursor

def start (buffer : Buffer) : Cursor :=
  ⟨buffer, 0, 0, 0⟩

def wordAt (cursor : Cursor) (offset : UInt64) : Except ReadFault Word :=
  cursor.buffer.wordAt offset.toNat

def currentWord (cursor : Cursor) : Except ReadFault Word :=
  cursor.wordAt cursor.current

def hasMore (cursor : Cursor) : Bool :=
  cursor.current.toNat < cursor.buffer.length

/-- The number of bytes of so many words. -/
def bytesOf (words : UInt64) : Except PositionFault UInt64 :=
  if 4 * words.toNat < UInt64.size then .ok (words * 4) else .error .overflow

/-- Whether so many words are left. An end that is no position is outside the buffer, but only a
number of bytes can be added to where the head is. -/
def hasWords (cursor : Cursor) (words : UInt64) : Except PositionFault Bool :=
  (bytesOf words).map fun count =>
    let stop := cursor.current.toNat + count.toNat
    stop < UInt64.size && stop ≤ cursor.buffer.length

def advance (cursor : Cursor) (words : UInt64) : Except PositionFault Cursor :=
  match bytesOf words with
  | .error fault => .error fault
  | .ok count =>
    if cursor.current.toNat + count.toNat < UInt64.size then
      .ok { cursor with current := cursor.current + count }
    else
      .error .overflow

/-- Begins a new instruction where the head is. -/
def step (cursor : Cursor) : Cursor :=
  { cursor with header := cursor.current }

def jump (cursor : Cursor) (offset : UInt64) : Cursor :=
  { cursor with header := offset, current := offset }

/-- Reads the code in the top byte of the current word and latches the byte below it. -/
def operandCode (cursor : Cursor) : Except ReadFault (Nat × Cursor) := do
  let word ← cursor.currentWord
  return (word.field 24 8, { cursor with secondary := word.field 16 8 })

def wordOffset? (cursor : Cursor) (address : Int) : Option Nat :=
  cursor.buffer.wordOffset? address

end Cursor

end ScriptDisassembler
