import ScriptDisassembler.Token

/-!
Reading an instruction out of a buffer. The low byte of its first word is the code, the
next byte the number of operands and the upper half an immediate; the operands follow,
each with its code in the top byte of its first word. Nothing is read that the decoder has
not first found to be inside the buffer.
-/

namespace ScriptDisassembler

/-- The first word of an instruction, taken apart. -/
structure Header where
  opcode : Opcode
  arity : Nat
  immediate : UInt16
deriving DecidableEq

/-- Why the words at an offset are no instruction. -/
inductive Undecodable where
  | unknownHeader (word : Word)
  /-- The buffer ends inside an operand, which is given by its place. -/
  | truncated (opcode : Opcode) (place : Nat)
  | unknownEncoding (opcode : Opcode) (code : Nat)
deriving DecidableEq

inductive DecodeFault where
  | read (fault : ReadFault)
  | undecodable (reason : Undecodable)
deriving DecidableEq

namespace Header

/-- The number of operands must be the one that the instruction set gives, except for a
call, whose arguments are those of the method. -/
def ofWord? (word : Word) : Option Header :=
  match Opcode.ofCode? (word.field 0 8) with
  | none => none
  | some opcode =>
    if opcode = .call ∨ opcode.operands.length = word.field 8 8 then
      some ⟨opcode, word.field 8 8, UInt16.ofNat (word.field 16 16)⟩
    else
      none

end Header

namespace Buffer

/-- A computed address at which an instruction may begin: it is the offset of a word, and
the word is the first of an instruction. -/
def headerOffset? (buffer : Buffer) (address : Int) : Option Nat :=
  match buffer.wordOffset? address with
  | none => none
  | some offset =>
    match buffer.wordAt offset with
    | .error _ => none
    | .ok word => if (Header.ofWord? word).isSome then some offset else none

/-- A run of words. -/
def wordsAt (buffer : Buffer) (offset : Nat) : Nat → Except ReadFault (List Word)
  | 0 => .ok []
  | count + 1 =>
    match buffer.wordAt offset with
    | .error fault => .error fault
    | .ok word =>
      match buffer.wordsAt (offset + 4) count with
      | .error fault => .error fault
      | .ok rest => .ok (word :: rest)

/-- The value of an operand that begins at `offset` in an instruction that begins at
`header`. An inline operand counts words from the instruction. Its sums are taken modulo 2³²,
as by a build that does not check them for overflow; a build that does ends the run at a sum
of more than 32 bits. Up to a length of 2³¹ - 132088 bytes there is no such sum. -/
def resolve (buffer : Buffer) (header offset secondary : Nat) (encoding : Encoding) :
    Except ReadFault (Option Int32) :=
  match encoding with
  | .immediate => (buffer.wordAt offset).map fun word => some word.signed
  | .nextImmediate => (buffer.wordAt (offset + 4)).map fun word => some word.signed
  | .inline1 | .inline2 | .inline3 =>
    (buffer.wordAt offset).map fun word =>
      some (Int32.ofNat header + word.signedLow * 4)
  | .inline4 | .inline6 | .inline7 => .ok (some (Int32.ofNat header + 4))
  | .inline5 =>
    (buffer.wordAt offset).map fun word =>
      some (Int32.ofNat header + (word.signedLow + Int32.ofNat secondary) * 4)
  | _ => .ok none

end Buffer

/-- Reads the operand that begins at `offset`, the `place`-th of an instruction that begins
at `header`. -/
def decodeOperand (buffer : Buffer) (opcode : Opcode) (header place offset : Nat) :
    Except DecodeFault Operand :=
  if buffer.length ≤ offset then
    .error (.undecodable (.truncated opcode place))
  else
    match buffer.wordAt offset with
    | .error fault => .error (.read fault)
    | .ok word =>
      match Encoding.ofCode? (word.field 24 8) with
      | none => .error (.undecodable (.unknownEncoding opcode (word.field 24 8)))
      | some encoding =>
        if buffer.length < offset + 4 * encoding.width then
          .error (.undecodable (.truncated opcode place))
        else
          match buffer.wordsAt offset encoding.width,
              buffer.resolve header offset (word.field 16 8) encoding with
          | .error fault, _ => .error (.read fault)
          | .ok _, .error fault => .error (.read fault)
          | .ok raw, .ok resolved => .ok ⟨offset, encoding, raw, resolved, none⟩

/-- Reads so many operands one after the other. -/
def decodeOperands (buffer : Buffer) (opcode : Opcode) (header : Nat) :
    (count place offset : Nat) → Except DecodeFault (List Operand)
  | 0, _, _ => .ok []
  | count + 1, place, offset =>
    match decodeOperand buffer opcode header place offset with
    | .error fault => .error fault
    | .ok operand =>
      match decodeOperands buffer opcode header count (place + 1)
          (offset + 4 * operand.width) with
      | .error fault => .error fault
      | .ok rest => .ok (operand :: rest)

/-- Reads the instruction that begins at `offset`. -/
def decode (buffer : Buffer) (offset : Nat) : Except DecodeFault Instruction :=
  match buffer.wordAt offset with
  | .error fault => .error (.read fault)
  | .ok word =>
    match Header.ofWord? word with
    | none => .error (.undecodable (.unknownHeader word))
    | some header =>
      match decodeOperands buffer header.opcode offset header.arity 0 (offset + 4) with
      | .error fault => .error fault
      | .ok operands => .ok ⟨offset, header.opcode, header.immediate, operands⟩

end ScriptDisassembler
