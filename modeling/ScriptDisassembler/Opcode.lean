/-!
The instruction set: every instruction has a name, a code byte and named operands, and
belongs to a class that says where control goes after it.
-/

namespace ScriptDisassembler

inductive Opcode where
  | yield | rewind | wait | waitCmp | waitCmp0
  | mov | swapBroken | memcpy | mov0
  | and | or | xor | andor | not | shl | shr
  | add | sub | subRev | incr | decr | neg | abs
  | mul | div | divRev | mod | modRev
  | mul12 | div12 | div12Rev | mod43 | modRev44
  | sqrt | rand | sin12 | cos12 | atan2
  | call
  | jmp | jmpCmp | jmpCmp0 | loop | jmpTable
  | gosub | ret | gosubTable
  | deallocate | deallocate82
  | fork | forkReenter | consume | debug60
deriving DecidableEq, Repr

/-- What the instruction set says about one instruction. -/
structure OpcodeEntry where
  name : String
  code : Nat
  operands : List String

/-- Where control may go after an instruction, as far as a linear scan is concerned. -/
inductive Flow where
  /-- The call signature says which arguments are branch targets. -/
  | call
  /-- Always to the first operand. -/
  | jump
  /-- To the last operand, or on to the next instruction. -/
  | conditional
  /-- To an entry of the relative table that the second operand addresses. -/
  | jumpTable
  /-- To the first operand and back. -/
  | gosub
  /-- To an entry of the relative table that the second operand addresses, and back. -/
  | gosubTable
  /-- On, while another thread starts at the first operand. -/
  | fork
  /-- On, while another thread starts at one of the entrypoints. -/
  | forkReenter
  /-- Nowhere. -/
  | terminal
  /-- On to the next instruction. -/
  | plain
deriving DecidableEq, Repr

namespace Opcode

def entry : Opcode → OpcodeEntry
  | yield => ⟨"yield", 0x00, []⟩
  | rewind => ⟨"rewind", 0x01, []⟩
  | wait => ⟨"wait", 0x02, ["frames"]⟩
  | waitCmp => ⟨"wait_cmp", 0x03, ["operator", "left", "right"]⟩
  | waitCmp0 => ⟨"wait_cmp_0", 0x04, ["operator", "right"]⟩
  | mov => ⟨"mov", 0x08, ["source", "dest"]⟩
  | swapBroken => ⟨"swap_broken", 0x09, ["source", "dest"]⟩
  | memcpy => ⟨"memcpy", 0x0a, ["size", "src", "dest"]⟩
  | mov0 => ⟨"mov_0", 0x0c, ["dest"]⟩
  | and => ⟨"and", 0x10, ["right", "left"]⟩
  | or => ⟨"or", 0x11, ["right", "left"]⟩
  | xor => ⟨"xor", 0x12, ["right", "left"]⟩
  | andor => ⟨"andor", 0x13, ["and", "or", "operand"]⟩
  | not => ⟨"not", 0x14, ["operand"]⟩
  | shl => ⟨"shl", 0x15, ["right", "left"]⟩
  | shr => ⟨"shr", 0x16, ["right", "left"]⟩
  | add => ⟨"add", 0x18, ["amount", "operand"]⟩
  | sub => ⟨"sub", 0x19, ["amount", "operand"]⟩
  | subRev => ⟨"sub_rev", 0x1a, ["amount", "operand"]⟩
  | incr => ⟨"incr", 0x1b, ["operand"]⟩
  | decr => ⟨"decr", 0x1c, ["operand"]⟩
  | neg => ⟨"neg", 0x1d, ["operand"]⟩
  | abs => ⟨"abs", 0x1e, ["operand"]⟩
  | mul => ⟨"mul", 0x20, ["amount", "operand"]⟩
  | div => ⟨"div", 0x21, ["amount", "operand"]⟩
  | divRev => ⟨"div_rev", 0x22, ["amount", "operand"]⟩
  | mod => ⟨"mod", 0x23, ["amount", "operand"]⟩
  | modRev => ⟨"mod_rev", 0x24, ["amount", "operand"]⟩
  | mul12 => ⟨"mul_12", 0x28, ["amount", "operand"]⟩
  | div12 => ⟨"div_12", 0x29, ["amount", "operand"]⟩
  | div12Rev => ⟨"div_12_rev", 0x2a, ["amount", "operand"]⟩
  | mod43 => ⟨"mod43", 0x2b, ["amount", "operand"]⟩
  | modRev44 => ⟨"mod_rev44", 0x2c, ["amount", "operand"]⟩
  | sqrt => ⟨"sqrt", 0x30, ["value", "dest"]⟩
  | rand => ⟨"rand", 0x31, ["max", "dest"]⟩
  | sin12 => ⟨"sin_12", 0x32, ["angle", "dest"]⟩
  | cos12 => ⟨"cos_12", 0x33, ["angle", "dest"]⟩
  | atan2 => ⟨"atan2_12", 0x34, ["sin", "cos", "dest"]⟩
  | call => ⟨"call", 0x38, []⟩
  | jmp => ⟨"jmp", 0x40, ["addr"]⟩
  | jmpCmp => ⟨"jmp_cmp", 0x41, ["operator", "left", "right", "addr"]⟩
  | jmpCmp0 => ⟨"jmp_cmp_0", 0x42, ["operator", "right", "addr"]⟩
  | loop => ⟨"while", 0x43, ["counter", "addr"]⟩
  | jmpTable => ⟨"jmp_table", 0x44, ["index", "table"]⟩
  | gosub => ⟨"gosub", 0x48, ["addr"]⟩
  | ret => ⟨"return", 0x49, []⟩
  | gosubTable => ⟨"gosub_table", 0x4a, ["index", "table"]⟩
  | deallocate => ⟨"deallocate", 0x50, []⟩
  | deallocate82 => ⟨"deallocate82", 0x52, ["index"]⟩
  | fork => ⟨"fork", 0x56, ["addr", "index", "p2"]⟩
  | forkReenter => ⟨"fork_reenter", 0x57, ["index", "entrypoint", "p2"]⟩
  | consume => ⟨"consume", 0x58, []⟩
  | debug60 => ⟨"debug60", 0x60, ["value"]⟩

/-- Every instruction, in the order of the codes. -/
def all : List Opcode :=
  [yield, rewind, wait, waitCmp, waitCmp0,
   mov, swapBroken, memcpy, mov0,
   and, or, xor, andor, not, shl, shr,
   add, sub, subRev, incr, decr, neg, abs,
   mul, div, divRev, mod, modRev,
   mul12, div12, div12Rev, mod43, modRev44,
   sqrt, rand, sin12, cos12, atan2,
   call,
   jmp, jmpCmp, jmpCmp0, loop, jmpTable,
   gosub, ret, gosubTable,
   deallocate, deallocate82,
   fork, forkReenter, consume, debug60]

def name (opcode : Opcode) : String :=
  opcode.entry.name

def code (opcode : Opcode) : Nat :=
  opcode.entry.code

def operands (opcode : Opcode) : List String :=
  opcode.entry.operands

/-- The identifier of an instruction is its name in upper case. -/
def id (opcode : Opcode) : String :=
  opcode.name.toUpper

def ofCode? (code : Nat) : Option Opcode :=
  all.find? fun opcode => opcode.code == code

def ofId? (id : String) : Option Opcode :=
  all.find? fun opcode => opcode.id == id

def flow : Opcode → Flow
  | call => .call
  | jmp => .jump
  | jmpCmp | jmpCmp0 => .conditional
  | jmpTable => .jumpTable
  | gosub => .gosub
  | gosubTable => .gosubTable
  | fork => .fork
  | forkReenter => .forkReenter
  | rewind | ret | deallocate | deallocate82 | consume => .terminal
  | _ => .plain

theorem mem_all (opcode : Opcode) : opcode ∈ all := by
  cases opcode <;> decide

theorem ofCode?_code (opcode : Opcode) : ofCode? opcode.code = some opcode := by
  cases opcode <;> decide

theorem code_eq_of_ofCode? {code : Nat} {opcode : Opcode} (h : ofCode? code = some opcode) :
    opcode.code = code := by
  simpa using List.find?_some h

theorem code_lt (opcode : Opcode) : opcode.code < 256 := by
  cases opcode <;> decide

end Opcode

end ScriptDisassembler
