/-!
Call signatures. A call instruction names a method by its index in the table, and the
signature says how many arguments the method takes and which of them are code addresses.
-/

namespace ScriptDisassembler

/-- What a method does with an argument, as far as control is concerned. -/
inductive BranchRole where
  | none
  /-- The argument is the address of a subroutine. -/
  | gosub
  /-- The argument is the address at which a thread is resumed. -/
  | reentry
deriving DecidableEq, Repr

structure UnknownRole where
  text : String
deriving DecidableEq

namespace UnknownRole

def message (unknown : UnknownRole) : String :=
  "unknown branch role: " ++ unknown.text

end UnknownRole

namespace BranchRole

def all : List BranchRole :=
  [.none, .gosub, .reentry]

def name : BranchRole → String
  | .none => "none"
  | .gosub => "gosub"
  | .reentry => "reentry"

/-- The names of the roles are read without regard to the case of ASCII letters. -/
def ofString (text : String) : Except UnknownRole BranchRole :=
  match all.find? fun role => role.name == text.toLower with
  | some role => .ok role
  | Option.none => .error ⟨text⟩

end BranchRole

structure Parameter where
  name : String
  type : String
  role : BranchRole
deriving DecidableEq

structure Method where
  name : String
  parameters : List Parameter
deriving DecidableEq

structure Signatures where
  methods : List Method
deriving DecidableEq

namespace Signatures

def empty : Signatures :=
  ⟨[]⟩

def method? (signatures : Signatures) (index : Nat) : Option Method :=
  signatures.methods[index]?

end Signatures

end ScriptDisassembler
