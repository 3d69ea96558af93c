import ScriptDisassembler.Disassembly
import ScriptDisassembler.Document
import ScriptDisassembler.Listing

/-!
The two forms in which a disassembly is written out.
-/

namespace ScriptDisassembler

inductive OutputMode where
  | listing
  | yaml
deriving DecidableEq, Repr

structure OutputOptions where
  mode : OutputMode
  /-- Show the words of each token in a listing. -/
  hexDump : Bool
deriving DecidableEq, Repr

namespace OutputOptions

def default : OutputOptions :=
  ⟨.listing, false⟩

end OutputOptions

/-- A script as text. A listing may show the words of a buffer. -/
def Script.output (script : Script) (buffer : Buffer) (signatures : Signatures)
    (options : OutputOptions) : Except Fault String :=
  match options.mode with
  | .listing => (script.listing buffer signatures options.hexDump).mapError .read
  | .yaml => .ok script.yaml

/-- Disassembles a script and writes it out. -/
def disassembleTo (options : OutputOptions) (bytes : List UInt8) (signatures : Signatures) :
    Except Fault String :=
  match disassemble bytes signatures with
  | .error fault => .error fault
  | .ok script => script.output (.ofBytes bytes) signatures options

end ScriptDisassembler
