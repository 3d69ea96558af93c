import ScriptDisassembler.Signature
import ScriptDisassembler.Yaml.Reader

/-!
Call signatures as a YAML document holds them: a mapping with the key `methods`, each
method with a `name` and possibly `params`, each parameter with a `name` and possibly a
`type` and a `branch`. Other keys are ignored. Any scalar is read as text. Nothing at all is
an empty text or an empty list, but a scalar is no list even if it is empty. Everything is
read in the order of the document, and the first fault is the one that is found.
-/

namespace ScriptDisassembler

open Yaml (Mark Node)

/-- Which parameter of which method, both counted from zero, and where it begins. -/
structure ParameterPlace where
  method : Nat
  parameter : Nat
  start : Option Mark
deriving DecidableEq

namespace ParameterPlace

def path (place : ParameterPlace) : String :=
  "methods[" ++ toString place.method ++ "].params[" ++ toString place.parameter ++ "]"

end ParameterPlace

inductive SignatureFault where
  | yaml (fault : Yaml.Fault)
  | missing (field : String)
  | repeated (field : String)
  /-- Something else than a scalar, a list or a mapping was found where one was expected. -/
  | expected (what : String)
  | role (place : ParameterPlace) (unknown : UnknownRole)
deriving DecidableEq

namespace SignatureFault

def message : SignatureFault → String
  | yaml fault => fault.message
  | missing field => "missing field " ++ field
  | repeated field => "duplicate field " ++ field
  | expected what => "expected " ++ what
  | role place unknown =>
    let position := match place.start with
      | some mark => " at " ++ mark.text
      | none => ""
    place.path ++ ": " ++ unknown.message ++ position

end SignatureFault

namespace SignatureFile

def text : Node → Except SignatureFault String
  | .nothing => .ok ""
  | .scalar text => .ok text
  | .broken fault => .error (.yaml fault)
  | _ => .error (.expected "a string")

def list : Node → Except SignatureFault (List Node)
  | .nothing => .ok []
  | .sequence items => .ok items
  | .broken fault => .error (.yaml fault)
  | _ => .error (.expected "a sequence")

/-- Reads the items of a list, each with its index. -/
def items {α : Type} (item : Nat → Node → Except SignatureFault α) (node : Node) :
    Except SignatureFault (List α) := do
  (← list node).zipIdx.mapM fun (node, index) => item index node

/-- Reads the entries of a mapping, whose keys have to be scalars, one after the other. -/
def entries {α : Type} (entry : α → String → Node → Except SignatureFault α) (start : α) :
    Node → Except SignatureFault α
  | .mapping entries _ => entries.foldlM (fun read (key, value) => do
      entry read (← text key) value) start
  | .broken fault => .error (.yaml fault)
  | _ => .error (.expected "a mapping")

/-- A node whose content plays no part. -/
def ignored (node : Node) : Except SignatureFault Unit :=
  match node.fault? with
  | some fault => .error (.yaml fault)
  | none => .ok ()

/-- The value of a key that may occur once. -/
def once {α : Type} (field : String) (earlier : Option α) (value : Except SignatureFault α) :
    Except SignatureFault (Option α) :=
  match earlier with
  | some _ => .error (.repeated field)
  | none => value.map some

def required {α : Type} (field : String) : Option α → Except SignatureFault α
  | some value => .ok value
  | none => .error (.missing field)

/-- The keys of a parameter that were read so far. -/
structure ParameterFields where
  name : Option String
  type : Option String
  role : Option BranchRole

def parameterEntry (place : ParameterPlace) (fields : ParameterFields) (key : String)
    (value : Node) : Except SignatureFault ParameterFields :=
  if key = "name" then
    (once key fields.name (text value)).map fun name => { fields with name }
  else if key = "type" then
    (once key fields.type (text value)).map fun type => { fields with type }
  else if key = "branch" then
    let role := text value >>= fun role => (BranchRole.ofString role).mapError (.role place)
    (once key fields.role role).map fun role => { fields with role }
  else
    (ignored value).map fun _ => fields

def parameter (method index : Nat) (node : Node) : Except SignatureFault Parameter := do
  let start := match node with
    | .mapping _ start => start
    | _ => none
  let fields ← entries (parameterEntry ⟨method, index, start⟩) ⟨none, none, none⟩ node
  return ⟨← required "name" fields.name, fields.type.getD "", fields.role.getD .none⟩

/-- The keys of a method that were read so far. -/
structure MethodFields where
  name : Option String
  parameters : Option (List Parameter)

def methodEntry (index : Nat) (fields : MethodFields) (key : String) (value : Node) :
    Except SignatureFault MethodFields :=
  if key = "name" then
    (once key fields.name (text value)).map fun name => { fields with name }
  else if key = "params" then
    (once key fields.parameters (items (parameter index) value)).map fun parameters =>
      { fields with parameters }
  else
    (ignored value).map fun _ => fields

def method (index : Nat) (node : Node) : Except SignatureFault Method := do
  let fields ← entries (methodEntry index) ⟨none, none⟩ node
  return ⟨← required "name" fields.name, fields.parameters.getD []⟩

def signatures (node : Node) : Except SignatureFault Signatures := do
  let entry (methods : Option (List Method)) (key : String) (value : Node) :
      Except SignatureFault (Option (List Method)) :=
    if key = "methods" then
      once key methods (items method value)
    else
      (ignored value).map fun _ => methods
  return ⟨← required "methods" (← entries entry none node)⟩

end SignatureFile

/-- Reads the signatures that a YAML text holds. -/
def Signatures.ofYaml (source : String) : Except SignatureFault Signatures := do
  let (node, after) := Node.ofText source
  let signatures ← SignatureFile.signatures node
  match after with
  | some fault => throw (.yaml fault)
  | none => return signatures

end ScriptDisassembler
