import ScriptDisassembler.Yaml.Node

/-!
Trees written in block style. An entry of a mapping is indented by two spaces below its
key and an item of a sequence is not; empty collections are written in flow style. Scalars
are written as they are, so they must be ones that need no quoting.
-/

namespace ScriptDisassembler.Yaml.Node

private def indent (line : String) : String :=
  "  " ++ line

/-- The lines of an item of a sequence, from the lines of what it holds. -/
private def item : List String → List String
  | [] => ["-"]
  | first :: rest => ("- " ++ first) :: rest.map indent

mutual

/-- The lines of a tree. Scalars and empty collections have one. -/
def lines : Node → List String
  | .nothing | .broken _ => []
  | .scalar text => [text]
  | .sequence [] => ["[]"]
  | .sequence (head :: tail) => itemLines (head :: tail)
  | .mapping [] _ => ["\x7b\x7d"]
  | .mapping (head :: tail) _ => entryLines (head :: tail)

def itemLines : List Node → List String
  | [] => []
  | node :: rest => item node.lines ++ itemLines rest

def entryLines : List (Node × Node) → List String
  | [] => []
  | (key, value) :: rest =>
    let name := "".intercalate key.lines ++ ":"
    let block := match value with
      | .sequence (_ :: _) => name :: value.lines
      | .mapping (_ :: _) _ => name :: value.lines.map indent
      | .nothing | .broken _ => [name]
      | _ => [name ++ " " ++ "".intercalate value.lines]
    block ++ entryLines rest

end

/-- The document that holds a tree. -/
def document (node : Node) : String :=
  String.join (node.lines.map (· ++ "\n"))

end ScriptDisassembler.Yaml.Node
