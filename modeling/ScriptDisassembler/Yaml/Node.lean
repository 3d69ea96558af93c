import ScriptDisassembler.Yaml.Mark

/-!
A YAML document as a tree. A scalar is its text: how it was written and what type it might
be read as play no part. A place where nothing is written is told apart from a scalar with an
empty text, which has to be written in quotes. A mapping that was read knows where it begins.
The tree of a faulty text goes as far as the text can be read.
-/

namespace ScriptDisassembler.Yaml

inductive Node where
  | nothing
  | scalar (text : String)
  | sequence (items : List Node)
  | mapping (entries : List (Node × Node)) (start : Option Mark := none)
  /-- From here on the text cannot be read. -/
  | broken (fault : Fault)

namespace Node

mutual

/-- The first fault in a tree. -/
def fault? : Node → Option Fault
  | .broken fault => some fault
  | .sequence items => itemFault? items
  | .mapping entries _ => entryFault? entries
  | _ => none

def itemFault? : List Node → Option Fault
  | [] => none
  | item :: rest => item.fault? <|> itemFault? rest

def entryFault? : List (Node × Node) → Option Fault
  | [] => none
  | (key, value) :: rest => key.fault? <|> value.fault? <|> entryFault? rest

end

end Node

end ScriptDisassembler.Yaml
