/-!
What can be wrong with a YAML text.
-/

namespace ScriptDisassembler.Yaml

inductive Fault where
  | controlCharacter
  | unexpectedCharacter
  /-- A tab stands where indentation is looked for. -/
  | tabIndentation
  | unclosedScalar
  | badEscape
  /-- A dash, a question mark or a colon stands where no collection may begin. -/
  | misplacedIndicator
  /-- A key of a block mapping is not followed by a colon. -/
  | missingColon
  | unexpectedToken
  | noDocument
  | severalDocuments
deriving DecidableEq, Repr

namespace Fault

def message : Fault → String
  | controlCharacter => "control characters are not allowed"
  | unexpectedCharacter => "found character that cannot start any token"
  | tabIndentation => "found a tab character that violates indentation"
  | unclosedScalar => "found unexpected end of a quoted scalar"
  | badEscape => "found unknown escape character"
  | misplacedIndicator => "block collections are not allowed in this context"
  | missingColon => "could not find expected ':'"
  | unexpectedToken => "did not find expected node content"
  | noDocument => "the text holds no document"
  | severalDocuments => "the text holds more than one document"

end Fault

end ScriptDisassembler.Yaml
