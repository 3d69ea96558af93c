import ScriptDisassembler.Text.Combining
import ScriptDisassembler.Text.Hex
import ScriptDisassembler.Text.Hidden

/-!
Texts in double quotes for messages. Double quotes and backslashes are escaped, and so is every
character that would not show or would change the one before it.
-/

namespace ScriptDisassembler.Text

private def escaped : Char → List Char
  | '\x00' => ['\\', '0']
  | '\t' => ['\\', 't']
  | '\n' => ['\\', 'n']
  | '\r' => ['\\', 'r']
  | '\\' => ['\\', '\\']
  | '\x22' => ['\\', '\x22']
  | c =>
    if isHidden c || isCombining c then
      "\\u\x7b".toList ++ (hex c.toNat).toList ++ ['}']
    else
      [c]

def quoted (text : String) : String :=
  String.ofList (['\x22'] ++ text.toList.flatMap escaped ++ ['\x22'])

end ScriptDisassembler.Text
