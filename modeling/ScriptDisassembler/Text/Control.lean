import ScriptDisassembler.Text.Ranges

/-!
Texts without what a terminal would act on: control characters other than white space, and
control sequences. A sequence begins with the escape character, and its kind says where it
ends; a sequence that does not end takes up the rest of the text.
-/

namespace ScriptDisassembler.Text

/-- The control characters that are white space. -/
def isLayout (c : Char) : Bool :=
  c == '\t' || c == '\n' || c == '\x0c' || c == '\r'

/-- Whether a character outside of all control sequences stays in a text. -/
def isShown (c : Char) : Bool :=
  isLayout c || (0x20 ≤ c.toNat && c.toNat != 0x7f)

/-- What is still open of a control sequence. -/
inductive ControlState where
  /-- Nothing is. -/
  | none
  /-- Only the escape character was seen. -/
  | escape
  /-- An escape sequence has more than one character. -/
  | longEscape
  /-- A command with parameters, up to a letter or the like. -/
  | command
  /-- The head of a device control string, of which only the kind was seen. -/
  | deviceHead
  /-- The head of a device control string, among its parameters. -/
  | deviceParameters
  /-- The head of a device control string, past its parameters. -/
  | deviceIntermediate
  /-- A string that is not shown, up to a string terminator. -/
  | string
  /-- An operating system command, up to a bell. -/
  | systemCommand
deriving DecidableEq, Repr

namespace ControlState

/-- White space inside of a short sequence is shown. -/
def showsLayout : ControlState → Bool
  | .escape | .longEscape | .command => true
  | _ => false

/-- The terminator of a string is the byte 9C, wherever it is met. -/
private def endsString (c : Char) : Bool :=
  (String.utf8EncodeChar c).contains 0x9c

/-- What is open after a character. An escape character begins a new sequence and the
characters 18 and 1A cancel one, whatever is open. -/
def next (state : ControlState) (c : Char) : ControlState :=
  if c == '\x1b' then
    .escape
  else if c == '\x18' || c == '\x1a' then
    .none
  else
    match state with
    | .none => .none
    | .escape =>
      if c == '[' then .command
      else if c == ']' then .systemCommand
      else if c == 'P' then .deviceHead
      else if c == 'X' || c == '^' || c == '_' then .string
      else if within [(0x20, 0x2f)] c then .longEscape
      else if within [(0x30, 0x7e)] c then .none
      else .escape
    | .longEscape => if within [(0x30, 0x7e)] c then .none else .longEscape
    | .command => if within [(0x40, 0x7e)] c then .none else .command
    | .deviceHead =>
      if within [(0x20, 0x2f)] c then .deviceIntermediate
      else if within [(0x30, 0x3f)] c then .deviceParameters
      else if within [(0x40, 0x7e)] c then .string
      else .deviceHead
    | .deviceParameters =>
      if within [(0x20, 0x2f)] c then .deviceIntermediate
      else if within [(0x3c, 0x7e)] c then .string
      else .deviceParameters
    | .deviceIntermediate => if within [(0x30, 0x7e)] c then .string else .deviceIntermediate
    | .string => if endsString c then .none else .string
    | .systemCommand => if c == '\x07' then .none else .systemCommand

end ControlState

/-- The characters that are shown. White space interrupts a short sequence: what follows is
shown up to a character that is not, with which the sequence goes on. -/
def shown : (state : ControlState) → (interrupted : Bool) → List Char → List Char
  | _, _, [] => []
  | state, interrupted, c :: rest =>
    if state == .none || interrupted then
      if isShown c then
        c :: shown (if c.toNat < 0x80 then state else .none) interrupted rest
      else
        shown (state.next c) false rest
    else if state.showsLayout && isLayout c then
      c :: shown state true rest
    else
      shown (state.next c) false rest

/-- A text without control characters and control sequences. -/
def withoutControl (text : String) : String :=
  String.ofList (shown .none false text.toList)

end ScriptDisassembler.Text
