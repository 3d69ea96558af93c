import ScriptDisassembler.Yaml.Fault

/-!
Positions in a text and the classes of its characters. Line ends are made uniform before
anything else is read, so that a line feed stands for every usual line end; the two Unicode
separators end a line as well.
-/

namespace ScriptDisassembler.Yaml

/-- A position: its line, and the characters and the bytes in UTF-8 between the start of the
line and it. -/
structure Mark where
  line : Nat
  column : Nat
  bytes : Nat
deriving DecidableEq, Repr

namespace Mark

def start : Mark :=
  ⟨0, 0, 0⟩

/-- The position after a character that ends no line. -/
def next (mark : Mark) (c : Char) : Mark :=
  ⟨mark.line, mark.column + 1, mark.bytes + c.utf8Size⟩

def newline (mark : Mark) : Mark :=
  ⟨mark.line + 1, 0, 0⟩

/-- A position in words. Lines and columns are counted from one. -/
def text (mark : Mark) : String :=
  "line " ++ toString (mark.line + 1) ++ " column " ++ toString (mark.column + 1)

end Mark

def isSpace (c : Char) : Bool :=
  c == ' ' || c == '\t'

def isBreak (c : Char) : Bool :=
  c == '\n' || c == '\u2028' || c == '\u2029'

/-- Whether a text begins with white space or is at its end. -/
def endsWord : List Char → Bool
  | [] => true
  | c :: _ => isSpace c || isBreak c

/-- Whether a line begins with one of the marks between documents. -/
def atDocumentMark (mark : Mark) (text : List Char) : Bool :=
  mark.column == 0 && (text.take 3 == ['-', '-', '-'] || text.take 3 == ['.', '.', '.']) &&
    endsWord (text.drop 3)

/-- A carriage return, alone or before a line feed, and the next-line character are line
ends like the line feed. -/
def uniformBreaks : List Char → List Char
  | '\r' :: '\n' :: rest => '\n' :: uniformBreaks rest
  | '\r' :: rest => '\n' :: uniformBreaks rest
  | '\x85' :: rest => '\n' :: uniformBreaks rest
  | c :: rest => c :: uniformBreaks rest
  | [] => []

def isPrintable (c : Char) : Bool :=
  let n := c.toNat
  n == 0x09 || n == 0x0a || n == 0x0d || (0x20 ≤ n && n ≤ 0x7e) || n == 0x85 ||
    (0xa0 ≤ n && n ≤ 0xfffd) || 0x10000 ≤ n

/-- The characters to be scanned: all printable. A byte order mark is one of them. -/
def readable (text : String) : Except Fault (List Char) :=
  if text.toList.all isPrintable then
    .ok (uniformBreaks text.toList)
  else
    .error .controlCharacter

end ScriptDisassembler.Yaml
