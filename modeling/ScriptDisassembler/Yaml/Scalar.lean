import ScriptDisassembler.Text.Hex
import ScriptDisassembler.Yaml.Mark

/-!
Scalars as they are written: plain, in single quotes or in double quotes. White space
inside a scalar that goes over a line end is folded: a single line end becomes a space, and
of several all but the first are kept.
-/

namespace ScriptDisassembler.Yaml

/-- White space that has been read and not yet been found to belong to the scalar. The
lists are in reverse. -/
structure Gap where
  spaces : List Char
  /-- Whether a line has ended in the gap. -/
  folded : Bool
  /-- The first line end, unless it was escaped. -/
  first : Option Char
  more : List Char

namespace Gap

def none : Gap :=
  ⟨[], false, Option.none, []⟩

def escapedBreak : Gap :=
  ⟨[], true, Option.none, []⟩

def space (gap : Gap) (c : Char) : Gap :=
  if gap.folded then gap else { gap with spaces := c :: gap.spaces }

def lineEnd (gap : Gap) (c : Char) : Gap :=
  if gap.folded then { gap with more := c :: gap.more } else ⟨[], true, some c, []⟩

/-- What the gap stands for in the scalar, in reverse. -/
def text (gap : Gap) : List Char :=
  if gap.folded then
    match gap.first with
    | Option.none => gap.more
    | some '\n' => if gap.more.isEmpty then [' '] else gap.more
    | some c => gap.more ++ [c]
  else
    gap.spaces

end Gap

/-- A scalar that has been read, and where reading goes on. -/
structure ScalarEnd where
  text : String
  rest : List Char
  mark : Mark
  /-- Whether a line has ended after the scalar's last character. -/
  folded : Bool

private def isFlowIndicator (c : Char) : Bool :=
  c == ',' || c == '[' || c == ']' || c == '{' || c == '}'

/-- Reads on in a plain scalar that has to stay to the right of `indent` in a block. It
ends at a colon before white space, at a comment, at a mark between documents and, in a
flow collection, at the collection's own punctuation. -/
def plainScalar (inFlow : Bool) (indent : Int) :
    (text : List Char) → Mark → (read : List Char) → Gap → Except Fault ScalarEnd
  | [], mark, read, gap => .ok ⟨String.ofList read.reverse, [], mark, gap.folded⟩
  | c :: rest, mark, read, gap =>
    let stop := ScalarEnd.mk (String.ofList read.reverse) (c :: rest) mark gap.folded
    let afterGap := gap.folded || !gap.spaces.isEmpty
    if isSpace c then
      if gap.folded && c == '\t' && (mark.column : Int) ≤ indent then
        .error .tabIndentation
      else
        plainScalar inFlow indent rest (mark.next c) read (gap.space c)
    else if isBreak c then
      plainScalar inFlow indent rest mark.newline read (gap.lineEnd c)
    else if afterGap && !inFlow && (mark.column : Int) ≤ indent then
      .ok stop
    else if afterGap && (c == '#' || atDocumentMark mark (c :: rest)) then
      .ok stop
    else if inFlow && c == ':' && (rest.head?.any fun d => d == '?' || isFlowIndicator d) then
      .error .unexpectedCharacter
    else if c == ':' && endsWord rest then
      .ok stop
    else if inFlow && isFlowIndicator c then
      .ok stop
    else
      plainScalar inFlow indent rest (mark.next c) (c :: (gap.text ++ read)) .none

inductive Quote where
  | single
  | double
deriving DecidableEq

/-- The characters that one letter after a backslash stands for. -/
def escapeOf? : Char → Option Char
  | '0' => some '\x00'
  | 'a' => some '\x07'
  | 'b' => some '\x08'
  | 't' | '\t' => some '\t'
  | 'n' => some '\n'
  | 'v' => some '\x0b'
  | 'f' => some '\x0c'
  | 'r' => some '\r'
  | 'e' => some '\x1b'
  | ' ' => some ' '
  | '\x22' => some '\x22'
  | '/' => some '/'
  | '\\' => some '\\'
  | 'N' => some '\x85'
  | '_' => some '\u00a0'
  | 'L' => some '\u2028'
  | 'P' => some '\u2029'
  | _ => none

/-- How many hexadecimal digits follow a letter after a backslash. -/
def escapeDigits? : Char → Option Nat
  | 'x' => some 2
  | 'u' => some 4
  | 'U' => some 8
  | _ => none

/-- Where reading stands in a quoted scalar. -/
inductive QuoteState where
  | plain
  | escape
  /-- So many digits of a character's number are to come; this is what the ones before
  them say. -/
  | digits (left number : Nat)
  /-- After a single quote, which ends the scalar unless another follows. -/
  | quote

/-- Reads on in a quoted scalar up to the closing quote. -/
def quotedScalar (quote : Quote) (text : List Char) (mark : Mark) (read : List Char)
    (gap : Gap) (state : QuoteState) : Except Fault ScalarEnd :=
  let stop : ScalarEnd := ⟨String.ofList read.reverse, text, mark, false⟩
  match text with
  | [] =>
    match state with
    | .quote => .ok stop
    | _ => .error .unclosedScalar
  | c :: rest =>
    match state with
    | .quote =>
      if c == '\x27' then
        quotedScalar quote rest (mark.next c) (c :: read) .none .plain
      else
        .ok stop
    | .escape =>
      if isBreak c then
        quotedScalar quote rest mark.newline read .escapedBreak .plain
      else
        match escapeDigits? c with
        | some left => quotedScalar quote rest (mark.next c) read gap (.digits left 0)
        | none =>
          match escapeOf? c with
          | some escaped => quotedScalar quote rest (mark.next c) (escaped :: read) .none .plain
          | none => .error .badEscape
    | .digits left number =>
      match Text.hexDigit? c with
      | none => .error .badEscape
      | some digit =>
        let number := 16 * number + digit
        if 1 < left then
          quotedScalar quote rest (mark.next c) read gap (.digits (left - 1) number)
        else if number.isValidChar then
          quotedScalar quote rest (mark.next c) (Char.ofNat number :: read) .none .plain
        else
          .error .badEscape
    | .plain =>
      if isSpace c then
        quotedScalar quote rest (mark.next c) read (gap.space c) .plain
      else if isBreak c then
        quotedScalar quote rest mark.newline read (gap.lineEnd c) .plain
      else if atDocumentMark mark (c :: rest) then
        .error .unclosedScalar
      else
        let read := gap.text ++ read
        match quote with
        | .single =>
          if c == '\x27' then
            quotedScalar quote rest (mark.next c) read .none .quote
          else
            quotedScalar quote rest (mark.next c) (c :: read) .none .plain
        | .double =>
          if c == '\x22' then
            .ok ⟨String.ofList read.reverse, rest, (mark.next c), false⟩
          else if c == '\\' then
            quotedScalar quote rest (mark.next c) read .none .escape
          else
            quotedScalar quote rest (mark.next c) (c :: read) .none .plain

end ScriptDisassembler.Yaml
