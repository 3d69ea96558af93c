import ScriptDisassembler.Yaml.Scalar

/-!
A YAML text as a sequence of tokens. Indentation becomes explicit: a block collection has
a token at its start and one at its end. A token that may begin a mapping says where it
stands. Whether a scalar or a flow collection is a key is known only when a colon follows on
the same line, so its place is remembered until then and the token that makes it a key is put
in there. A fault is the last token; it stands behind the tokens that were settled before it
was met.

Anchors, aliases, tags, directives and block scalars are not part of the language.
-/

namespace ScriptDisassembler.Yaml

inductive Token where
  | documentStart
  | documentEnd
  | blockSequenceStart
  | blockMappingStart (start : Mark)
  | blockEnd
  | flowSequenceStart
  | flowSequenceEnd
  | flowMappingStart (start : Mark)
  | flowMappingEnd
  | blockEntry
  | flowEntry
  | key (start : Mark)
  | value
  | scalar (text : String)
  | broken (fault : Fault)
deriving DecidableEq, Repr

/-- A token that may turn out to be a key. -/
structure PossibleKey where
  /-- How many tokens come before it. -/
  place : Nat
  mark : Mark
  /-- Whether it can be nothing but a key, as it begins a line of a block mapping. -/
  required : Bool

/-- Between the start of a key without a question mark and its colon lie at most so many
bytes. -/
def simpleKeyLimit : Nat := 1024

structure Scan where
  tokens : Array Token
  /-- The column of the innermost block collection, or -1 outside of all. -/
  indent : Int
  /-- The columns of the block collections around that one. -/
  outerIndents : List Int
  possibleKey : Option PossibleKey
  /-- The possible keys outside of each flow collection that is open, the innermost first. -/
  outerKeys : List (Option PossibleKey)
  /-- Whether a key may begin here. -/
  keyAllowed : Bool

namespace Scan

def start : Scan :=
  ⟨#[], -1, [], none, [], true⟩

def inFlow (scan : Scan) : Bool :=
  !scan.outerKeys.isEmpty

def emit (scan : Scan) (token : Token) : Scan :=
  { scan with tokens := scan.tokens.push token }

def allowKey (scan : Scan) (keyAllowed : Bool) : Scan :=
  { scan with keyAllowed }

private def isStale (mark : Mark) (key : PossibleKey) : Bool :=
  key.mark.line < mark.line || key.mark.bytes + simpleKeyLimit < mark.bytes

/-- Gives up the possible keys that are too far back. -/
def dropStaleKeys (scan : Scan) (mark : Mark) : Except Fault Scan :=
  let stale (key : Option PossibleKey) : Bool := key.any (isStale mark)
  let missing (key : Option PossibleKey) : Bool := stale key && key.any PossibleKey.required
  if missing scan.possibleKey || scan.outerKeys.any missing then
    .error .missingColon
  else
    let fresh (key : Option PossibleKey) : Option PossibleKey := if stale key then none else key
    .ok { scan with
      possibleKey := fresh scan.possibleKey
      outerKeys := scan.outerKeys.map fresh }

/-- Gives up the possible key of the collection that is being read. -/
def dropKey (scan : Scan) : Except Fault Scan :=
  if scan.possibleKey.any PossibleKey.required then
    .error .missingColon
  else
    .ok { scan with possibleKey := none }

/-- Remembers that the next token may be a key. -/
def saveKey (scan : Scan) (mark : Mark) : Except Fault Scan :=
  if scan.keyAllowed then
    scan.dropKey.map fun scan =>
      { scan with
        possibleKey := some
          ⟨scan.tokens.size, mark, !scan.inFlow && scan.indent == (mark.column : Int)⟩ }
  else
    .ok scan

/-- Begins a block collection at a column to the right of the one that is being read. -/
def openBlock (scan : Scan) (column : Nat) (place : Nat) (token : Token) : Scan :=
  if !scan.inFlow && scan.indent < (column : Int) then
    { scan with
      tokens := scan.tokens.insertIdxIfInBounds place token
      indent := column
      outerIndents := scan.indent :: scan.outerIndents }
  else
    scan

/-- Ends the block collections to the right of a column. -/
def closeBlocks (scan : Scan) (column : Int) : Scan :=
  if scan.inFlow then scan else close scan.indent scan.outerIndents scan
where
  close (indent : Int) (outer : List Int) (scan : Scan) : Scan :=
    match outer with
    | [] => { scan with indent, outerIndents := [] }
    | next :: outer =>
      if column < indent then
        close next outer (scan.emit .blockEnd)
      else
        { scan with indent, outerIndents := next :: outer }

def openFlow (scan : Scan) : Scan :=
  { scan with possibleKey := none, outerKeys := scan.possibleKey :: scan.outerKeys }

def closeFlow (scan : Scan) : Scan :=
  match scan.outerKeys with
  | [] => scan
  | key :: outerKeys => { scan with possibleKey := key, outerKeys }

/-- Begins an item of a block sequence or a key of a block mapping. -/
def indicator (scan : Scan) (mark : Mark) (block token : Token) (keyAfter : Bool) :
    Except Fault Scan :=
  if !scan.inFlow && !scan.keyAllowed then
    .error .misplacedIndicator
  else
    (scan.openBlock mark.column scan.tokens.size block).dropKey.map fun scan =>
      (scan.allowKey keyAfter).emit token

/-- A colon makes the possible key a key; without one it begins a value for an empty key. -/
def colon (scan : Scan) (mark : Mark) : Except Fault Scan :=
  match scan.possibleKey with
  | some key =>
    let scan := { scan with
      tokens := scan.tokens.insertIdxIfInBounds key.place (.key key.mark)
      possibleKey := none }
    let scan := scan.openBlock key.mark.column key.place (.blockMappingStart key.mark)
    .ok ((scan.allowKey false).emit .value)
  | none =>
    if !scan.inFlow && !scan.keyAllowed then
      .error .misplacedIndicator
    else
      let scan := scan.openBlock mark.column scan.tokens.size (.blockMappingStart mark)
      .ok ((scan.allowKey !scan.inFlow).emit .value)

/-- Ends everything that is open in a block, as a mark between documents does. -/
def closeDocument (scan : Scan) : Except Fault Scan :=
  (scan.closeBlocks (-1)).dropKey.map (·.allowKey false)

end Scan

/-- Skips white space and comments. A new line in a block is a place for a key. Tabs are
skipped where they cannot be mistaken for indentation, and a byte order mark where it begins
a line; there it takes up a column. -/
def skipToToken (inFlow : Bool) : (inComment keyAllowed : Bool) → List Char → Mark →
    List Char × Mark × Bool
  | _, keyAllowed, [], mark => ([], mark, keyAllowed)
  | inComment, keyAllowed, c :: rest, mark =>
    if isBreak c then
      skipToToken inFlow false (keyAllowed || !inFlow) rest mark.newline
    else if inComment || c == ' ' || (c == '\t' && (inFlow || !keyAllowed)) ||
        (c == '\ufeff' && mark.column == 0) then
      skipToToken inFlow inComment keyAllowed rest (mark.next c)
    else if c == '#' then
      skipToToken inFlow true keyAllowed rest (mark.next c)
    else
      (c :: rest, mark, keyAllowed)

private def startsPlain (inFlow : Bool) (c : Char) (rest : List Char) : Bool :=
  if c == '-' then
    !(rest.head?.any isSpace)
  else if c == '?' || c == ':' then
    !inFlow && !endsWord rest
  else
    !("\t,[]\x7b\x7d#&*!|>\x27\x22%@\x60".toList.contains c)

private def scalarToken (result : Except Fault ScalarEnd) (scan : Scan) :
    Except Fault (List Char × Mark × Scan) :=
  result.map fun scalar =>
    (scalar.rest, scalar.mark, (scan.emit (.scalar scalar.text)).allowKey scalar.folded)

/-- Reads one token, whose first character is `c`. -/
def scanToken (c : Char) (rest : List Char) (mark : Mark) (scan : Scan) :
    Except Fault (List Char × Mark × Scan) := do
  let one (scan : Scan) : List Char × Mark × Scan := (rest, mark.next c, scan)
  let openFlow (token : Token) : Except Fault (List Char × Mark × Scan) :=
    (scan.saveKey mark).map fun scan => one ((scan.openFlow.allowKey true).emit token)
  let closeFlow (token : Token) : Except Fault (List Char × Mark × Scan) :=
    scan.dropKey.map fun scan => one ((scan.closeFlow.allowKey false).emit token)
  if mark.column == 0 && c == '%' then
    .error .unexpectedCharacter
  else if atDocumentMark mark (c :: rest) then
    let scan ← scan.closeDocument
    return (rest.drop 2, ((mark.next c).next c).next c,
      scan.emit (if c == '-' then .documentStart else .documentEnd))
  else if c == '[' then
    openFlow .flowSequenceStart
  else if c == '{' then
    openFlow (.flowMappingStart mark)
  else if c == ']' then
    closeFlow .flowSequenceEnd
  else if c == '}' then
    closeFlow .flowMappingEnd
  else if c == ',' then
    return one (((← scan.dropKey).allowKey true).emit .flowEntry)
  else if c == '-' && endsWord rest then
    return one (← scan.indicator mark .blockSequenceStart .blockEntry true)
  else if c == '?' && (scan.inFlow || endsWord rest) then
    return one (← scan.indicator mark (.blockMappingStart mark) (.key mark) !scan.inFlow)
  else if c == ':' && (scan.inFlow || endsWord rest) then
    return one (← scan.colon mark)
  else if c == '\x27' then
    scalarToken (quotedScalar .single rest (mark.next c) [] .none .plain) (← scan.saveKey mark)
  else if c == '\x22' then
    scalarToken (quotedScalar .double rest (mark.next c) [] .none .plain) (← scan.saveKey mark)
  else if startsPlain scan.inFlow c rest then
    let scan ← scan.saveKey mark
    scalarToken (plainScalar scan.inFlow scan.indent (c :: rest) mark [] .none) scan
  else
    .error .unexpectedCharacter

namespace Scan

/-- How many tokens cannot change any more: those before the first possible key. -/
def settled (scan : Scan) : Nat :=
  (scan.possibleKey :: scan.outerKeys).foldl (fun count key =>
    key.elim count fun key => min count key.place) scan.tokens.size

/-- The tokens of a text that cannot be read any further. -/
def breakOff (scan : Scan) (settled : Nat) (fault : Fault) : List Token :=
  scan.tokens.toList.take settled ++ [.broken fault]

end Scan

/-- Reads the next token, or closes what is open at the end of the text. -/
def scanNext (text : List Char) (mark : Mark) (scan : Scan) :
    Except Fault (Option (List Char × Mark) × Scan) := do
  let (text, mark, keyAllowed) := skipToToken scan.inFlow false scan.keyAllowed text mark
  let scan ← (scan.allowKey keyAllowed).dropStaleKeys mark
  match text with
  | [] => return (none, ← scan.closeDocument)
  | c :: rest =>
    let (text, mark, scan) ← scanToken c rest mark (scan.closeBlocks mark.column)
    return (some (text, mark), scan)

/-- Reads tokens up to the end of the text. A token takes at least one character, so `fuel`
that exceeds the length of the text is enough. The tokens that were settled before the last
one are counted. -/
def scanTokens : (fuel settled : Nat) → List Char → Mark → Scan → List Token
  | 0, settled, _, _, scan => scan.breakOff settled .unexpectedToken
  | fuel + 1, settled, text, mark, scan =>
    match scan.dropStaleKeys mark with
    | .error fault => scan.breakOff settled fault
    | .ok scan =>
      match scanNext text mark scan with
      | .error fault => scan.breakOff scan.settled fault
      | .ok (none, last) => last.tokens.toList
      | .ok (some (text, mark), next) => scanTokens fuel scan.settled text mark next

/-- The tokens of a text. -/
def Token.ofText (text : String) : List Token :=
  match readable text with
  | .error fault => [.broken fault]
  | .ok characters => scanTokens (characters.length + 1) 0 characters .start .start

end ScriptDisassembler.Yaml
