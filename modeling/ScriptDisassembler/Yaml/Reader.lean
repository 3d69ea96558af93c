import ScriptDisassembler.Yaml.Node
import ScriptDisassembler.Yaml.Token

/-!
The tree of a YAML text, by recursive descent over its tokens. Every function returns the
tokens that it has not used; none are left behind a fault. A text is one document, so in the
end only marks of a document's end may be left.
-/

namespace ScriptDisassembler.Yaml

namespace Node

/-- What is wrong with tokens that cannot go on in this way. -/
def faultOf : List Token → Fault
  | .broken fault :: _ => fault
  | _ => .unexpectedToken

/-- The tokens of the next item of a flow collection, which a comma has to divide from an
earlier one. -/
def afterComma (isFirst : Bool) (tokens : List Token) : Option (List Token) :=
  match isFirst, tokens with
  | true, _ => some tokens
  | false, .flowEntry :: rest => some rest
  | false, _ => none

mutual

/-- Reads a node. Inside a flow collection there are no block collections. An item of a
sequence that is the value of a key need not be indented. -/
def ofTokens (inBlock unindented : Bool) : (fuel : Nat) → List Token → Node × List Token
  | 0, tokens => (.broken (faultOf tokens), [])
  | fuel + 1, tokens =>
    match tokens with
    | .scalar text :: rest => (.scalar text, rest)
    | .flowSequenceStart :: rest =>
      let (items, rest) := flowItems true fuel rest
      (.sequence items, rest)
    | .flowMappingStart start :: rest =>
      let (entries, rest) := flowEntries true fuel rest
      (.mapping entries (some start), rest)
    | .blockEntry :: _ =>
      if unindented then
        let (items, rest) := unindentedItems fuel tokens
        (.sequence items, rest)
      else
        (.broken .unexpectedToken, [])
    | .blockSequenceStart :: rest =>
      if inBlock then
        let (items, rest) := blockItems fuel rest
        (.sequence items, rest)
      else
        (.broken .unexpectedToken, [])
    | .blockMappingStart start :: rest =>
      if inBlock then
        let (entries, rest) := blockEntries fuel rest
        (.mapping entries (some start), rest)
      else
        (.broken .unexpectedToken, [])
    | _ => (.broken (faultOf tokens), [])

/-- The items of a block sequence, up to its end. -/
def blockItems : (fuel : Nat) → List Token → List Node × List Token
  | _ + 1, .blockEnd :: rest => ([], rest)
  | fuel + 1, .blockEntry :: rest =>
    let (item, rest) := match rest with
      | .blockEntry :: _ | .blockEnd :: _ => (.nothing, rest)
      | _ => ofTokens true false fuel rest
    let (items, rest) := blockItems fuel rest
    (item :: items, rest)
  | _, tokens => ([.broken (faultOf tokens)], [])

/-- The items of a sequence that has no indentation of its own, and so no token at its
end. -/
def unindentedItems : (fuel : Nat) → List Token → List Node × List Token
  | 0, tokens => ([.broken (faultOf tokens)], [])
  | fuel + 1, .blockEntry :: rest =>
    let (item, rest) := match rest with
      | .blockEntry :: _ | .key _ :: _ | .value :: _ | .blockEnd :: _ => (.nothing, rest)
      | _ => ofTokens true false fuel rest
    let (items, rest) := unindentedItems fuel rest
    (item :: items, rest)
  | _ + 1, tokens => ([], tokens)

/-- The entries of a block mapping, up to its end. -/
def blockEntries : (fuel : Nat) → List Token → List (Node × Node) × List Token
  | _ + 1, .blockEnd :: rest => ([], rest)
  | fuel + 1, .key _ :: rest =>
    let (key, rest) := match rest with
      | .key _ :: _ | .value :: _ | .blockEnd :: _ => (.nothing, rest)
      | _ => ofTokens true true fuel rest
    let (value, rest) := blockValue fuel rest
    let (entries, rest) := blockEntries fuel rest
    ((key, value) :: entries, rest)
  | _, tokens => ([(.broken (faultOf tokens), .nothing)], [])

/-- The value of a key of a block mapping. -/
def blockValue : (fuel : Nat) → List Token → Node × List Token
  | fuel + 1, .value :: rest =>
    match rest with
    | .key _ :: _ | .value :: _ | .blockEnd :: _ => (.nothing, rest)
    | _ => ofTokens true true fuel rest
  | _, tokens => (.nothing, tokens)

/-- The items of a flow sequence, up to its end. A comma may follow the last. An item with
a key is a mapping of one entry. -/
def flowItems (isFirst : Bool) : (fuel : Nat) → List Token → List Node × List Token
  | 0, tokens => ([.broken (faultOf tokens)], [])
  | _ + 1, .flowSequenceEnd :: rest => ([], rest)
  | fuel + 1, tokens =>
    match afterComma isFirst tokens with
    | none => ([.broken (faultOf tokens)], [])
    | some (.flowSequenceEnd :: rest) => ([], rest)
    | some (.key start :: rest) =>
      let (key, rest) := match rest with
        | .value :: after | .flowEntry :: after | .flowSequenceEnd :: after => (.nothing, after)
        | _ => ofTokens false false fuel rest
      let (value, rest) := flowValue fuel rest
      let (items, rest) := flowItems false fuel rest
      (.mapping [(key, value)] (some start) :: items, rest)
    | some tokens =>
      let (item, rest) := ofTokens false false fuel tokens
      let (items, rest) := flowItems false fuel rest
      (item :: items, rest)

/-- The entries of a flow mapping, up to its end. A comma may follow the last. What is no
key has an empty value. -/
def flowEntries (isFirst : Bool) : (fuel : Nat) → List Token → List (Node × Node) × List Token
  | 0, tokens => ([(.broken (faultOf tokens), .nothing)], [])
  | _ + 1, .flowMappingEnd :: rest => ([], rest)
  | fuel + 1, tokens =>
    match afterComma isFirst tokens with
    | none => ([(.broken (faultOf tokens), .nothing)], [])
    | some (.flowMappingEnd :: rest) => ([], rest)
    | some (.key _ :: rest) =>
      let (key, rest) := match rest with
        | .value :: _ | .flowEntry :: _ | .flowMappingEnd :: _ => (.nothing, rest)
        | _ => ofTokens false false fuel rest
      let (value, rest) := flowValue fuel rest
      let (entries, rest) := flowEntries false fuel rest
      ((key, value) :: entries, rest)
    | some tokens =>
      let (key, rest) := ofTokens false false fuel tokens
      let (entries, rest) := flowEntries false fuel rest
      ((key, .nothing) :: entries, rest)

/-- The value of a key in a flow collection. -/
def flowValue : (fuel : Nat) → List Token → Node × List Token
  | fuel + 1, .value :: rest =>
    match rest with
    | .flowEntry :: _ | .flowSequenceEnd :: _ | .flowMappingEnd :: _ => (.nothing, rest)
    | _ => ofTokens false false fuel rest
  | _, tokens => (.nothing, tokens)

end

/-- The only document of a text, and what is wrong behind it. -/
def ofText (text : String) : Node × Option Fault :=
  let tokens := Token.ofText text
  let fuel := 2 * tokens.length + 2
  let (node, rest) : Node × List Token := match tokens with
    | [] => (.broken .noDocument, [])
    | .documentStart :: rest =>
      match rest with
      | [] | .documentStart :: _ | .documentEnd :: _ => (.nothing, rest)
      | _ => ofTokens true false fuel rest
    | _ => ofTokens true false fuel tokens
  match rest.dropWhile (· == .documentEnd) with
  | [] => (node, none)
  | .documentStart :: _ => (node, some .severalDocuments)
  | tokens => (node, some (faultOf tokens))

end Node

end ScriptDisassembler.Yaml
