import ChipEight.Yaml.Node
import ChipEight.Yaml.Token.Scan

/-!
# Reading documents

A reader for a part of YAML: block and flow collections, plain and quoted scalars. It knows no
anchors, aliases, tags, block scalars or directives, and takes a text as broken where one stands.
`Node.ofTokens` reads as much of a tree as the tokens give: where they break a rule of the grammar,
the tree ends with `Node.cut`, and everything before it is there.
-/

set_option autoImplicit false

namespace ChipEight.Yaml

namespace Node

/-- What was read, and the tokens after it unless the tree was cut. -/
abbrev Read (α : Type) := α × Option (List Token)

def absent : Node := .scalar .absent

/-- Adds an item in front of a list that was read after it. -/
def cons {α : Type} (a : α) (r : Read (List α)) : Read (List α) := (a :: r.1, r.2)

mutual

/-- Reads a node. Block collections may stand only in a block, and a sequence without indentation
of its own only as part of a mapping. -/
def readNode (block indentless : Bool) : Nat → List Token → Read Node
  | 0, _ => (.cut, none)
  | fuel + 1, ts =>
    match ts with
    | .scalar s :: ts => (.scalar s, some ts)
    | .flowSequenceStart :: ts => (readFlowItems true fuel ts).map .sequence id
    | .flowMappingStart :: ts => (readFlowEntries true fuel ts).map .mapping id
    | .blockSequenceStart :: ts =>
      if block then (readBlockItems fuel ts).map .sequence id else (.cut, none)
    | .blockMappingStart :: ts =>
      if block then (readBlockEntries fuel ts).map .mapping id else (.cut, none)
    | .blockEntry :: ts =>
      if indentless then (readIndentlessItems fuel (.blockEntry :: ts)).map .sequence id
      else (.cut, none)
    | _ => (.cut, none)

/-- Reads a node where one may be left out: it is absent if one of the tokens `ends` follows. -/
def readOptional (block indentless : Bool) (ends : List Token) : Nat → List Token → Read Node
  | 0, _ => (.cut, none)
  | fuel + 1, ts =>
    match ts with
    | t :: _ => if ends.contains t then (absent, some ts) else readNode block indentless fuel ts
    | [] => (.cut, none)

def readBlockItems : Nat → List Token → Read (List Node)
  | 0, _ => ([.cut], none)
  | fuel + 1, ts =>
    match ts with
    | .blockEntry :: ts =>
      match readOptional true false [.blockEntry, .blockEnd] fuel ts with
      | (item, some ts) => cons item (readBlockItems fuel ts)
      | (item, none) => ([item], none)
    | .blockEnd :: ts => ([], some ts)
    | _ => ([.cut], none)

def readIndentlessItems : Nat → List Token → Read (List Node)
  | 0, _ => ([.cut], none)
  | fuel + 1, ts =>
    match ts with
    | .blockEntry :: ts =>
      match readOptional true false [.blockEntry, .key, .value, .blockEnd] fuel ts with
      | (item, some ts) => cons item (readIndentlessItems fuel ts)
      | (item, none) => ([item], none)
    | .invalid :: _ | [] => ([.cut], none)
    | ts => ([], some ts)

/-- Reads the value of an entry behind its colon. -/
def readBlockValue : Nat → List Token → Read Node
  | 0, _ => (.cut, none)
  | fuel + 1, ts =>
    match ts with
    | .value :: ts => readOptional true true [.key, .value, .blockEnd] fuel ts
    | .invalid :: _ | [] => (.cut, none)
    | ts => (absent, some ts)

def readBlockEntries : Nat → List Token → Read (List (Node × Node))
  | 0, _ => ([(.cut, .cut)], none)
  | fuel + 1, ts =>
    match ts with
    | .key :: ts =>
      match readOptional true true [.key, .value, .blockEnd] fuel ts with
      | (k, none) => ([(k, .cut)], none)
      | (k, some ts) =>
        match readBlockValue fuel ts with
        | (v, none) => ([(k, v)], none)
        | (v, some ts) => cons (k, v) (readBlockEntries fuel ts)
    | .blockEnd :: ts => ([], some ts)
    | _ => ([(.cut, .cut)], none)

/-- Reads the items of a sequence in brackets; all but the first follow a comma. An entry of a
mapping may stand as an item. -/
def readFlowItems (first : Bool) : Nat → List Token → Read (List Node)
  | 0, _ => ([.cut], none)
  | fuel + 1, ts =>
    match ts with
    | .flowSequenceEnd :: ts => ([], some ts)
    | ts =>
      let ts :=
        if first then some ts
        else
          match ts with
          | .flowEntry :: ts => some ts
          | _ => none
      match ts with
      | none => ([.cut], none)
      | some (.flowSequenceEnd :: ts) => ([], some ts)
      | some ts =>
        let item :=
          match ts with
          | .key :: ts => (readPair fuel ts).map .mapping id
          | ts => readNode false false fuel ts
        match item with
        | (item, none) => ([item], none)
        | (item, some ts) => cons item (readFlowItems false fuel ts)

/-- Reads an entry that stands as an item in brackets, behind the token that announces its key. The
mapping of this one entry ends only where a token follows it. -/
def readPair : Nat → List Token → Read (List (Node × Node))
  | 0, _ => ([(.cut, .cut)], none)
  | fuel + 1, ts =>
    let key :=
      match ts with
      | .invalid :: _ | [] => (.cut, none)
      | .value :: ts | .flowEntry :: ts | .flowSequenceEnd :: ts => (absent, some ts)
      | ts => readNode false false fuel ts
    match key with
    | (k, none) => ([(k, .cut)], none)
    | (k, some ts) =>
      match readFlowValue [.flowEntry, .flowSequenceEnd] fuel ts with
      | (v, none) => ([(k, v)], none)
      | (v, some (.invalid :: _)) | (v, some []) => ([(k, v), (.cut, .cut)], none)
      | (v, some ts) => ([(k, v)], some ts)

/-- Reads the value of an entry inside brackets or braces, if there is one. -/
def readFlowValue (ends : List Token) : Nat → List Token → Read Node
  | 0, _ => (.cut, none)
  | fuel + 1, ts =>
    match ts with
    | .value :: ts => readOptional false false ends fuel ts
    | .invalid :: _ | [] => (.cut, none)
    | ts => (absent, some ts)

/-- Reads the entries of a mapping in braces; all but the first follow a comma. -/
def readFlowEntries (first : Bool) : Nat → List Token → Read (List (Node × Node))
  | 0, _ => ([(.cut, .cut)], none)
  | fuel + 1, ts =>
    match ts with
    | .flowMappingEnd :: ts => ([], some ts)
    | ts =>
      let ts :=
        if first then some ts
        else
          match ts with
          | .flowEntry :: ts => some ts
          | _ => none
      match ts with
      | none => ([(.cut, .cut)], none)
      | some (.flowMappingEnd :: ts) => ([], some ts)
      | some (.key :: ts) =>
        match readOptional false false [.value, .flowEntry, .flowMappingEnd] fuel ts with
        | (k, none) => ([(k, .cut)], none)
        | (k, some ts) =>
          match readFlowValue [.flowEntry, .flowMappingEnd] fuel ts with
          | (v, none) => ([(k, v)], none)
          | (v, some ts) => cons (k, v) (readFlowEntries false fuel ts)
      | some ts =>
        match readNode false false fuel ts with
        | (k, none) => ([(k, .cut)], none)
        | (k, some (.invalid :: _)) | (k, some []) => ([(k, .cut)], none)
        | (k, some ts) => cons (k, absent) (readFlowEntries false fuel ts)

end

end Node

/-- Whether the tokens after a root node end the text. -/
def endsText (ts : List Token) : Bool :=
  ts.dropWhile (· == .documentEnd) == [.streamEnd]

/-- The document whose root was read. -/
def Document.ofRead : Node.Read Node → Document
  | (root, some ts) => { root := some root, ended := endsText ts }
  | (root, none) => { root := some root, ended := false }

/-- Reads the only document of a text, given as its tokens. -/
def Document.ofTokens (ts : List Token) : Document :=
  match ts with
  | [.streamEnd] => { root := none, ended := true }
  | .documentStart :: ts =>
    .ofRead (Node.readOptional true false [.documentStart, .documentEnd, .streamEnd]
      (4 * ts.length + 4) ts)
  | ts => .ofRead (Node.readNode true false (4 * ts.length + 4) ts)

/-- Reads the only document of a text. -/
def Document.ofText (text : String) : Document := .ofTokens (Token.scan text)

end ChipEight.Yaml
