import ChipEight.Yaml.ScalarText
import ChipEight.Yaml.Token

/-!
# Scanning

`Token.scan` cuts a text into tokens. A scalar or a collection may turn out to be the key of a
mapping only when the colon after it is seen; until then it is a candidate (`Candidate`), and the
tokens that announce the key are put in front of it afterwards.

If the text breaks a rule, or goes on with something that the reader does not know, the tokens end
with `Token.invalid`. The tokens of an undecided candidate before that place are left out, as it is
not known what they are.
-/

set_option autoImplicit false

namespace ChipEight.Yaml

/-- A possible key: the number of its first token, and where it begins. -/
structure Candidate where
  token : Nat
  line : Nat
  column : Nat
  /-- Whether nothing but a key can stand there. -/
  required : Bool

structure Scanner where
  cursor : Cursor
  tokens : Array Token := #[]
  /-- How many tokens were certain before the last one was read. -/
  settled : Nat := 0
  /-- The columns of the open block collections, the innermost first. -/
  indents : List Nat := []
  /-- Whether a key may begin here. -/
  keyAllowed : Bool := true
  candidate : Option Candidate := none
  /-- The candidates outside each open bracket or brace, the innermost first. -/
  outer : List (Option Candidate) := []
  finished : Bool := false

namespace Scanner

/-- Whether the scanner is inside brackets or braces. -/
def inFlow (s : Scanner) : Bool := !s.outer.isEmpty

/-- The least column of text that belongs to the innermost block collection's contents. -/
def contentColumn (s : Scanner) : Nat := (s.indents.head?.map (· + 1)).getD 0

def emit (s : Scanner) (t : Token) : Scanner := { s with tokens := s.tokens.push t }

/-- Emits a token that takes up `n` characters. -/
def emitOver (s : Scanner) (n : Nat) (t : Token) : Scanner :=
  { s.emit t with cursor := s.cursor.skipMany n }

/-- Puts a token in front of the token with number `i`. -/
def insert (s : Scanner) (i : Nat) (t : Token) : Scanner :=
  { s with tokens := s.tokens.insertIdxIfInBounds i t }

/-! ## Candidates -/

/-- Gives up the candidate of this level, unless it has to be a key. -/
def dropCandidate (s : Scanner) : Option Scanner :=
  if s.candidate.any (·.required) then none else some { s with candidate := none }

/-- Makes what begins here a candidate if a key may stand here. -/
def addCandidate (s : Scanner) : Option Scanner :=
  if s.keyAllowed then do
    let s ← s.dropCandidate
    let c := s.cursor
    let required := !s.inFlow && s.indents.head? == some c.column
    pure { s with candidate := some ⟨s.tokens.size, c.line, c.column, required⟩ }
  else some s

/-- Whether a candidate is too far back: a key fits on one line and in 1024 characters. -/
def tooFar (s : Scanner) (k : Candidate) : Bool :=
  k.line < s.cursor.line || k.column + 1024 < s.cursor.column

/-- Gives up the candidates that are too far back, unless one has to be a key. -/
def dropFar (s : Scanner) : Option Scanner :=
  if (s.candidate :: s.outer).any (·.any fun k => k.required && s.tooFar k) then none
  else
    let keep (k : Option Candidate) := k.filter fun k => !s.tooFar k
    some { s with candidate := keep s.candidate, outer := s.outer.map keep }

/-- How many tokens are certain: those in front of the first candidate. -/
def certain (s : Scanner) : Nat :=
  (s.candidate :: s.outer).foldl (fun n k => (k.map fun k => min n k.token).getD n) s.tokens.size

/-! ## Indentation -/

/-- Opens a block collection at a column, unless one is open there. Its token goes in front of token
number `i`. -/
def openBlock (s : Scanner) (column i : Nat) (t : Token) : Scanner :=
  if s.inFlow || column < s.contentColumn then s
  else { s.insert i t with indents := column :: s.indents }

/-- Closes the block collections that begin right of a column. -/
def closeBlocks (s : Scanner) (keep : Nat → Bool) : Scanner :=
  if s.inFlow then s
  else
    let closed := s.indents.takeWhile fun i => !keep i
    { s with
      tokens := s.tokens ++ (closed.map fun _ => Token.blockEnd).toArray
      indents := s.indents.drop closed.length }

/-! ## Tokens -/

/-- Where the next token begins, past blanks, comments and line breaks, and whether a key may begin
there. Tabs are blanks only where no key may begin or inside brackets and braces. A byte order mark
may stand at the beginning of any line, and takes up a column. -/
def gapEnd (flow keyAllowed comment : Bool) (line column : Nat) : List Char → Cursor × Bool
  | [] => (⟨[], line, column⟩, keyAllowed)
  | c :: cs =>
    if c == unreadable then (⟨c :: cs, line, column⟩, keyAllowed)
    else if isBreak c then gapEnd flow (keyAllowed || !flow) false (line + 1) 0 cs
    else if c == byteOrderMark && column == 0 then gapEnd flow keyAllowed false line 1 cs
    else if comment || c == '#' then gapEnd flow keyAllowed true line (column + 1) cs
    else if c == ' ' || (c == '\t' && (flow || !keyAllowed)) then
      gapEnd flow keyAllowed false line (column + 1) cs
    else (⟨c :: cs, line, column⟩, keyAllowed)

/-- Moves to the next token. -/
def toToken (s : Scanner) : Scanner :=
  let c := s.cursor
  let (cursor, keyAllowed) := gapEnd s.inFlow s.keyAllowed false c.line c.column c.rest
  { s with cursor := cursor, keyAllowed := keyAllowed }

/-- Ends the text. An unfinished line ends here too, so that no candidate outlasts the text. -/
def finish (s : Scanner) : Option Scanner := do
  let s ← (s.closeBlocks fun _ => false).dropCandidate
  pure { s.emit .streamEnd with
    cursor := { rest := [], line := s.cursor.line + 1 }, keyAllowed := false, finished := true }

def documentMarker (s : Scanner) (t : Token) : Option Scanner := do
  let s ← (s.closeBlocks fun _ => false).dropCandidate
  pure { s.emitOver 3 t with keyAllowed := false }

def openFlow (s : Scanner) (t : Token) : Option Scanner := do
  let s ← s.addCandidate
  pure { s.emitOver 1 t with
    keyAllowed := true, outer := s.candidate :: s.outer, candidate := none }

def closeFlow (s : Scanner) (t : Token) : Option Scanner := do
  let s ← s.dropCandidate
  pure { s.emitOver 1 t with
    keyAllowed := false, outer := s.outer.tail, candidate := s.outer.head?.join }

def flowEntry (s : Scanner) : Option Scanner := do
  let s ← s.dropCandidate
  pure { s.emitOver 1 .flowEntry with keyAllowed := true }

def blockEntry (s : Scanner) : Option Scanner := do
  if !s.inFlow && !s.keyAllowed then none
  let s ← (s.openBlock s.cursor.column s.tokens.size .blockSequenceStart).dropCandidate
  pure { s.emitOver 1 .blockEntry with keyAllowed := true }

/-- A question mark, which announces a key. -/
def explicitKey (s : Scanner) : Option Scanner := do
  if !s.inFlow && !s.keyAllowed then none
  let s ← (s.openBlock s.cursor.column s.tokens.size .blockMappingStart).dropCandidate
  pure { s.emitOver 1 .key with keyAllowed := !s.inFlow }

/-- A colon, which makes the candidate a key if there is one. -/
def value (s : Scanner) : Option Scanner :=
  match s.candidate with
  | some k =>
    let s := (s.insert k.token .key).openBlock k.column k.token .blockMappingStart
    some { s.emitOver 1 .value with keyAllowed := false, candidate := none }
  | none => do
    if !s.inFlow && !s.keyAllowed then none
    let s := s.openBlock s.cursor.column s.tokens.size .blockMappingStart
    pure { s.emitOver 1 .value with keyAllowed := !s.inFlow }

def quoted (s : Scanner) (quote : Char) : Option Scanner := do
  let s ← s.addCandidate
  let read ← readQuoted quote s.cursor
  pure { s.emit (.scalar ⟨String.ofList read.text, false⟩) with
    cursor := read.cursor, keyAllowed := false }

def plain (s : Scanner) : Option Scanner := do
  let s ← s.addCandidate
  let read ← readPlain s.inFlow s.contentColumn [] s.cursor
  pure { s.emit (.scalar ⟨String.ofList read.text, true⟩) with
    cursor := read.cursor, keyAllowed := read.brokeLine }

/-- The indicators that begin no plain scalar. Of them, the ones for anchors, aliases, tags, block
scalars and directives have no use here. -/
def isIndicator (c : Char) : Bool := isFlowIndicator c || "-?:#&*!|>'\"%@\x60".toList.contains c

/-- Whether a character that is no token of its own here begins a plain scalar. -/
def beginsPlain (s : Scanner) (c : Char) : Bool :=
  !(isIndicator c || isSpace c) || c == '-' || (!s.inFlow && (c == '?' || c == ':'))

/-- Reads the token at the cursor. -/
def token (s : Scanner) : Option Scanner :=
  match s.cursor.rest with
  | [] => s.finish
  | c :: cs =>
    if !s.cursor.sees 4 || (s.cursor.column == 0 && c == '%') then none
    else if s.cursor.atMarker '-' then s.documentMarker .documentStart
    else if s.cursor.atMarker '.' then s.documentMarker .documentEnd
    else
      match c with
      | '[' => s.openFlow .flowSequenceStart
      | '{' => s.openFlow .flowMappingStart
      | ']' => s.closeFlow .flowSequenceEnd
      | '}' => s.closeFlow .flowMappingEnd
      | ',' => s.flowEntry
      | '\'' => s.quoted '\''
      | '"' => s.quoted '"'
      | c =>
        if c == '-' && endsWord cs then s.blockEntry
        else if c == '?' && (s.inFlow || endsWord cs) then s.explicitKey
        else if c == ':' && (s.inFlow || endsWord cs) then s.value
        else if s.beginsPlain c then s.plain
        else none

/-- Reads the next token, or fails with the number of tokens that are certain. -/
def next (s : Scanner) : Except Nat Scanner :=
  match s.dropFar with
  | none => .error s.settled
  | some s =>
    let ahead := s.toToken.dropFar
    match ahead.bind fun t => (t.closeBlocks (· ≤ t.cursor.column)).token with
    | none => .error s.certain
    | some t =>
      if t.finished && t.dropFar.isNone then .error s.certain
      else .ok { t with settled := s.certain }

/-- Reads all tokens. -/
def run : Nat → Scanner → List Token
  | 0, s => s.tokens.toList
  | fuel + 1, s =>
    match s.next with
    | .ok s => if s.finished then s.tokens.toList else run fuel s
    | .error count => s.tokens.toList.take count ++ [.invalid]

end Scanner

/-- The tokens of a text. -/
def Token.scan (text : String) : List Token :=
  let cs := readable text.toList
  Scanner.run (cs.length + 2) { cursor := { rest := uniform cs } }

end ChipEight.Yaml
