import ChipEight.Yaml.Cursor

/-!
# Scalar text

Reading plain and quoted scalars off a cursor: what text they stand for, and where they end.
-/

set_option autoImplicit false

namespace ChipEight.Yaml

/-- A scalar that was read. -/
structure ScalarRead where
  text : List Char
  cursor : Cursor
  /-- Whether the scalar was followed by a line break before the cursor. -/
  brokeLine : Bool := false

/-! ## Plain scalars -/

/-- Whether a character delimits plain scalars inside brackets or braces. -/
def isFlowIndicator (c : Char) : Bool := c == ',' || c == '[' || c == ']' || c == '{' || c == '}'

/-- The next characters of a plain scalar up to a blank, a break or an indicator. There are none to
be had (`none`) where a colon stands before an indicator inside brackets or braces, or where the two
characters to look at cannot be read. -/
def plainWord (flow : Bool) : List Char → Option (List Char)
  | [] => some []
  | c :: cs =>
    if c == unreadable || cs.head? == some unreadable then none
    else if isSpace c then some []
    else if flow && c == ':' && cs.head?.any (fun d => isFlowIndicator d || d == '?') then none
    else if (c == ':' && endsWord cs) || (flow && isFlowIndicator c) then some []
    else (plainWord flow cs).map (c :: ·)

/-- Whether a gap that starts inside a line has a tab in the indentation of a later line. -/
def tabInIndent (indent : Nat) (afterBreak : Bool) (column : Nat) : List Char → Bool
  | [] => false
  | c :: cs =>
    if isBreak c then tabInIndent indent true 0 cs
    else
      (c == '\t' && afterBreak && column < indent) ||
        tabInIndent indent afterBreak (column + 1) cs

theorem length_plainWord {flow : Bool} {cs word : List Char} (h : plainWord flow cs = some word) :
    word.length ≤ cs.length := by
  induction cs generalizing word with
  | nil => simp_all [plainWord]
  | cons c cs ih =>
    unfold plainWord at h
    repeat' split at h
    · cases h
    · cases h
      simp
    · cases h
    · cases h
      simp
    · obtain ⟨w, hw, rfl⟩ := Option.map_eq_some_iff.1 h
      simpa using ih hw

/-- Reads a plain scalar, or the rest of one. `pending` is the gap before the cursor, which counts
only if more text follows, and `indent` the least column of a continuation line. -/
def readPlain (flow : Bool) (indent : Nat) (pending : List Char) (c : Cursor) : Option ScalarRead :=
  if !c.sees 4 then none
  else if c.atDocumentMarker || c.rest.head? == some '#' then
    some { text := [], cursor := c, brokeLine := pending.any isBreak }
  else
    match _word : plainWord flow c.rest with
    | none => none
    | some [] => some { text := [], cursor := c, brokeLine := pending.any isBreak }
    | some (a :: as) =>
      let word := a :: as
      let atGap := c.skipMany word.length
      let space := gap atGap.rest
      let next := atGap.skipMany space.length
      let more :=
        if space.isEmpty then some { text := [], cursor := next }
        else if tabInIndent indent false 0 space || !next.sees 1 then none
        else if !flow && next.column < indent then
          some { text := [], cursor := next, brokeLine := space.any isBreak }
        else readPlain flow indent space next
      more.map fun r => { r with text := fold pending ++ word ++ r.text }
termination_by c.rest.length
decreasing_by
  have := length_plainWord _word
  simp only [Cursor.rest_skipMany, List.length_drop, List.length_cons] at this ⊢
  omega

/-! ## Quoted scalars -/

/-- The character that a one-letter escape stands for. -/
def escapeLetter (c : Char) : Option Char :=
  match c with
  | '0' => some '\x00'
  | 'a' => some '\x07'
  | 'b' => some '\x08'
  | 't' | '\t' => some '\t'
  | 'n' => some '\n'
  | 'v' => some '\x0b'
  | 'f' => some '\x0c'
  | 'r' => some '\r'
  | 'e' => some '\x1b'
  | ' ' => some ' '
  | '"' => some '"'
  | '/' => some '/'
  | '\\' => some '\\'
  | 'N' => some '\u0085'
  | '_' => some '\u00a0'
  | 'L' => some '\u2028'
  | 'P' => some '\u2029'
  | _ => none

/-- How many hexadecimal digits follow the letter of a numeric escape. -/
def escapeWidth (c : Char) : Option Nat :=
  match c with
  | 'x' => some 2
  | 'u' => some 4
  | 'U' => some 8
  | _ => none

/-- The value of a digit in a base up to sixteen. -/
def digitValue? (base : Nat) (c : Char) : Option Nat :=
  let v :=
    if '0' ≤ c ∧ c ≤ '9' then c.toNat - 48
    else if 'a' ≤ c ∧ c ≤ 'f' then c.toNat - 87
    else if 'A' ≤ c ∧ c ≤ 'F' then c.toNat - 55
    else base
  if v < base then some v else none

/-- The number that digits stand for; at least one is needed. -/
def number? (base : Nat) (cs : List Char) : Option Nat :=
  if cs.isEmpty then none
  else cs.foldlM (fun n c => (digitValue? base c).map (n * base + ·)) 0

/-- The character with a number, unless it is a surrogate or too large. -/
def charOfNumber (n : Nat) : Option Char :=
  if h : n.isValidChar then some (Char.ofNatAux n h) else none

/-- Reads a double-quoted scalar's escape, the backslash of which has been seen at the cursor: the
character and the count of characters used. -/
def readEscape (cs : List Char) : Option (Char × Nat) :=
  match cs with
  | [] => none
  | c :: cs =>
    match escapeWidth c with
    | none => (escapeLetter c).map (·, 2)
    | some width => do
      let digits := cs.take width
      if digits.length < width then none
      let char ← charOfNumber (← number? 16 digits)
      pure (char, width + 2)

/-- What a step inside quotes finds: the end, or a piece of text, the characters it takes, and
whether it is part of a word and not a gap between two. -/
inductive QuotedPiece
  | close
  | piece (text : List Char) (used : Nat) (inWord : Bool)

/-- The next piece of text inside quotes, if there is one. -/
def quotedPiece (quote : Char) (cs : List Char) : Option QuotedPiece :=
  match cs with
  | [] => none
  | a :: rest =>
    if a == quote then
      if quote == '\'' && rest.head? == some '\'' then some (.piece ['\''] 2 true) else some .close
    else if quote == '"' && a == '\\' then
      if rest.head?.any isBreak then
        let space := gap (rest.drop 1)
        some (.piece (space.filter isBreak) (space.length + 2) false)
      else (readEscape rest).map fun e => .piece [e.1] e.2 true
    else if isSpace a then some (.piece (fold (gap cs)) (gap cs).length false)
    else some (.piece [a] 1 true)

/-- Reads the inside of a quoted scalar up to its closing quote. At the beginning of a word four
characters are looked at, as it may be a document marker, and within a word two. -/
def quotedRest (quote : Char) (inWord : Bool) (c : Cursor) : Option ScalarRead :=
  if !c.sees (if inWord then 2 else 4) || c.atDocumentMarker then none
  else
    match _piece : quotedPiece quote c.rest with
    | none => none
    | some .close => some { text := [], cursor := c.skip }
    | some (.piece text used inWord) =>
      if used = 0 then none
      else
        (quotedRest quote inWord (c.skipMany used)).map fun r => { r with text := text ++ r.text }
termination_by c.rest.length
decreasing_by
  cases hc : c.rest with
  | nil => simp [hc, quotedPiece] at _piece
  | cons a rest =>
    simp only [Cursor.rest_skipMany, hc, List.length_drop, List.length_cons]
    omega

/-- Reads a scalar in quotes, with the cursor at the opening one. -/
def readQuoted (quote : Char) (c : Cursor) : Option ScalarRead := quotedRest quote false c.skip

end ChipEight.Yaml
