import ChipEight.Decimal.Shortest
import ChipEight.Mismatch
import ChipEight.Yaml.ScalarText
import ChipEight.Yaml.Token

/-!
# Values of scalars

What a scalar means. A quoted scalar is always a string; a plain one may be nothing, a truth value
or a number, written in one of the forms that the core schema of YAML has for them.
-/

set_option autoImplicit false

namespace ChipEight.Yaml

inductive Value
  /-- A plain scalar without text. -/
  | empty
  | null
  | boolean (b : Bool)
  /-- A number without a minus sign. -/
  | natural (n : Nat)
  /-- A number with a minus sign: the negative of `n`, which may be zero. -/
  | negative (n : Nat)
  /-- A floating-point number in its shortest decimal form. -/
  | real (digits : String)
  | string
deriving DecidableEq, Repr

namespace Value

/-- A number behind one of the marks for the bases two, eight and sixteen. -/
def based? (cs : List Char) : Option Nat :=
  match cs with
  | '0' :: 'x' :: digits => number? 16 digits
  | '0' :: 'o' :: digits => number? 8 digits
  | '0' :: 'b' :: digits => number? 2 digits
  | _ => none

/-- A decimal number, without needless zeros in front. -/
def decimal? (cs : List Char) : Option Nat :=
  match cs with
  | '0' :: _ :: _ => none
  | cs => number? 10 cs

def magnitude? (cs : List Char) : Option Nat := based? cs <|> decimal? cs

/-- An integer of at most 128 bits. -/
def integer? (cs : List Char) : Option Value :=
  match cs with
  | '-' :: cs => (magnitude? cs).bind fun n => if n ≤ 1 <<< 127 then some (negative n) else none
  | '+' :: cs => (magnitude? cs).bind fun n => if n < 1 <<< 128 then some (natural n) else none
  | cs => (magnitude? cs).bind fun n => if n < 1 <<< 128 then some (natural n) else none

/-- An exponent, with its mark, or zero where there is none. -/
def exponent? (cs : List Char) : Option Int :=
  match cs with
  | [] => some 0
  | c :: cs =>
    if c == 'e' || c == 'E' then
      match cs with
      | '-' :: cs => (number? 10 cs).map fun n => -n
      | '+' :: cs => (number? 10 cs).map Int.ofNat
      | cs => (number? 10 cs).map Int.ofNat
    else none

/-- A floating-point number without a sign. -/
def unsignedReal? (cs : List Char) : Option Binary64 := do
  let whole := cs.takeWhile Char.isDigit
  let rest := cs.dropWhile Char.isDigit
  let (fraction, rest) :=
    match rest with
    | '.' :: rest => (rest.takeWhile Char.isDigit, rest.dropWhile Char.isDigit)
    | rest => ([], rest)
  let digits ← number? 10 (whole ++ fraction)
  Binary64.ofDecimal? digits ((← exponent? rest) - fraction.length)

/-- The digits of a finite floating-point number. -/
def finite? (cs : List Char) : Option String :=
  match cs with
  | '-' :: cs => (unsignedReal? cs).map fun x => "-" ++ x.text
  | '+' :: cs => (unsignedReal? cs).map (·.text)
  | cs => (unsignedReal? cs).map (·.text)

def isInfinity (s : String) : Bool := s == ".inf" || s == ".Inf" || s == ".INF"

/-- The digits of a floating-point number, or the name of one that is not finite. -/
def real? (s : String) : Option String :=
  let unsigned := if s.startsWith "+" then String.ofList (s.toList.drop 1) else s
  if isInfinity unsigned then some "inf"
  else if s.startsWith "-" && isInfinity (String.ofList (s.toList.drop 1)) then some "-inf"
  else if s == ".nan" || s == ".NaN" || s == ".NAN" then some "NaN"
  else finite? s.toList

/-- Whether a text is digits with needless zeros in front, which make it a string. -/
def isPadded (cs : List Char) : Bool :=
  let digits := if cs.head? == some '-' || cs.head? == some '+' then cs.tail else cs
  1 < digits.length && digits.head? == some '0' && digits.all Char.isDigit

/-- The value of a plain scalar. -/
def ofPlain (s : String) : Value :=
  match s with
  | "" => .empty
  | "~" | "null" | "Null" | "NULL" => .null
  | "true" | "True" | "TRUE" => .boolean true
  | "false" | "False" | "FALSE" => .boolean false
  | s =>
    if isPadded s.toList then .string
    else (integer? s.toList).getD ((real? s).elim .string .real)

/-- An integer, as a report shows it. -/
def foundInteger (n : Int) : Found :=
  if -0x8000000000000000 ≤ n ∧ n < 0x10000000000000000 then .integer n else .wideInteger n

end Value

namespace Scalar

def value (s : Scalar) : Value := if s.plain then .ofPlain s.text else .string

/-- The scalar, as a report shows it. -/
def found (s : Scalar) : Found :=
  match s.value with
  | .empty | .null => .unit
  | .boolean b => .boolean b
  | .natural n => Value.foundInteger n
  | .negative n => Value.foundInteger (-n)
  | .real digits => .real digits
  | .string => .string s.text

end Scalar

end ChipEight.Yaml
