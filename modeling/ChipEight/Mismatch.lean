import ChipEight.Key
import ChipEight.Text.Quoted

/-!
# Mismatches

Reports of values that are not what their reader expects: of the wrong type, out of range, missing,
or given twice.
-/

set_option autoImplicit false

namespace ChipEight

/-- What a reader found. -/
inductive Found
  | integer (n : Int)
  /-- An integer beyond 64 bits. -/
  | wideInteger (n : Int)
  /-- A number with a fraction or an exponent, in its shortest decimal form. -/
  | real (digits : String)
  | boolean (b : Bool)
  | string (s : String)
  | unit
  | sequence
  | mapping
deriving DecidableEq, Repr

def Found.text : Found → String
  | integer n => "integer `" ++ toString n ++ "`"
  | wideInteger n => "integer `" ++ toString n ++ if 0 ≤ n then "` as u128" else "` as i128"
  | real digits => "floating point `" ++ digits ++ "`"
  | boolean b => "boolean `" ++ toString b ++ "`"
  | string s => "string " ++ Quoted.text s
  | unit => "unit value"
  | sequence => "sequence"
  | mapping => "map"

inductive Mismatch
  | type (found : Found) (expected : String)
  | value (found : Found) (expected : String)
  | missing (field : String)
  | duplicate (field : String)
deriving DecidableEq, Repr

def Mismatch.text : Mismatch → String
  | type found expected => "invalid type: " ++ found.text ++ ", expected " ++ expected
  | value found expected => "invalid value: " ++ found.text ++ ", expected " ++ expected
  | missing field => "missing field `" ++ field ++ "`"
  | duplicate field => "duplicate field `" ++ field ++ "`"

namespace Key

/-- What a reader of keys expects. -/
def expectation : String := "an integer key code between 0 and 15"

/-- The key with a signed code. -/
def ofInt64 (v : Int64) : Except Mismatch Key :=
  if 0 ≤ v ∧ v < 16 then
    match ofByte? v.toUInt64.toUInt8 with
    | some k => .ok k
    | none => .error (.value (.integer v.toInt) rangeMessage)
  else .error (.value (.integer v.toInt) rangeMessage)

/-- The key with an unsigned code. The range is checked before the code is taken as a signed
number, so that none above `2 ^ 63` appears negative. -/
def ofUInt64 (v : UInt64) : Except Mismatch Key :=
  if 16 ≤ v then .error (.value (.integer v.toNat) rangeMessage) else ofInt64 v.toInt64

end Key

end ChipEight
