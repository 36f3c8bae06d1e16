import ChipEight.Text.Unprintable

/-!
# Quoted text

A string between double quotes, as error messages show it. Quotes, backslashes and the usual
controls are written with a backslash, and unprintable characters by their number in braces.
-/

set_option autoImplicit false

namespace ChipEight.Quoted

/-- How one character is written between quotes. -/
def escape (c : Char) : List Char :=
  match c with
  | '"' => ['\\', '"']
  | '\\' => ['\\', '\\']
  | '\n' => ['\\', 'n']
  | '\r' => ['\\', 'r']
  | '\t' => ['\\', 't']
  | '\x00' => ['\\', '0']
  | c =>
    if Unprintable.contains c then
      ['\\', 'u', '\x7b'] ++ Nat.toDigits 16 c.toNat ++ ['\x7d']
    else [c]

/-- A string in quotes. -/
def text (s : String) : String := String.ofList ('"' :: s.toList.flatMap escape ++ ['"'])

end ChipEight.Quoted
