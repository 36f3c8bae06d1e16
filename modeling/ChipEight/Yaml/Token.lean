/-!
# Tokens

The pieces that the reader (`ChipEight.Yaml.Reader`) finds a text to be made of. Indentation shows
in the tokens that open and close block collections.
-/

set_option autoImplicit false

namespace ChipEight.Yaml

/-- A scalar: its text, and whether its type shows in the text, as it does where the scalar stands
without quotes and nothing else says what it is. -/
structure Scalar where
  text : String
  plain : Bool
deriving DecidableEq, Repr

inductive Token
  | documentStart
  | documentEnd
  | blockSequenceStart
  | blockMappingStart
  | blockEnd
  | flowSequenceStart
  | flowSequenceEnd
  | flowMappingStart
  | flowMappingEnd
  /-- The dash before an item. -/
  | blockEntry
  /-- The comma between items. -/
  | flowEntry
  | key
  | value
  | scalar (s : Scalar)
  | streamEnd
  /-- The rest of the text has no tokens. -/
  | invalid
deriving DecidableEq, Repr

/-- The scalar that stands where a value is left out. -/
def Scalar.absent : Scalar := ⟨"", true⟩

end ChipEight.Yaml
