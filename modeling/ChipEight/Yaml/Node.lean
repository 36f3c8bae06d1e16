import ChipEight.Yaml.Token

/-!
# Nodes

What a reader of YAML makes of a text: a document, whose root is a tree of scalars, sequences and
mappings. A reader takes a text from its beginning to its end, so what it has of a broken text is a
tree that ends with `Node.cut` where the text breaks off. `Node.isWhole` says that nothing is cut.
-/

set_option autoImplicit false

namespace ChipEight.Yaml

inductive Node
  | scalar (s : Scalar)
  | sequence (items : List Node)
  | mapping (entries : List (Node × Node))
  /-- The text breaks off here. -/
  | cut
deriving Repr

namespace Node

mutual

/-- Whether no part of the tree is missing. -/
def isWhole : Node → Bool
  | .scalar _ => true
  | .sequence items => allWhole items
  | .mapping entries => entriesWhole entries
  | .cut => false

def allWhole : List Node → Bool
  | [] => true
  | n :: ns => n.isWhole && allWhole ns

def entriesWhole : List (Node × Node) → Bool
  | [] => true
  | (k, v) :: entries => k.isWhole && v.isWhole && entriesWhole entries

end

end Node

/-- A document: its root, or nothing in an empty text, and whether the text went on properly to its
end after it. -/
structure Document where
  root : Option Node
  ended : Bool

end ChipEight.Yaml
