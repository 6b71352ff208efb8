/-!
# Kinds of numbers

A setting or a size is a whole number or a real one.
-/

namespace DiagramReadability

inductive NumberKind where
  | whole
  | real
deriving Repr, DecidableEq

abbrev NumberKind.Value : NumberKind → Type
  | .whole => Int
  | .real => Float

def NumberKind.word : NumberKind → String
  | .whole => "int"
  | .real => "float"

end DiagramReadability
