/-!
# Edges

An edge is a directed connection between two node ids, as a diagram draws it.
-/

namespace DiagramReadability

inductive Arrow where
  | solid
  | dotted
  | thick
  | bidirectional
deriving Repr, DecidableEq

def Arrow.name : Arrow → String
  | .solid => "solid"
  | .dotted => "dotted"
  | .thick => "thick"
  | .bidirectional => "bidirectional"

def Arrow.ofName? (name : String) : Option Arrow :=
  [Arrow.solid, .dotted, .thick, .bidirectional].find? (·.name = name)

structure Edge where
  source : String
  target : String
  label : Option String := none
  arrow : Arrow := .solid
deriving Repr, DecidableEq

/-- The node that an anonymous start marker stands for. -/
def startNode : String := "__START__"

/-- The node that an anonymous end marker stands for. -/
def endNode : String := "__END__"

end DiagramReadability
