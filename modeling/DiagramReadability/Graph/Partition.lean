import DiagramReadability.Graph.Basic

/-!
# Classes of connected nodes

The classes of the nodes under being joined by edges in either direction, built by merging the
classes of the two ends of each edge, and the number of independent paths that follows from them.
-/

namespace DiagramReadability.Graph

def merge (a b : String) (classes : List (List String)) : List (List String) :=
  let (joined, others) := classes.partition fun c => c.contains a || c.contains b
  joined.flatten :: others

def connectedClasses (g : Graph) : List (List String) :=
  g.edges.foldl (fun classes e => merge e.source e.target classes) (g.nodes.map ([·]))

/-- The cyclomatic complexity: edges less nodes plus two for every connected class. -/
def cyclomaticComplexity (g : Graph) : Int :=
  if g.isEmpty then 0
  else g.edges.length - g.nodes.length + 2 * g.connectedClasses.length

end DiagramReadability.Graph
