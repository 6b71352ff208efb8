import DiagramReadability.Line.Kind
import DiagramReadability.Statement.Chain

/-!
# The edges of a text

A statement gives the edges of the first chain in it that has a link.  The edges of a diagram are
those of its statements, line by line; all that is no connection is passed over.
-/

namespace DiagramReadability

open DiagramReadability.Text

namespace Statement

/-- The id under which a node is a source: an anonymous marker there is a start. -/
def Node.sourceId : Node → String
  | .marker => startNode
  | .named id => String.ofList id

/-- The id under which a node is a target: an anonymous marker there is an end. -/
def Node.targetId : Node → String
  | .marker => endNode
  | .named id => String.ofList id

/-- The texts from each node name on that stands outside quotes, pipes and brackets.  Names do not
overlap: `skip` characters of the one before are still to come. -/
def nodeStartsFrom (n : Line.Nesting) (skip : Nat) : List Char → List (List Char)
  | [] => []
  | c :: rest =>
      match skip, nodeNameLength (c :: rest) with
      | skip + 1, _ => nodeStartsFrom (n.step c) skip rest
      | 0, 0 => nodeStartsFrom (n.step c) 0 rest
      | 0, length + 1 =>
          let later := nodeStartsFrom (n.step c) length rest
          if n.isOutside then (c :: rest) :: later else later

def nodeStarts (text : List Char) : List (List Char) :=
  nodeStartsFrom .start 0 text

/-- The links of the first chain that has any, and the text after it. -/
def firstChain? (text : List Char) : Option (List Link × List Char) :=
  (nodeStarts text).findSome? fun start =>
    let (links, rest) := readChain start
    if links.isEmpty then none else some (links, rest)

def colonLabel? (rest : List Char) : Option (List Char) :=
  match trim rest with
  | c :: label => if c = ':' then nonempty? (trim label) else none
  | [] => none

/-- The edges of one link: its own, and the opposite one if it points both ways. -/
def Link.edges (colon : Option (List Char)) (link : Link) : List Edge :=
  let source := link.source.sourceId
  let target := link.target.targetId
  let label := (link.label.or colon).map String.ofList
  let edge : Edge := ⟨source, target, label, link.arrow⟩
  if link.arrow = .bidirectional then [edge, ⟨target, source, label, link.arrow⟩] else [edge]

def edgesOf (text : List Char) : List Edge :=
  match firstChain? text with
  | some (links, rest) => links.flatMap (Link.edges (colonLabel? rest))
  | none => []

end Statement

def lineEdges (line : List Char) : List Edge :=
  if Line.kind line = .comment then []
  else
    (Line.statements line).flatMap fun part =>
      if Line.kind part = .statement then Statement.edgesOf part else []

def statementEdges (text : String) : List Edge :=
  Statement.edgesOf text.toList

def extractEdges (content : String) : List Edge :=
  (lines content.toList).flatMap lineEdges

end DiagramReadability
