import DiagramReadability.Statement.Edges

/-!
# Written statements

The grammar of connection statements, apart from any reader: what a statement is made of, how it is
spelled and which edges it stands for.  A piece of a statement carries the proof that it is well
formed, so every value of these types can be written down.
-/

namespace DiagramReadability.Statement.Written

open DiagramReadability.Text
open DiagramReadability.Line (isOpener isCloser)

/-- Blanks, possibly none. -/
abbrev Blanks := {s : List Char // ∀ c ∈ s, isBlank c = true}

/-- One blank or more. -/
abbrev Gap := {s : List Char // s ≠ [] ∧ ∀ c ∈ s, isBlank c = true}

/-! ## Nodes -/

/-- One word character or more. -/
abbrev Word := {s : List Char // s ≠ [] ∧ ∀ c ∈ s, isWord c = true}

/-- Words joined by single hyphens. -/
structure Id where
  first : Word
  more : List Word

def Id.text (id : Id) : List Char :=
  id.first.val ++ id.more.flatMap fun word => '-' :: word.val

/-- The count of brackets, an opening one up and a closing one down, together with whether the scan
is between double quotes, where no bracket counts. -/
def bracketStep (state : Int × Bool) (c : Char) : Int × Bool :=
  if c = '"' then (state.1, !state.2)
  else if state.2 then state
  else if isOpener c then (state.1 + 1, state.2)
  else if isCloser c then (state.1 - 1, state.2)
  else state

/-- The count of brackets in a whole text. -/
def bracketCount (s : List Char) : Int :=
  (s.foldl bracketStep (0, false)).1

/-- A text that opens with a bracket and whose count is back at zero at its end and not before. -/
structure IsBracketed (s : List Char) : Prop where
  opens : ∃ c rest, s = c :: rest ∧ isOpener c = true
  closes : bracketCount s = 0
  not_before : ∀ p, p <+: s → p ≠ [] → p ≠ s → bracketCount p ≠ 0

/-- The shape of a node: brackets with a text, or an asymmetric shape. -/
inductive Shape where
  | bracketed (s : List Char) (h : IsBracketed s)
  | asymmetric (s : List Char) (h : ']' ∉ s)

def Shape.text : Shape → List Char
  | .bracketed s _ => s
  | .asymmetric s _ => '>' :: (s ++ [']'])

/-- How a node is named: by the anonymous marker, or by an id that may have a shape. -/
inductive Name where
  | marker
  | named (id : Id) (shape : Option Shape)

def shapeText : Option Shape → List Char
  | none => []
  | some shape => shape.text

def Name.text : Name → List Char
  | .marker => markerText
  | .named id shape => id.text ++ shapeText shape

/-- The class shorthand of a node, if it has one. -/
def classText : Option Id → List Char
  | none => []
  | some id => ':' :: ':' :: ':' :: id.text

/-- A node with an optional class shorthand. -/
structure Node where
  name : Name
  cls : Option Id

def Node.text (node : Node) : List Char :=
  node.name.text ++ classText node.cls

/-- The id of the node where it is a source. -/
def Node.sourceId (node : Node) : String :=
  match node.name with
  | .marker => startNode
  | .named id _ => String.ofList id.text

/-- The id of the node where it is a target. -/
def Node.targetId (node : Node) : String :=
  match node.name with
  | .marker => endNode
  | .named id _ => String.ofList id.text

/-- A further node of a group, after an ampersand. -/
structure Member where
  before : Blanks
  after : Blanks
  node : Node

def Member.text (m : Member) : List Char :=
  m.before.val ++ '&' :: (m.after.val ++ m.node.text)

/-- One node, or several joined by ampersands. -/
structure Group where
  first : Node
  more : List Member

def Group.text (group : Group) : List Char :=
  group.first.text ++ group.more.flatMap Member.text

def Group.nodes (group : Group) : List Node :=
  group.first :: group.more.map Member.node

/-- The last node of the group. -/
def Group.last (group : Group) : Node :=
  (group.more.map Member.node).getLastD group.first

/-! ## Links -/

/-- The arrows without a text inside; a straight one may be longer by some characters. -/
inductive Spelling where
  | solid (extra : Nat)
  | dotted
  | thick (extra : Nat)
  | solidBoth
  | dottedBoth
  | thickBoth

def Spelling.text : Spelling → List Char
  | .solid extra => List.replicate (extra + 2) '-' ++ ['>']
  | .dotted => ['-', '.', '-', '>']
  | .thick extra => List.replicate (extra + 2) '=' ++ ['>']
  | .solidBoth => ['<', '-', '-', '>']
  | .dottedBoth => ['<', '-', '.', '-', '>']
  | .thickBoth => ['<', '=', '=', '>']

def Spelling.arrow : Spelling → Arrow
  | .solid _ => .solid
  | .dotted => .dotted
  | .thick _ => .thick
  | .solidBoth | .dottedBoth | .thickBoth => .bidirectional

/-- The first half of an arrow with a text inside, which decides how the line is drawn. -/
inductive OpenHalf where
  | solid
  | thick
  | dotted

def OpenHalf.text : OpenHalf → List Char
  | .solid => ['-', '-']
  | .thick => ['=', '=']
  | .dotted => ['-', '.']

def OpenHalf.arrow : OpenHalf → Arrow
  | .solid => .solid
  | .thick => .thick
  | .dotted => .dotted

/-- The second half of an arrow with a text inside. -/
inductive CloseHalf where
  | solid (extra : Nat)
  | thick (extra : Nat)
  | dotted

def CloseHalf.text : CloseHalf → List Char
  | .solid extra => List.replicate (extra + 2) '-' ++ ['>']
  | .thick extra => List.replicate (extra + 2) '=' ++ ['>']
  | .dotted => ['.', '-', '>']

/-- A text that can stand inside an arrow. -/
structure InlineText where
  text : List Char
  ne_nil : text ≠ []
  trimmed : trim text = text
  no_pipe : '|' ∉ text
  no_angle : '>' ∉ text

/-- A text that can stand between pipes. -/
abbrev PipeText := {s : List Char // '|' ∉ s}

/-- A link: an arrow, an arrow with a label between pipes after it, or one with a text inside. -/
inductive Link where
  | plain (spelling : Spelling)
  | piped (spelling : Spelling) (gap : Blanks) (label : PipeText)
  | inline (opening : OpenHalf) (before : Gap) (label : InlineText) (after : Gap)
      (closing : CloseHalf)

def Link.text : Link → List Char
  | .plain spelling => spelling.text
  | .piped spelling gap label => spelling.text ++ (gap.val ++ '|' :: (label.val ++ ['|']))
  | .inline opening before label after closing =>
      opening.text ++ (before.val ++ (label.text ++ (after.val ++ closing.text)))

/-- The label of the link, if it has one that is not blank. -/
def Link.label : Link → Option (List Char)
  | .plain _ => none
  | .piped _ _ label => nonempty? (trim label.val)
  | .inline _ _ label _ _ => some label.text

def Link.arrow : Link → Arrow
  | .plain spelling => spelling.arrow
  | .piped spelling _ _ => spelling.arrow
  | .inline opening _ _ _ _ => opening.arrow

/-! ## Statements -/

/-- A link with the group it leads to. -/
structure Hop where
  before : Blanks
  link : Link
  after : Blanks
  group : Group

def Hop.text (hop : Hop) : List Char :=
  hop.before.val ++ (hop.link.text ++ (hop.after.val ++ hop.group.text))

/-- The group that the last hop leads to, or the one that none leads away from. -/
def lastGroup (sources : Group) (hops : List Hop) : Group :=
  (hops.map Hop.group).getLastD sources

/-- What ends a statement: blanks alone, or a colon and a label. -/
inductive Ending where
  | blank (blanks : Blanks)
  | colon (blanks : Blanks) (label : List Char)

def Ending.text : Ending → List Char
  | .blank blanks => blanks.val
  | .colon blanks label => blanks.val ++ ':' :: label

/-- The colon label, if there is one that is not blank. -/
def Ending.label : Ending → Option (List Char)
  | .blank _ => none
  | .colon _ label => nonempty? (trim label)

/-- A colon that touches a node without a class does not look like a class shorthand of it. -/
def Ending.IsApart (node : Node) : Ending → Prop
  | .blank _ => True
  | .colon blanks label => blanks.val = [] → node.cls = none →
      ∀ c rest, label = ':' :: ':' :: c :: rest → isWord c = false

/-- A connection statement: groups with at least one link between them. -/
structure Chain where
  lead : Blanks
  sources : Group
  hop : Hop
  hops : List Hop
  ending : Ending
  apart : ending.IsApart (lastGroup hop.group hops).last

def Chain.text (chain : Chain) : List Char :=
  chain.lead.val ++ (chain.sources.text ++
    ((chain.hop :: chain.hops).flatMap Hop.text ++ chain.ending.text))

/-- The edges between one source and one target of a link: from the source to the target, and back
if the link points both ways.  The label of the link comes before the colon label. -/
def Link.edges (link : Link) (colon : Option (List Char)) (source target : Node) : List Edge :=
  let label := (link.label.or colon).map String.ofList
  let edge : Edge := ⟨source.sourceId, target.targetId, label, link.arrow⟩
  let back : Edge := ⟨target.targetId, source.sourceId, label, link.arrow⟩
  if link.arrow = .bidirectional then [edge, back] else [edge]

/-- The edges along the hops that follow a group, each from every node of the group before it to
every node of its own. -/
def edgesAlong (colon : Option (List Char)) : Group → List Hop → List Edge
  | _, [] => []
  | sources, hop :: hops =>
      (sources.nodes.flatMap fun s => hop.group.nodes.flatMap fun t => hop.link.edges colon s t) ++
        edgesAlong colon hop.group hops

/-- The edges that a statement stands for. -/
def Chain.edges (chain : Chain) : List Edge :=
  edgesAlong chain.ending.label chain.sources (chain.hop :: chain.hops)

end DiagramReadability.Statement.Written
