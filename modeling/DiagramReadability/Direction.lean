import DiagramReadability.Line.Nesting

/-!
# Layout directions

A diagram declares its direction in its header or in a directive of its own.  The header wins, and
among directives the first one does.
-/

namespace DiagramReadability

open DiagramReadability.Text

inductive Direction where
  | leftRight
  | rightLeft
  | topDown
  | topBottom
  | bottomTop
deriving Repr, DecidableEq

namespace Direction

def name : Direction → String
  | leftRight => "LR"
  | rightLeft => "RL"
  | topDown => "TD"
  | topBottom => "TB"
  | bottomTop => "BT"

def all : List Direction :=
  [leftRight, rightLeft, topDown, topBottom, bottomTop]

def ofToken? (token : List Char) : Option Direction :=
  all.find? fun d => d.name.toList = token.map Char.toUpper

def afterKeyword? (keyword : String) (s : List Char) : Option Direction :=
  match after? keyword.toList s with
  | some rest => if startsBlank rest then ofToken? (trimStart rest) else none
  | none => none

/-- The direction in a header, which has no blanks around it. -/
def ofHeader? (s : List Char) : Option Direction :=
  (afterKeyword? "graph" s).or (afterKeyword? "flowchart" s)

def ofDirective? (s : List Char) : Option Direction :=
  afterKeyword? "direction" s

def candidates (content : List Char) : List (List Char) :=
  (lines content).flatMap fun line => (Line.statements line).map trim

def declared? (content : String) : Option Direction :=
  let found := candidates content.toList
  (found.findSome? ofHeader?).or (found.findSome? ofDirective?)

def horizontalNames : List String :=
  [leftRight.name, rightLeft.name]

def isHorizontalName (layout : String) : Bool :=
  horizontalNames.contains layout

end Direction

end DiagramReadability
