import DiagramReadability.Direction

/-!
# Diagrams in documents

A diagram is a text with the place that it comes from.  A Markdown document holds one in every
fenced block whose language is `mermaid`; the closing fence has at least as many backticks as the
opening one.
-/

namespace DiagramReadability

open DiagramReadability.Text

structure Diagram where
  content : String
  filePath : String
  line : Int := 1
deriving Repr, DecidableEq

def Diagram.direction? (d : Diagram) : Option Direction :=
  Direction.declared? d.content

namespace Fence

def mark : Char := '\x60'

def language : List Char := "mermaid".toList

/-- The number of marks in the fence that opens a diagram, if the line is one. -/
def opening? (line : List Char) : Option Nat :=
  let s := trim line
  let marks := (s.takeWhile (· = mark)).length
  if 3 ≤ marks && s.dropWhile (· = mark) = language then some marks else none

/-- The number of marks in a fence without a language, if the line is one. -/
def closing? (line : List Char) : Option Nat :=
  let s := trim line
  if 3 ≤ s.length && s.all (· = mark) then some s.length else none

/-- A block whose end has not been seen: the marks of its fence, the line it began on, and its
lines so far, the last one first. -/
structure Block where
  marks : Nat
  start : Nat
  body : List (List Char)
deriving Repr, DecidableEq

def Block.diagram (b : Block) (filePath : String) : Diagram :=
  ⟨String.ofList (unlines b.body.reverse), filePath, b.start⟩

/-- The diagrams in the lines from line `number` on, given the block that is still open. -/
def diagramsFrom (filePath : String) (number : Nat) :
    Option Block → List (List Char) → List Diagram
  | _, [] => []
  | none, line :: rest =>
      diagramsFrom filePath (number + 1)
        ((opening? line).map fun marks => ⟨marks, number, []⟩) rest
  | some block, line :: rest =>
      if (closing? line).any (block.marks ≤ ·) then
        block.diagram filePath :: diagramsFrom filePath (number + 1) none rest
      else
        diagramsFrom filePath (number + 1) (some { block with body := line :: block.body }) rest

end Fence

/-- The diagrams in a Markdown document; a block that is never closed holds none. -/
def fencedDiagrams (text filePath : String) : List Diagram :=
  Fence.diagramsFrom filePath 1 none (lines text.toList)

end DiagramReadability
