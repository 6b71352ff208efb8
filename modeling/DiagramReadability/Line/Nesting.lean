import DiagramReadability.Text.Lines

/-!
# Nesting inside a line

Quotes, pipes and brackets hide what stands between them: a semicolon there ends no statement and
an id there is no node.  One small state tells, character by character, whether the scan is outside
all of them.
-/

namespace DiagramReadability.Line

open DiagramReadability.Text

def isOpener (c : Char) : Bool :=
  c = '[' || c = '(' || c = '\x7b'

def isCloser (c : Char) : Bool :=
  c = ']' || c = ')' || c = '\x7d'

/-- What a scan from the left has opened and not yet closed. -/
structure Nesting where
  depth : Nat := 0
  quoted : Bool := false
  piped : Bool := false
deriving Repr, DecidableEq

def Nesting.start : Nesting := {}

def Nesting.isOutside (n : Nesting) : Bool :=
  n.depth = 0 && !n.quoted && !n.piped

/-- The state after one more character.  Between quotes only a quote counts, and a closing bracket
with nothing to close is ordinary text. -/
def Nesting.step (n : Nesting) (c : Char) : Nesting :=
  if c = '"' then { n with quoted := !n.quoted }
  else if n.quoted then n
  else if c = '|' then { n with piped := !n.piped }
  else if isOpener c then { n with depth := n.depth + 1 }
  else if isCloser c then { n with depth := n.depth - 1 }
  else n

def Nesting.run (n : Nesting) (s : List Char) : Nesting :=
  s.foldl Nesting.step n

/-- Cuts a text at the semicolons that stand outside, starting from a given state. -/
def piecesFrom (n : Nesting) : List Char → List (List Char)
  | [] => [[]]
  | c :: rest =>
      if c = ';' && n.isOutside then [] :: piecesFrom n rest
      else consFirst c (piecesFrom (n.step c) rest)

def pieces (line : List Char) : List (List Char) :=
  piecesFrom .start line

/-- The statements of a line: its pieces that are not blank. -/
def statements (line : List Char) : List (List Char) :=
  (pieces line).filter fun piece => !allBlank piece

end DiagramReadability.Line
