import DiagramReadability.Direction
import DiagramReadability.Text.WordChar

/-!
# Kinds of lines

Each line, or each statement of a line, is told apart by how it begins.  Whatever matches nothing
else counts as a statement, and may or may not turn out to hold a connection.
-/

namespace DiagramReadability.Line

open DiagramReadability.Text

inductive Kind where
  | blank
  | comment
  | header
  | direction
  | blockOpen
  | blockClose
  | style
  | statement
deriving Repr, DecidableEq

def Kind.name : Kind → String
  | .blank => "blank"
  | .comment => "comment"
  | .header => "header"
  | .direction => "direction"
  | .blockOpen => "block_open"
  | .blockClose => "block_close"
  | .style => "style"
  | .statement => "statement"

/-- The rest of a text after blanks, at least one, and then `word`. -/
def afterBlanks? (word : String) (s : List Char) : Option (List Char) :=
  if startsBlank s then after? word.toList (trimStart s) else none

def plainHeaders : List String :=
  ["graph", "flowchart", "stateDiagram", "stateDiagram-v2", "sequenceDiagram", "classDiagram",
   "classDiagram-v2", "erDiagram", "gantt", "journey", "mindmap", "timeline", "pie"]

/-- What may follow a pie chart's keyword: nothing, or a title on the same line. -/
def isPieTail (s : List Char) : Bool :=
  s.isEmpty ||
    match afterBlanks? "title" s with
    | some (c :: title) => isBlank c && !title.contains '\n'
    | _ => false

def isPieHeader (s : List Char) : Bool :=
  match after? "pie".toList s with
  | some rest => isPieTail rest || (afterBlanks? "showData" rest).any isPieTail
  | none => false

def isHeader (s : List Char) : Bool :=
  plainHeaders.any (·.toList = s) || (Direction.ofHeader? s).isSome || isPieHeader s

def opensSubgraph (s : List Char) : Bool :=
  match after? "subgraph".toList s with
  | some (c :: _) => !isWord c
  | some [] => true
  | none => false

/-- Whether `s` opens a composite state: its keyword, and a brace at the end of the same line. -/
def opensState (s : List Char) : Bool :=
  match after? "state".toList s with
  | some rest =>
      startsBlank rest && !(trimStart rest).contains '\n' && rest.getLast? = some '\x7b'
  | none => false

def closesBlock (s : List Char) : Bool :=
  s = "end".toList || s = ['\x7d']

def styleKeywords : List String :=
  ["classDef", "class", "style", "linkStyle", "click", "note"]

def opensConnection (c : Char) : Bool :=
  c = '-' || c = '=' || c = '<' || c = '.' || c = '&'

/-- Whether what follows a keyword makes it a styling line and not a node of that name. -/
def isStyleTail (s : List Char) : Bool :=
  startsBlank s &&
    match trimStart s with
    | c :: _ => !opensConnection c
    | [] => false

def isStyle (s : List Char) : Bool :=
  styleKeywords.any fun keyword => (after? keyword.toList s).any isStyleTail

def isComment (s : List Char) : Bool :=
  (after? "%%".toList s).isSome

def kindOfTrimmed (s : List Char) : Kind :=
  if s.isEmpty then .blank
  else if isComment s then .comment
  else if isHeader s then .header
  else if (Direction.ofDirective? s).isSome then .direction
  else if opensSubgraph s || opensState s then .blockOpen
  else if closesBlock s then .blockClose
  else if isStyle s then .style
  else .statement

def kind (line : List Char) : Kind :=
  kindOfTrimmed (trim line)

theorem isComment_of_kind {line : List Char} (h : kind line = .comment) :
    isComment (trim line) = true := by
  cases hcomment : isComment (trim line) with
  | true => rfl
  | false =>
      unfold kind kindOfTrimmed at h
      rw [hcomment, if_neg Bool.false_ne_true] at h
      repeat (split at h; · contradiction)
      contradiction

end DiagramReadability.Line
