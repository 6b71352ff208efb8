import DiagramReadability.Statement.Edges

/-!
# Node labels

A node is given a label by writing it in brackets of one of three forms right after the id.  The
first definition of a node that leaves some text counts.
-/

namespace DiagramReadability

open DiagramReadability.Text

namespace Label

/-! ## Definitions in the text -/

inductive Bracket where
  | square
  | curly
  | round
deriving Repr, DecidableEq

def Bracket.opening : Bracket → List Char
  | .square => ['[']
  | .curly => ['\x7b']
  | .round => ['(', '(']

def Bracket.stop : Bracket → Char
  | .square => ']'
  | .curly => '\x7d'
  | .round => ')'

def Bracket.closing : Bracket → List Char
  | .square => [']']
  | .curly => ['\x7d']
  | .round => [')', ')']

/-- A label as it is written, with the place of its definition in the text. -/
structure Definition where
  offset : Nat
  id : List Char
  raw : List Char
deriving Repr, DecidableEq

/-- Reads an id and a label in brackets: the id, the label and the text after the definition. -/
def readDefinition? (b : Bracket) (s : List Char) :
    Option (List Char × List Char × List Char) :=
  (Statement.readId? s).bind fun (id, rest) =>
    (after? b.opening rest).bind fun inside =>
      let raw := inside.takeWhile (· ≠ b.stop)
      if raw.isEmpty then none
      else (after? b.closing (inside.dropWhile (· ≠ b.stop))).map fun after => (id, raw, after)

/-- The definitions with one form of brackets from the place `offset` on.  Definitions do not
overlap: `skip` characters of the one before are still to come. -/
def definitionsFrom (b : Bracket) (offset skip : Nat) : List Char → List Definition
  | [] => []
  | c :: rest =>
      match skip with
      | skip + 1 => definitionsFrom b (offset + 1) skip rest
      | 0 =>
          match readDefinition? b (c :: rest) with
          | some (id, raw, after) =>
              ⟨offset, id, raw⟩ ::
                definitionsFrom b (offset + 1) (rest.length - after.length) rest
          | none => definitionsFrom b (offset + 1) 0 rest

def definitions (text : List Char) : List Definition :=
  ([Bracket.square, .curly, .round].flatMap fun b => definitionsFrom b 0 0 text).mergeSort
    fun a b => a.offset ≤ b.offset

/-! ## The text of a label -/

def opensInner (c : Char) : Bool :=
  Line.isOpener c || c = '/' || c = '\\'

def closesInner (c : Char) : Bool :=
  Line.isCloser c || c = '/' || c = '\\'

def dropInnerShape (s : List Char) : List Char :=
  let inner := s.dropWhile opensInner
  if inner.length < s.length then dropEndWhile closesInner inner else s

def unquote (s : List Char) : List Char :=
  match s with
  | first :: second :: rest =>
      if first = '"' && (second :: rest).getLast? = some '"' then (second :: rest).dropLast else s
  | _ => s

def clean (raw : List Char) : List Char :=
  trim (unquote (trim (dropInnerShape (trim raw))))

/-- The text of a diagram with its comment lines left empty. -/
def bodyOf (content : List Char) : List Char :=
  unlines ((lines content).map fun line => if Line.kind line = .comment then [] else line)

/-- The first definition with some text of each id, as pairs of id and text; the ids in `seen` have
theirs already. -/
def firstLabels (seen : List (List Char)) : List Definition → List (List Char × List Char)
  | [] => []
  | d :: rest =>
      let label := clean d.raw
      if seen.contains d.id || label.isEmpty then firstLabels seen rest
      else (d.id, label) :: firstLabels (d.id :: seen) rest

/-! ## The length of a label -/

def afterBreak? (s : List Char) : Option (List Char) :=
  match s with
  | '\n' :: rest => some rest
  | '<' :: b :: r :: rest =>
      if (b = 'b' || b = 'B') && (r = 'r' || r = 'R') then
        match trimStart rest with
        | '/' :: '>' :: after => some after
        | '>' :: after => some after
        | _ => none
      else none
  | _ => none

/-- The lines of a label; `skip` characters of a break are still to come. -/
def labelLines (skip : Nat) : List Char → List (List Char)
  | [] => [[]]
  | c :: rest =>
      match skip with
      | skip + 1 => labelLines skip rest
      | 0 =>
          match afterBreak? (c :: rest) with
          | some after => [] :: labelLines (rest.length - after.length) rest
          | none => consFirst c (labelLines 0 rest)

/-- The number of characters in the widest line of a label. -/
def effectiveLength (label : List Char) : Nat :=
  ((labelLines 0 label).map fun line => (trim line).length).foldl max 0

end Label

structure LabelStats where
  labels : List (String × String)
  meanLength : Int
  maxLength : Int
deriving Repr, DecidableEq

/-- The mean of some lengths, a half rounded up. -/
def roundedMean (lengths : List Nat) : Nat :=
  (2 * lengths.foldl (· + ·) 0 + lengths.length) / (2 * lengths.length)

def labelStats? (content : String) : Option LabelStats :=
  let labels := Label.firstLabels [] (Label.definitions (Label.bodyOf content.toList))
  if labels.isEmpty then none
  else
    let lengths := labels.map fun (_, label) => Label.effectiveLength label
    some {
      labels := labels.map fun (id, label) => (String.ofList id, String.ofList label)
      meanLength := roundedMean lengths
      maxLength := (lengths.foldl max 0 : Nat) }

end DiagramReadability
