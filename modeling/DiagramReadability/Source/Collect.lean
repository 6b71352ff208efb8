import DiagramReadability.Source.Diagram
import DiagramReadability.Source.FileSystem
import DiagramReadability.Text.LetterCase

/-!
# Collecting diagrams

The arguments of a run name files and directories.  A directory stands for all diagram files below
it, in the order of their paths, and no file is taken twice, whatever paths lead to it.
-/

namespace DiagramReadability

open DiagramReadability.Text

inductive ReadError where
  | isDirectory
  | notUtf8
  | missing
deriving Repr, DecidableEq

def ReadError.name : ReadError → String
  | .isDirectory => "IsADirectoryError"
  | .notUtf8 => "UnicodeDecodeError"
  | .missing => "FileNotFoundError"

inductive Skipped where
  | missing (path : Path)
  | unreadable (path : Path) (cause : ReadError)
deriving Repr, DecidableEq

def Skipped.message : Skipped → String
  | .missing path => "Skipping " ++ path.toString ++ ": no such file or directory"
  | .unreadable path cause => "Skipping " ++ path.toString ++ ": " ++ cause.name

namespace Source

def isWanted (name : String) : Bool :=
  name.endsWith ".mmd" || name.endsWith ".md"

/-- The paths of everything below a directory whose name is wanted, in order. -/
def wantedBelow (fs : FileSystem) (p : Path) (location : List String) : List Path :=
  let found := (fs.namesBelow location).filter fun names => (names.getLast?).any isWanted
  (found.mergeSort Path.namesLe).map p.below

def expand? (fs : FileSystem) (p : Path) : Option (List Path) :=
  (fs.locate? p).bind fun location =>
    (fs.at? location).map fun entry =>
      match entry with
      | .directory => wantedBelow fs p location
      | .file _ => [p]

/-- The first path to each location. -/
def distinct (fs : FileSystem) (seen : List (Option (List String))) : List Path → List Path
  | [] => []
  | p :: rest =>
      let location := fs.locate? p
      if seen.contains location then distinct fs seen rest
      else p :: distinct fs (location :: seen) rest

def collect (fs : FileSystem) (args : List String) : List Path :=
  distinct fs [] ((args.map Path.ofString).flatMap fun p => (expand? fs p).getD [])

def missing (fs : FileSystem) (args : List String) : List Skipped :=
  ((args.map Path.ofString).filter fun p => (expand? fs p).isNone).map .missing

def decodeText (content : ByteArray) : Option String :=
  (String.fromUTF8? content).map fun text => String.ofList (unifyNewlines text.toList)

def readText (fs : FileSystem) (p : Path) : Except ReadError String :=
  match fs.find? p with
  | some (.file content) =>
      match decodeText content with
      | some text => .ok text
      | none => .error .notUtf8
  | some .directory => .error .isDirectory
  | none => .error .missing

def isMarkdown (p : Path) : Bool :=
  [".md", ".markdown"].contains (lowerText p.suffix)

def diagramsOf (p : Path) (text : String) : List Diagram :=
  if isMarkdown p then fencedDiagrams text p.toString else [⟨text, p.toString, 1⟩]

def load (fs : FileSystem) (p : Path) : Except Skipped (List Diagram) :=
  match readText fs p with
  | .ok text => .ok (diagramsOf p text)
  | .error cause => .error (.unreadable p cause)

def loadedDiagrams : Except Skipped (List Diagram) → List Diagram
  | .ok diagrams => diagrams
  | .error _ => []

def passedOver? : Except Skipped (List Diagram) → Option Skipped
  | .ok _ => none
  | .error skipped => some skipped

/-- All that some arguments stand for: each file with its diagrams, and what was passed over, absent
paths first. -/
def gather (fs : FileSystem) (args : List String) : List (Path × List Diagram) × List Skipped :=
  let loaded := (collect fs args).map fun p => (p, load fs p)
  (loaded.map fun (p, result) => (p, loadedDiagrams result),
    missing fs args ++ loaded.filterMap fun (_, result) => passedOver? result)

end Source

end DiagramReadability
