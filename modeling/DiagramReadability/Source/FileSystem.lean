import DiagramReadability.Source.Path

/-!
# File systems

What an analysis can see of the files: every file and directory by its location, which is the list
of names that leads to it from the top.
-/

namespace DiagramReadability

inductive FileEntry where
  | file (content : ByteArray)
  | directory

/-- The files and directories below the top, and the directory in which relative paths begin. -/
structure FileSystem where
  workingDirectory : List String := []
  entries : List (List String × FileEntry) := []

namespace FileSystem

def at? (fs : FileSystem) (location : List String) : Option FileEntry :=
  if location.isEmpty then some .directory else fs.entries.lookup location

def isDirectoryAt (fs : FileSystem) (location : List String) : Bool :=
  match fs.at? location with
  | some .directory => true
  | _ => false

def add (fs : FileSystem) (location : List String) (entry : FileEntry) : FileSystem :=
  match fs.at? location with
  | some _ => fs
  | none => { fs with entries := fs.entries ++ [(location, entry)] }

def addDirectories (fs : FileSystem) (location : List String) : (names : List String) → FileSystem
  | [] => fs
  | name :: names =>
      (fs.add (location ++ [name]) .directory).addDirectories (location ++ [name]) names

def step? (fs : FileSystem) (location : List String) (name : String) : Option (List String) :=
  if !fs.isDirectoryAt location then none
  else if name = ".." then some location.dropLast
  else (fs.at? (location ++ [name])).map fun _ => location ++ [name]

/-- The location at which a path ends, if everything on the way exists. -/
def locate? (fs : FileSystem) (p : Path) : Option (List String) :=
  p.names.foldlM fs.step? (if p.root = "" then fs.workingDirectory else [])

def find? (fs : FileSystem) (p : Path) : Option FileEntry :=
  (fs.locate? p).bind fs.at?

/-- The locations strictly below a directory, as the names that lead there from it. -/
def namesBelow (fs : FileSystem) (location : List String) : List (List String) :=
  fs.entries.filterMap fun (other, _) =>
    if location.isPrefixOf other && location.length < other.length then
      some (other.drop location.length)
    else none

def addDirectoryAt (fs : FileSystem) (path : String) : FileSystem :=
  fs.addDirectories fs.workingDirectory (Path.ofString path).names

/-- Adds a file at a path below the working directory, with all directories on the way.  A file that
is there already is replaced. -/
def addFileAt (fs : FileSystem) (path : String) (content : ByteArray) : FileSystem :=
  let names := (Path.ofString path).names
  let location := fs.workingDirectory ++ names
  let fs := fs.addDirectories fs.workingDirectory names.dropLast
  { fs with
    entries := fs.entries.filter (fun e => e.1 ≠ location) ++ [(location, .file content)] }

end FileSystem

end DiagramReadability
