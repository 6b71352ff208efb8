import DiagramReadability.CommandLine.Run

/-!
# The program

Takes a picture of the files and of the environment that a run can see, runs the command line on it
and performs the outcome.
-/

namespace DiagramReadability.Program

def pathOf (location : List String) : String :=
  "/" ++ "/".intercalate location

def addFile (fs : FileSystem) (location : List String) : IO FileSystem := do
  return fs.add location (.file (← IO.FS.readBinFile (pathOf location)))

partial def addBelow (fs : FileSystem) (location : List String) : IO FileSystem := do
  let mut fs := fs
  for entry in ← (System.mkFilePath [pathOf location]).readDir do
    let inner := location ++ [entry.fileName]
    match (← entry.path.symlinkMetadata).type with
    | .dir => fs ← addBelow (fs.add inner .directory) inner
    | .file => if Source.isWanted entry.fileName then fs ← addFile fs inner
    | _ => pure ()
  return fs

partial def addAlong (fs : FileSystem) (location : List String) : List String → IO FileSystem
  | [] => addBelow fs location
  | ".." :: rest => addAlong fs location.dropLast rest
  | name :: rest => do
      let inner := location ++ [name]
      let path := System.mkFilePath [pathOf inner]
      if ← path.isDir then addAlong (fs.add inner .directory) inner rest
      else if ← path.pathExists then addFile fs inner
      else return fs

def addPath (fs : FileSystem) (text : String) : IO FileSystem :=
  let p := Path.ofString text
  addAlong fs (if p.root = "" then fs.workingDirectory else []) p.names

partial def addEnvFiles (fs : FileSystem) (location : List String) : IO FileSystem := do
  let inner := location ++ [".env"]
  let path := System.mkFilePath [pathOf inner]
  let found := (← path.pathExists) && !(← path.isDir)
  let fs ← if found then addFile fs inner else pure fs
  if location.isEmpty then return fs else addEnvFiles fs location.dropLast

def filesFor (texts : List String) : IO FileSystem := do
  let here := (Path.ofString (← IO.currentDir).toString).names
  let fs := ({ workingDirectory := here } : FileSystem).addDirectories [] here
  texts.foldlM addPath (← addEnvFiles fs here)

def keysFor (fs : FileSystem) : List String :=
  let text := ((EnvFile.content? fs none).bind Source.decodeText).getD ""
  (standardKeyStart ++ "PRESET") :: Field.all.map (Field.key standardKeyStart)
    ++ EnvFile.referencedNames text

def environmentFor (fs : FileSystem) : IO Environment :=
  (keysFor fs).filterMapM fun key => do
    return (← IO.getEnv key).map fun value => (key, value)

end DiagramReadability.Program

open DiagramReadability in
def main (texts : List String) : IO UInt32 := do
  let fs ← Program.filesFor texts
  let env ← Program.environmentFor fs
  let outcome := CommandLine.run texts env fs
  for skipped in outcome.warnings do
    IO.eprintln skipped.message
  IO.print outcome.stdout
  IO.eprint outcome.stderr
  match outcome.exit with
  | .ok code => return code.toUInt32
  | .error crash =>
      IO.eprintln crash.message
      return 1
