import DiagramReadability.Config.Environment
import DiagramReadability.Source.Collect

/-!
# Environment files

A file of variables adds to an environment what that does not have yet.  A line gives a variable a
value, which may be quoted and then go over several lines; a line that makes no sense is passed
over.  A value may refer to other variables.
-/

namespace DiagramReadability

open DiagramReadability.Text

namespace EnvFile

/-! ## Bindings

A reader returns what it read and the rest, or the text at which it failed. -/

/-- A variable with its value as it is written; without an equals sign it has none. -/
structure Binding where
  key : List Char
  value : Option (List Char)
deriving Repr, DecidableEq

def isInlineBlank (c : Char) : Bool :=
  isBlank c && c ≠ '\n'

def skipInline (s : List Char) : List Char :=
  s.dropWhile isInlineBlank

def dropLine (s : List Char) : List Char :=
  (s.dropWhile (· ≠ '\n')).drop 1

def dropExport (s : List Char) : List Char :=
  match after? "export".toList s with
  | some rest => if (rest.head?).any isInlineBlank then skipInline rest else s
  | none => s

def isKeyChar (c : Char) : Bool :=
  c ≠ '=' && c ≠ '#' && !isBlank c

/-- Reads a key, which may stand between single quotes; a comment has none. -/
def readKey (s : List Char) : Except (List Char) (Option (List Char) × List Char) :=
  match s with
  | '#' :: _ => .ok (none, s)
  | '\'' :: rest =>
      let key := rest.takeWhile (· ≠ '\'')
      match rest.dropWhile (· ≠ '\'') with
      | _ :: after => if key.isEmpty then .error s else .ok (some key, after)
      | [] => .error s
  | _ =>
      let key := s.takeWhile isKeyChar
      if key.isEmpty then .error s else .ok (some key, s.dropWhile isKeyChar)

/-- Splits a text at the quote that closes it.  A quote after a backslash does not, unless no later
one does. -/
def closeQuote? (quote : Char) : List Char → Option (List Char × List Char)
  | [] => none
  | '\\' :: c :: rest =>
      if c = quote then
        match closeQuote? quote rest with
        | some (text, after) => some ('\\' :: c :: text, after)
        | none => some (['\\'], rest)
      else (closeQuote? quote (c :: rest)).map fun (text, after) => ('\\' :: text, after)
  | c :: rest =>
      if c = quote then some ([], rest)
      else (closeQuote? quote rest).map fun (text, after) => (c :: text, after)

def singleEscapes : List (Char × Char) := [('\\', '\\'), ('\'', '\'')]

def doubleEscapes : List (Char × Char) := [
  ('\\', '\\'), ('\'', '\''), ('"', '"'), ('a', '\x07'), ('b', '\x08'), ('f', '\x0c'),
  ('n', '\n'), ('r', '\r'), ('t', '\t'), ('v', '\x0b')]

/-- Replaces the escapes of a table; other backslashes stay. -/
def unescape (escapes : List (Char × Char)) : List Char → List Char
  | [] => []
  | '\\' :: c :: rest =>
      match escapes.lookup c with
      | some meant => meant :: unescape escapes rest
      | none => '\\' :: unescape escapes (c :: rest)
  | c :: rest => c :: unescape escapes rest

/-- The text of a line up to a comment, which begins with a hash sign after blanks. -/
def cutComment : List Char → List Char
  | [] => []
  | c :: rest =>
      if isBlank c && (trimStart rest).head? = some '#' then [] else c :: cutComment rest

def readRight (s : List Char) : Except (List Char) (List Char × List Char) :=
  match s with
  | '\'' :: rest =>
      match closeQuote? '\'' rest with
      | some (text, after) => .ok (unescape singleEscapes text, after)
      | none => .error s
  | '"' :: rest =>
      match closeQuote? '"' rest with
      | some (text, after) => .ok (unescape doubleEscapes text, after)
      | none => .error s
  | _ => .ok (trimEnd (cutComment (s.takeWhile (· ≠ '\n'))), s.dropWhile (· ≠ '\n'))

def readValue (s : List Char) : Except (List Char) (Option (List Char) × List Char) :=
  match s with
  | '=' :: rest => (readRight (skipInline rest)).map fun (value, after) => (some value, after)
  | _ => .ok (none, s)

def skipComment (s : List Char) : List Char :=
  match skipInline s with
  | '#' :: rest => rest.dropWhile (· ≠ '\n')
  | _ => s

def readLineEnd (s : List Char) : Except (List Char) (List Char) :=
  match skipInline s with
  | [] => .ok []
  | '\n' :: rest => .ok rest
  | _ => .error s

def readBinding (s : List Char) : Except (List Char) (Option Binding × List Char) := do
  let (key, s) ← readKey (dropExport s)
  let (value, s) ← readValue (skipInline s)
  let rest ← readLineEnd (skipComment s)
  return (key.map (⟨·, value⟩), rest)

def bindings (text : List Char) : List Binding :=
  match trimStart text with
  | [] => []
  | s =>
      let (binding, rest) :=
        match readBinding s with
        | .ok read => read
        | .error failed => (none, dropLine failed)
      if rest.length < text.length then binding.toList ++ bindings rest else binding.toList
termination_by text.length

/-! ## References between variables -/

/-- Reads a reference after its opening brace: the name, the default and the rest. -/
def readReference? (s : List Char) : Option (List Char × List Char × List Char) :=
  let name := s.takeWhile fun c => c ≠ '\x7d' && c ≠ ':'
  match s.dropWhile fun c => c ≠ '\x7d' && c ≠ ':' with
  | ':' :: '-' :: rest =>
      match rest.dropWhile (· ≠ '\x7d') with
      | _ :: after => some (name, rest.takeWhile (· ≠ '\x7d'), after)
      | [] => none
  | '\x7d' :: after => some (name, [], after)
  | _ => none

inductive Part where
  | literal (c : Char)
  | reference (name fallback : List Char)
deriving Repr, DecidableEq

/-- The parts of a value; `skip` characters of a reference are still to come. -/
def parts (skip : Nat) : List Char → List Part
  | [] => []
  | c :: rest =>
      match skip with
      | skip + 1 => parts skip rest
      | 0 =>
          match (after? ['$', '\x7b'] (c :: rest)).bind readReference? with
          | some (name, fallback, after) =>
              .reference name fallback :: parts (rest.length - after.length) rest
          | none => .literal c :: parts 0 rest

/-- The variables that a file has given values so far, the last one first. -/
abbrev Given := List (String × Option String)

/-- The value of a variable for a reference: what the file has given, or else the environment, or
else the fallback.  A variable that the file left without a value is empty. -/
def referenced (env : Environment) (given : Given) (name fallback : List Char) : List Char :=
  match given.lookup (String.ofList name) with
  | some value => (value.getD "").toList
  | none =>
      match env.get? (String.ofList name) with
      | some value => value.toList
      | none => fallback

def resolve (env : Environment) (given : Given) (value : List Char) : String :=
  String.ofList ((parts 0 value).flatMap fun part =>
    match part with
    | .literal c => [c]
    | .reference name fallback => referenced env given name fallback)

def giveAll (env : Environment) : Given → List Binding → Given
  | given, [] => given
  | given, b :: rest =>
      giveAll env ((String.ofList b.key, b.value.map (resolve env given)) :: given) rest

def values (env : Environment) (text : String) : Given :=
  let given := giveAll env [] (bindings text.toList)
  (given.reverse.map Prod.fst).eraseDups.map fun key => (key, (given.lookup key).getD none)

def referencedNames (text : String) : List String :=
  (bindings text.toList).flatMap fun b =>
    (parts 0 (b.value.getD [])).filterMap fun part =>
      match part with
      | .literal _ => none
      | .reference name _ => some (String.ofList name)

end EnvFile

/-! ## Adding a file to an environment -/

inductive EnvFileError where
  | embeddedNull
  | illegalName
  | notUtf8
deriving Repr, DecidableEq

def EnvFileError.message : EnvFileError → String
  | .embeddedNull => "embedded null byte"
  | .illegalName => "illegal environment variable name"
  | .notUtf8 => ReadError.notUtf8.name

namespace Environment

/-- Whether an environment can hold a variable, which has no null and no equals sign in its name. -/
def checkEntry (key value : String) : Except EnvFileError Unit :=
  if key.toList.contains '\x00' || value.toList.contains '\x00' then .error .embeddedNull
  else if key.toList.contains '=' then .error .illegalName
  else .ok ()

/-- Adds a variable of a file if its name begins as wanted, it has a value, and it is new. -/
def addGiven (keyStart : String) (env : Environment) (entry : String × Option String) :
    Except EnvFileError Environment :=
  match entry with
  | (key, some value) =>
      if !key.startsWith keyStart || (env.get? key).isSome then .ok env
      else (checkEntry key value).map fun _ => env.setDefault key value
  | (_, none) => .ok env

def addText (env : Environment) (keyStart text : String) : Except EnvFileError Environment :=
  (EnvFile.values env text).foldlM (addGiven keyStart) env

end Environment

namespace EnvFile

/-- The file that is used when none is named: the first `.env` from the working directory upward. -/
def discover? (fs : FileSystem) : (location : List String) → (fuel : Nat) → Option (List String)
  | _, 0 => none
  | location, fuel + 1 =>
      match fs.at? (location ++ [".env"]) with
      | some (.file _) => some (location ++ [".env"])
      | _ => if location.isEmpty then none else discover? fs location.dropLast fuel

/-- The location of the file to use: the one at `path`, or the one that is found without a path. -/
def location? (fs : FileSystem) (path : Option String) : Option (List String) :=
  match path with
  | some path => fs.locate? (Path.ofString path)
  | none => discover? fs fs.workingDirectory (fs.workingDirectory.length + 1)

def content? (fs : FileSystem) (path : Option String) : Option ByteArray :=
  match (location? fs path).bind fs.at? with
  | some (.file content) => some content
  | _ => none

end EnvFile

def Environment.load (env : Environment) (keyStart : String) (fs : FileSystem)
    (path : Option String) : Except EnvFileError (Environment × Bool) :=
  match EnvFile.content? fs path with
  | none => .ok (env, false)
  | some content =>
      match Source.decodeText content with
      | none => .error .notUtf8
      | some text => (env.addText keyStart text).map (·, true)

end DiagramReadability
