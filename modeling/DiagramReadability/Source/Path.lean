/-!
# Paths

A path is a list of names, perhaps below a root.  Empty names and single dots mean nothing and are
left out; two dots stay, since what they lead to depends on the files.
-/

namespace DiagramReadability

structure Path where
  root : String
  names : List String
deriving Repr, DecidableEq

namespace Path

def splitSlashes : List Char → List (List Char)
  | [] => [[]]
  | c :: rest =>
      if c = '/' then [] :: splitSlashes rest
      else
        match splitSlashes rest with
        | [] => [[c]]
        | name :: names => (c :: name) :: names

/-- The root of a path as it is written.  Exactly two slashes are a root of their own. -/
def rootOf (s : List Char) : String :=
  match (s.takeWhile (· = '/')).length with
  | 0 => ""
  | 2 => "//"
  | _ => "/"

def ofString (s : String) : Path where
  root := rootOf s.toList
  names := ((splitSlashes s.toList).map String.ofList).filter fun n => n ≠ "" && n ≠ "."

/-- Writes a path; the one that leads nowhere is a single dot. -/
def toString (p : Path) : String :=
  if p.root = "" && p.names.isEmpty then "." else p.root ++ "/".intercalate p.names

def below (p : Path) (names : List String) : Path :=
  { p with names := p.names ++ names }

def name (p : Path) : String :=
  p.names.getLast?.getD ""

/-- The ending of a name from its last dot on, if the dot is neither its first nor its last
character. -/
def suffixOf (name : List Char) : List Char :=
  let ending := (name.reverse.takeWhile (· ≠ '.')).reverse
  if ending.isEmpty || name.length ≤ ending.length + 1 then [] else '.' :: ending

def suffix (p : Path) : String :=
  String.ofList (suffixOf p.name.toList)

/-- Whether one list of names comes before another: name by name, each by its characters. -/
def namesLe : List String → List String → Bool
  | [], _ => true
  | _ :: _, [] => false
  | a :: as, b :: bs => if a = b then namesLe as bs else a < b

end Path

end DiagramReadability
