import DiagramReadability.Number.Shortest
import DiagramReadability.Text.Quoted

/-!
# JSON

Values of the JSON format and their printed forms.  Only ASCII characters are written as they are,
and the values of real numbers that are no numbers are spelled out.
-/

namespace DiagramReadability

/-- A JSON value; the entries of a record keep their order. -/
inductive Json where
  | null
  | bool (b : Bool)
  | whole (n : Int)
  | real (x : Float)
  | text (s : String)
  | list (items : List Json)
  | record (entries : List (String × Json))

namespace Json

def option {α : Type} (encode : α → Json) : Option α → Json
  | some a => encode a
  | none => null

def texts (items : List String) : Json :=
  list (items.map text)

def count (n : Nat) : Json :=
  whole n

def nonFinite : Number.NonFinite :=
  ⟨"NaN", "Infinity"⟩

def unitEscape (n : Nat) : List Char :=
  ['\\', 'u'] ++ Text.hexDigits 4 n

/-- A character between quotes.  Beyond the basic plane it takes two units. -/
def escapeChar (c : Char) : List Char :=
  if c = '"' || c = '\\' then ['\\', c]
  else if c = '\n' then ['\\', 'n']
  else if c = '\r' then ['\\', 'r']
  else if c = '\t' then ['\\', 't']
  else if c.toNat = 8 then ['\\', 'b']
  else if c.toNat = 12 then ['\\', 'f']
  else if 0x20 ≤ c.toNat && c.toNat < 0x7f then [c]
  else if c.toNat < 0x10000 then unitEscape c.toNat
  else
    let n := c.toNat - 0x10000
    unitEscape (0xd800 + n / 0x400) ++ unitEscape (0xdc00 + n % 0x400)

def quoted (s : String) : String :=
  String.ofList ('"' :: s.toList.flatMap escapeChar ++ ['"'])

inductive Style where
  | compact
  | indented (width : Nat)

def Style.break (style : Style) (depth : Nat) : String :=
  match style with
  | .compact => ""
  | .indented width => "\n" ++ String.ofList (List.replicate (width * depth) ' ')

def Style.comma (style : Style) (depth : Nat) : String :=
  match style with
  | .compact => ", "
  | .indented _ => "," ++ style.break depth

mutual

def print (style : Style) (depth : Nat) : Json → String
  | null => "null"
  | bool b => if b then "true" else "false"
  | whole n => toString n
  | real x => Number.shortestText nonFinite x
  | text s => quoted s
  | list [] => "[]"
  | list (item :: items) =>
      "[" ++ style.break (depth + 1) ++ print style (depth + 1) item
        ++ printItems style (depth + 1) items ++ style.break depth ++ "]"
  | record [] => "\x7b\x7d"
  | record ((key, value) :: entries) =>
      "\x7b" ++ style.break (depth + 1) ++ quoted key ++ ": " ++ print style (depth + 1) value
        ++ printEntries style (depth + 1) entries ++ style.break depth ++ "\x7d"

def printItems (style : Style) (depth : Nat) : List Json → String
  | [] => ""
  | item :: items => style.comma depth ++ print style depth item ++ printItems style depth items

def printEntries (style : Style) (depth : Nat) : List (String × Json) → String
  | [] => ""
  | (key, value) :: entries =>
      style.comma depth ++ quoted key ++ ": " ++ print style depth value
        ++ printEntries style depth entries

end

/-- The value with each item on a line of its own, two blanks deeper than what holds it. -/
def pretty (value : Json) : String :=
  print (.indented 2) 0 value

end Json

end DiagramReadability
