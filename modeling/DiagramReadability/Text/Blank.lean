import DiagramReadability.Text.Ranges

/-!
# Blank characters

White space of every kind, line breaks included, and the functions that take it off a text.
-/

namespace DiagramReadability.Text

def blankRanges : CharRanges := [
  (0x9, 0xd), (0x1c, 0x20), (0x85, 0x85), (0xa0, 0xa0), (0x1680, 0x1680), (0x2000, 0x200a),
  (0x2028, 0x2029), (0x202f, 0x202f), (0x205f, 0x205f), (0x3000, 0x3000)]

def isBlank (c : Char) : Bool :=
  blankRanges.holds c.toNat

def startsBlank : List Char → Bool
  | c :: _ => isBlank c
  | [] => false

def trimStart (s : List Char) : List Char :=
  s.dropWhile isBlank

def dropEndWhile (inClass : Char → Bool) (s : List Char) : List Char :=
  (s.reverse.dropWhile inClass).reverse

def trimEnd (s : List Char) : List Char :=
  dropEndWhile isBlank s

def trim (s : List Char) : List Char :=
  trimEnd (trimStart s)

def allBlank (s : List Char) : Bool :=
  s.all isBlank

/-- A text counts as absent when it is empty. -/
def nonempty? (s : List Char) : Option (List Char) :=
  if s.isEmpty then none else some s

/-- The rest of `s` after `lead`, if `s` opens with it. -/
def after? : (lead s : List Char) → Option (List Char)
  | [], s => some s
  | _ :: _, [] => none
  | l :: lead, c :: s => if l = c then after? lead s else none

end DiagramReadability.Text
