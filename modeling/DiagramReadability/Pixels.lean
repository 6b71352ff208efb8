import DiagramReadability.Number.Kind
import DiagramReadability.Number.Places

/-!
# Pixels

A size in pixels is a whole number as long as only whole numbers take part in it, and a real number
otherwise.  A whole number too large for the range of real numbers cannot take part in one.  A size
may also be absent, because the number that it should be made of was taken away; an absent size is
still absent any number of times, but it cannot be combined with a number, compared or shown.
-/

namespace DiagramReadability

/-- Why a calculation with sizes and limits breaks off. -/
inductive Fault where
  /-- A whole number met a real one and is beyond the largest of those. -/
  | wholeTooLarge
  | absentScaled
  /-- A number was to be added to an absent one. -/
  | absentPlus (other : NumberKind)
  /-- An absent number was to be added to a number. -/
  | plusAbsent (other : NumberKind)
  | absentLimit
  /-- An absent size was to be compared with a number. -/
  | absentRated (other : NumberKind)
  /-- A size was to be compared with an absent one. -/
  | ratedByAbsent (size : NumberKind)
  | absentShown
deriving Repr, DecidableEq

/-- The words for a fault.  An absent number is what is left of a list of values that has none, and
the words call it a list. -/
def Fault.message : Fault → String
  | .wholeTooLarge => "int too large to convert to float"
  | .absentScaled => "can't multiply sequence by non-int of type 'float'"
  | .absentPlus other => "can only concatenate list (not \"" ++ other.word ++ "\") to list"
  | .plusAbsent other => "unsupported operand type(s) for +: '" ++ other.word ++ "' and 'list'"
  | .absentLimit => "'<=' not supported between instances of 'int' and 'list'"
  | .absentRated other =>
      "'>=' not supported between instances of 'list' and '" ++ other.word ++ "'"
  | .ratedByAbsent size =>
      "'>=' not supported between instances of '" ++ size.word ++ "' and 'list'"
  | .absentShown => "unsupported format string passed to list.__format__"

def toReal (n : Int) : Except Fault Float :=
  match Number.ofWhole? n with
  | some x => .ok x
  | none => .error .wholeTooLarge

inductive Pixels where
  | whole (n : Int)
  | real (x : Float)
  | absent

namespace Pixels

def ofReal? : Option Float → Pixels
  | some x => real x
  | none => absent

def value : Pixels → Except Fault Float
  | whole n => toReal n
  | real x => .ok x
  | absent => .error .absentShown

def add : Pixels → Pixels → Except Fault Pixels
  | whole m, whole n => .ok (whole (m + n))
  | whole m, real y => do
      let x ← toReal m
      return real (x + y)
  | real x, whole n => do
      let y ← toReal n
      return real (x + y)
  | real x, real y => .ok (real (x + y))
  | absent, absent => .ok absent
  | absent, whole _ => .error (.absentPlus .whole)
  | absent, real _ => .error (.absentPlus .real)
  | whole _, absent => .error (.plusAbsent .whole)
  | real _, absent => .error (.plusAbsent .real)

def times (count : Int) : Pixels → Except Fault Pixels
  | whole n => .ok (whole (count * n))
  | real x => do
      let c ← toReal count
      return real (c * x)
  | absent => .ok absent

/-- Whether a size is at least as large as another; nothing is rounded for the comparison. -/
def reaches : (size limit : Pixels) → Except Fault Bool
  | whole n, whole m => .ok (m ≤ n)
  | whole n, real y => .ok (Number.leWhole y n)
  | real x, whole m => .ok (Number.wholeLe m x)
  | real x, real y => .ok (y ≤ x)
  | absent, absent => .ok true
  | absent, whole _ => .error (.absentRated .whole)
  | absent, real _ => .error (.absentRated .real)
  | whole _, absent => .error (.ratedByAbsent .whole)
  | real _, absent => .error (.ratedByAbsent .real)

/-- By how much a size is above `limit`, as a real number; zero if it is not. -/
def excess (limit : Int) (size : Pixels) : Except Fault Float := do
  match size with
  | whole n => toReal (max 0 (n - limit))
  | real x =>
      let bound ← toReal limit
      return if 0.0 < x - bound then x - bound else 0.0
  | absent => .error .absentShown

/-- The size in whole pixels, a half rounded to the even neighbour. -/
def rounded (size : Pixels) : Except Fault String := do
  return Number.fixed 0 (← size.value)

end Pixels

end DiagramReadability
