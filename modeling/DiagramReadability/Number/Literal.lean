import DiagramReadability.Number.Binary64
import DiagramReadability.Text.Blank
import DiagramReadability.Text.DecimalDigit
import DiagramReadability.Text.LetterCase

/-!
# Reading numbers

Numbers as people write them in settings: blanks around them, a sign, the decimal digits of any
script and single underscores between digits.  A real number may have a point and an exponent, or
be one of the words for infinity and for no number.
-/

namespace DiagramReadability.Number

open DiagramReadability.Text

/-- The blanks allowed around a number: all but the information separators. -/
def isNumberBlank (c : Char) : Bool :=
  isBlank c && !(0x1c ≤ c.toNat && c.toNat ≤ 0x1f)

def trimNumber (s : List Char) : List Char :=
  dropEndWhile isNumberBlank (s.dropWhile isNumberBlank)

def plainDigits (s : List Char) : List Char :=
  s.map fun c =>
    match digitValue? c with
    | some value => Char.ofNat ('0'.toNat + value)
    | none => c

/-- Takes out the underscores, each of which must stand between two digits; `afterDigit` tells
whether the character before `s` is one. -/
def dropUnderscores? (afterDigit : Bool) : (s : List Char) → Option (List Char)
  | [] => some []
  | '_' :: rest =>
      match rest with
      | c :: _ =>
          if afterDigit && isAsciiDigit c then dropUnderscores? false rest else none
      | [] => none
  | c :: rest => (dropUnderscores? (isAsciiDigit c) rest).map (c :: ·)

def numeral? (s : String) : Option (List Char) :=
  dropUnderscores? false (plainDigits (trimNumber s.toList))

def digitsValue (digits : List Char) : Nat :=
  digits.foldl (fun n c => 10 * n + (c.toNat - '0'.toNat)) 0

/-- Takes a sign off; the flag says that it is a minus. -/
def splitSign : List Char → Bool × List Char
  | '-' :: rest => (true, rest)
  | '+' :: rest => (false, rest)
  | s => (false, s)

/-- A whole number of at most 4300 digits. -/
def readWhole? (s : String) : Option Int :=
  (numeral? s).bind fun cs =>
    let (negative, digits) := splitSign cs
    if digits.isEmpty || !digits.all isAsciiDigit || 4300 < digits.length then none
    else some (if negative then -(digitsValue digits : Int) else (digitsValue digits : Int))

/-- The exponent part that ends a real number, zero when there is none. -/
def readExponent? : List Char → Option Int
  | [] => some 0
  | c :: rest =>
      let (negative, digits) := splitSign rest
      if (c = 'e' || c = 'E') && !digits.isEmpty && digits.all isAsciiDigit then
        some (if negative then -(digitsValue digits : Int) else (digitsValue digits : Int))
      else none

/-- The number `n * 10 ^ exponent`, rounded; far outside the range of `Float` it is not computed. -/
def ofDecimal (negative : Bool) (n : Nat) (exponent : Int) : Float :=
  let size := (Nat.toDigits 10 n).length + exponent
  if n = 0 || size < -400 then (ofRatio? negative 0 1).getD 0.0
  else if 400 < size then infinity negative
  else
    let rounded :=
      if 0 ≤ exponent then ofRatio? negative (n * Nat.pow 10 exponent.toNat) 1
      else ofRatio? negative n (Nat.pow 10 (-exponent).toNat)
    rounded.getD (infinity negative)

def readMagnitude? (negative : Bool) (s : List Char) : Option Float :=
  let word := String.ofList (lower s)
  if word = "inf" || word = "infinity" then some (infinity negative)
  else if word = "nan" then some (0.0 / 0.0)
  else
    let whole := s.takeWhile isAsciiDigit
    let rest := s.dropWhile isAsciiDigit
    let (fraction, tail) :=
      match rest with
      | '.' :: r => (r.takeWhile isAsciiDigit, r.dropWhile isAsciiDigit)
      | _ => ([], rest)
    if whole.isEmpty && fraction.isEmpty then none
    else
      (readExponent? tail).map fun exponent =>
        ofDecimal negative (digitsValue (whole ++ fraction)) (exponent - fraction.length)

def readReal? (s : String) : Option Float :=
  (numeral? s).bind fun cs =>
    let (negative, magnitude) := splitSign cs
    readMagnitude? negative magnitude

end DiagramReadability.Number
