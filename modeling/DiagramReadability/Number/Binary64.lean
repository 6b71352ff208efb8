/-!
# Double-precision numbers as exact fractions

A finite `Float` is a whole number times a power of two.  `decode` gives that pair, `ofRatio?` goes
back from any fraction to the nearest `Float`, a half going to the even neighbour.  Everything in
between is exact arithmetic on `Nat` and `Int`.
-/

namespace DiagramReadability.Number

inductive Decoded where
  | nan
  | infinite (negative : Bool)
  | finite (negative : Bool) (significand : Nat) (exponent : Int)
deriving Repr, DecidableEq

/-- Reads the sign, the eleven exponent bits and the fraction bits of `x`. -/
def decode (x : Float) : Decoded :=
  let bits := x.toBits.toNat
  let negative := decide (bits / Nat.pow 2 63 = 1)
  let exponent : Nat := bits / Nat.pow 2 52 % Nat.pow 2 11
  let fraction : Nat := bits % Nat.pow 2 52
  if exponent = 2047 then
    if fraction = 0 then .infinite negative else .nan
  else if exponent = 0 then .finite negative fraction (-1074)
  else .finite negative (fraction + Nat.pow 2 52) ((exponent : Int) - 1075)

/-- The whole number nearest to `num / den`; a half goes to the even one. -/
def roundHalfEven (num den : Nat) : Nat :=
  let quotient := num / den
  let twice := 2 * (num % den)
  if twice < den then quotient
  else if den < twice then quotient + 1
  else quotient + quotient % 2

def scaleByTwo (num den : Nat) (exponent : Int) : Nat × Nat :=
  if 0 ≤ exponent then (num * Nat.pow 2 exponent.toNat, den)
  else (num, den * Nat.pow 2 (-exponent).toNat)

/-- The exponent at which `num / den` has a significand of 53 bits, or the least one. -/
def exponentFor (num den : Nat) : Int :=
  let low := (num.log2 : Int) - den.log2 - 53
  let (n, d) := scaleByTwo num den (-low)
  max (if n / d < Nat.pow 2 53 then low else low + 1) (-1074)

def magnitudeBits? (num den : Nat) : Option Nat :=
  if num = 0 then some 0
  else
    let exponent := exponentFor num den
    let (n, d) := scaleByTwo num den (-exponent)
    let significand := roundHalfEven n d
    let bits :=
      if significand < Nat.pow 2 52 then significand
      else (exponent + 1074).toNat * Nat.pow 2 52 + significand
    if bits < 2047 * Nat.pow 2 52 then some bits else none

/-- The `Float` nearest to `num / den`, or `none` beyond the largest finite one. -/
def ofRatio? (negative : Bool) (num den : Nat) : Option Float :=
  (magnitudeBits? num den).map fun bits =>
    Float.ofBits (UInt64.ofNat (if negative then bits + Nat.pow 2 63 else bits))

def infinity (negative : Bool) : Float :=
  Float.ofBits (UInt64.ofNat (if negative then 0xfff0000000000000 else 0x7ff0000000000000))

def ofWhole? (n : Int) : Option Float :=
  ofRatio? (n < 0) n.natAbs 1

def toWhole? (x : Float) : Option Int :=
  match decode x with
  | .finite negative significand exponent =>
      let (n, d) := scaleByTwo significand 1 exponent
      if n % d = 0 then
        some (if negative then -((n / d : Nat) : Int) else ((n / d : Nat) : Int))
      else none
  | _ => none

def truncate? (x : Float) : Option Int :=
  match decode x with
  | .finite negative significand exponent =>
      let (n, d) := scaleByTwo significand 1 exponent
      some (if negative then -((n / d : Nat) : Int) else ((n / d : Nat) : Int))
  | _ => none

/-- Whether `x ≤ n`, decided without rounding `n`. -/
def leWhole (x : Float) (n : Int) : Bool :=
  match decode x with
  | .nan => false
  | .infinite negative => negative
  | .finite negative significand exponent =>
      let (num, den) := scaleByTwo significand 1 exponent
      decide ((if negative then -(num : Int) else num) ≤ n * den)

def wholeLe (n : Int) (x : Float) : Bool :=
  match decode x with
  | .nan => false
  | .infinite negative => !negative
  | .finite negative significand exponent =>
      let (num, den) := scaleByTwo significand 1 exponent
      decide (n * den ≤ if negative then -(num : Int) else num)

end DiagramReadability.Number
