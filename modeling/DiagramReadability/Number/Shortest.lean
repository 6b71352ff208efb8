import DiagramReadability.Number.Binary64

/-!
# The shortest decimal that reads back

A `Float` is written with the fewest digits that still round to it, and of several such decimals
with the one nearest to it.  The search goes through the decimal grids with one, two, … seventeen
digits and looks at the two neighbours of the value on each.
-/

namespace DiagramReadability.Number

/-- The decimal `0.d₁d₂…` times `10 ^ point`, where `digits` are the digits as one number. -/
structure Decimal where
  digits : Nat
  point : Int
deriving Repr, DecidableEq

def scaleByTen (num den : Nat) (exponent : Int) : Nat × Nat :=
  if 0 ≤ exponent then (num * Nat.pow 10 exponent.toNat, den)
  else (num, den * Nat.pow 10 (-exponent).toNat)

/-- The least `k ≥ start` with `num / den < 10 ^ k`, looked for in `fuel` steps. -/
def pointFrom (num den : Nat) (start : Int) : Nat → Int
  | 0 => start
  | fuel + 1 =>
      let (n, d) := scaleByTen num den (-start)
      if n < d then start else pointFrom num den (start + 1) fuel

/-- The `k` with `10 ^ (k - 1) ≤ num / den < 10 ^ k`, for a positive fraction. -/
def pointOf (num den : Nat) : Int :=
  let binary : Int := (num.log2 : Int) - den.log2
  pointFrom num den ((binary - 1) * 30103 / 100000 - 1) 6

/-- The reals that round to `significand * 2 ^ exponent`, in units of a quarter of that power: from
the first number to the second, ends included when the third component says so. -/
def roundingInterval (significand : Nat) (exponent : Int) : Nat × Nat × Bool :=
  let below := if significand = Nat.pow 2 52 && exponent > -1074 then 1 else 2
  (4 * significand - below, 4 * significand + 2, significand % 2 = 0)

/-- Whether the decimal `n * 10 ^ unit` rounds to `significand * 2 ^ exponent`. -/
def readsBack (significand : Nat) (exponent : Int) (n : Nat) (unit : Int) : Bool :=
  let (low, high, closed) := roundingInterval significand exponent
  let (p, q) := scaleByTen n 1 unit
  let (a, b) := scaleByTwo p q (2 - exponent)
  if closed then low * b ≤ a && a ≤ high * b else low * b < a && a < high * b

/-- The decimal with `count` digits that is nearest to the value among those that read back. -/
def onGrid? (significand : Nat) (exponent : Int) (point : Int) (count : Nat) : Option Nat :=
  let unit := point - count
  let (num, den) := scaleByTwo significand 1 exponent
  let (n, d) := scaleByTen num den (-unit)
  let low := n / d
  let nearest := roundHalfEven n d
  let other := if nearest = low then low + 1 else low
  if readsBack significand exponent nearest unit then some nearest
  else if readsBack significand exponent other unit then some other
  else none

/-- The first grid from `count` digits on that holds a decimal which reads back. -/
def shortestFrom (significand : Nat) (exponent point : Int) (count : Nat) : Nat → Decimal
  | 0 => ⟨0, 0⟩
  | fuel + 1 =>
      match onGrid? significand exponent point count with
      | some n => if n = Nat.pow 10 count then ⟨1, point + 1⟩ else ⟨n, point⟩
      | none => shortestFrom significand exponent point (count + 1) fuel

/-- The shortest decimal that reads back as the positive number `significand * 2 ^ exponent`. -/
def shortest (significand : Nat) (exponent : Int) : Decimal :=
  let (num, den) := scaleByTwo significand 1 exponent
  shortestFrom significand exponent (pointOf num den) 1 17

/-! ## How a number is written -/

def signed (negative : Bool) (s : String) : String :=
  if negative then "-" ++ s else s

def padZeros (width : Nat) (s : String) : String :=
  String.ofList (List.replicate (width - s.length) '0') ++ s

def positional (digits : List Char) (point : Int) : String :=
  let count := digits.length
  if point ≤ 0 then
    "0." ++ String.ofList (List.replicate (-point).toNat '0' ++ digits)
  else if count ≤ point.toNat then
    String.ofList (digits ++ List.replicate (point.toNat - count) '0') ++ ".0"
  else
    String.ofList (digits.take point.toNat) ++ "." ++ String.ofList (digits.drop point.toNat)

/-- A decimal with one digit before the point and an exponent of at least two digits. -/
def scientific (digits : List Char) (point : Int) : String :=
  let exponent := point - 1
  let fraction := digits.drop 1
  String.ofList (digits.take 1)
    ++ (if fraction.isEmpty then "" else "." ++ String.ofList fraction)
    ++ (if exponent < 0 then "e-" else "e+")
    ++ padZeros 2 (toString exponent.natAbs)

structure NonFinite where
  nan : String
  infinity : String

def NonFinite.plain : NonFinite :=
  ⟨"nan", "inf"⟩

/-- The number as its shortest decimal: positional from a ten-thousandth up to sixteen digits
before the point, with an exponent outside that range. -/
def shortestText (names : NonFinite) (x : Float) : String :=
  match decode x with
  | .nan => names.nan
  | .infinite negative => signed negative names.infinity
  | .finite negative 0 _ => signed negative "0.0"
  | .finite negative significand exponent =>
      let decimal := shortest significand exponent
      let digits := Nat.toDigits 10 decimal.digits
      signed negative
        (if -4 < decimal.point && decimal.point ≤ 16 then positional digits decimal.point
         else scientific digits decimal.point)

end DiagramReadability.Number
