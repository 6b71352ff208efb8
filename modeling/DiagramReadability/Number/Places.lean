import DiagramReadability.Number.Shortest

/-!
# Numbers with a fixed number of places

The value is rounded exactly; a half goes to the even neighbour.  The sign stays even when every
digit that is shown is zero.
-/

namespace DiagramReadability.Number

def withPoint (places n : Nat) : String :=
  let digits := padZeros (places + 1) (toString n)
  if places = 0 then digits
  else
    let cut := digits.length - places
    String.ofList (digits.toList.take cut) ++ "." ++ String.ofList (digits.toList.drop cut)

def fixed (places : Nat) (x : Float) : String :=
  match decode x with
  | .nan => NonFinite.plain.nan
  | .infinite negative => signed negative NonFinite.plain.infinity
  | .finite negative significand exponent =>
      let (n, d) := scaleByTwo significand 1 exponent
      signed negative (withPoint places (roundHalfEven (n * Nat.pow 10 places) d))

def percent (x : Float) : String :=
  fixed 0 (x * 100.0) ++ "%"

def padStart (width : Nat) (s : String) : String :=
  String.ofList (List.replicate (width - s.length) ' ') ++ s

def padEnd (width : Nat) (s : String) : String :=
  s ++ String.ofList (List.replicate (width - s.length) ' ')

/-- The quotient of two counts, zero when there is nothing to divide by. -/
def share (part whole : Nat) : Float :=
  if whole = 0 then 0.0 else part.toFloat / whole.toFloat

end DiagramReadability.Number
