import DiagramReadability.Pixels
import Mathlib.Algebra.Order.Ring.Nat

/-!
# The range of real numbers

A whole number of at most 1023 bits is near to a real number: its significand of 53 bits, even if
rounded up, has an exponent that is still below the one of infinity.
-/

namespace DiagramReadability

namespace Number

/-- A whole number that is well within the range of real numbers: its highest bit stands below the
place 1023. -/
def InRange (n : Int) : Prop :=
  n.natAbs.log2 < 1023

instance (n : Int) : Decidable (InRange n) :=
  Nat.decLt _ _

theorem log2_mono {m n : Nat} (h : m ≤ n) : m.log2 ≤ n.log2 := by
  by_cases hm : m = 0
  · rw [hm, Nat.log2_zero]
    exact Nat.zero_le _
  · have hlt : m < 2 ^ (n.log2 + 1) := Nat.lt_of_le_of_lt h Nat.lt_log2_self
    have hlog : m.log2 < n.log2 + 1 := (Nat.log2_lt hm).mpr hlt
    omega

theorem InRange.of_le {m n : Int} (hn : InRange n) (h : m.natAbs ≤ n.natAbs) : InRange m :=
  Nat.lt_of_le_of_lt (log2_mono h) hn

theorem roundHalfEven_le (num den : Nat) : roundHalfEven num den ≤ num / den + 1 := by
  unfold roundHalfEven
  dsimp only
  split
  · omega
  · split <;> omega

theorem scaleByTwo_nonneg (num den k : Nat) : scaleByTwo num den k = (num * Nat.pow 2 k, den) := by
  unfold scaleByTwo
  rw [if_pos (by omega)]
  rfl

theorem scaleByTwo_neg (num den : Nat) {k : Nat} (hk : 0 < k) :
    scaleByTwo num den (-k) = (num, den * Nat.pow 2 k) := by
  unfold scaleByTwo
  rw [if_neg (by omega), show (-(-(k : Int))).toNat = k by omega]

/-- The exponent of a whole number, from the place of its highest bit. -/
theorem exponentFor_cases (num : Nat) :
    exponentFor num 1 = num.log2 - 53 ∧
        (scaleByTwo num 1 (53 - num.log2)).1 / (scaleByTwo num 1 (53 - num.log2)).2 < Nat.pow 2 53 ∨
      exponentFor num 1 = num.log2 - 52 := by
  have hone : Nat.log2 1 = 0 := by decide
  unfold exponentFor
  dsimp only
  rw [hone, show -((num.log2 : Int) - (0 : Nat) - 53) = 53 - num.log2 by omega]
  split
  next h =>
    left
    exact ⟨by omega, h⟩
  next h =>
    right
    omega

/-- At its exponent a whole number has no more than 53 bits before the point. -/
theorem scaled_lt (num : Nat) :
    (scaleByTwo num 1 (-exponentFor num 1)).1 / (scaleByTwo num 1 (-exponentFor num 1)).2 <
      Nat.pow 2 53 := by
  have hlog : num < 2 ^ (num.log2 + 1) := Nat.lt_log2_self
  rcases exponentFor_cases num with ⟨hexponent, hlt⟩ | hexponent
  · rw [hexponent, show -((num.log2 : Int) - 53) = 53 - num.log2 by omega]
    exact hlt
  · rw [hexponent]
    -- the point is moved to behind the 53 highest bits, to the right or to the left
    by_cases hsmall : num.log2 ≤ 52
    · rw [show -((num.log2 : Int) - 52) = ((52 - num.log2 : Nat) : Int) by omega,
        scaleByTwo_nonneg]
      dsimp only
      rw [Nat.div_one]
      calc num * 2 ^ (52 - num.log2)
          < 2 ^ (num.log2 + 1) * 2 ^ (52 - num.log2) :=
            Nat.mul_lt_mul_of_pos_right hlog (Nat.two_pow_pos _)
        _ = 2 ^ 53 := by
            rw [← pow_add]
            congr 1
            omega
    · rw [show -((num.log2 : Int) - 52) = -((num.log2 - 52 : Nat) : Int) by omega,
        scaleByTwo_neg num 1 (by omega)]
      show num / (1 * 2 ^ (num.log2 - 52)) < 2 ^ 53
      rw [Nat.one_mul, Nat.div_lt_iff_lt_mul (Nat.two_pow_pos _)]
      calc num < 2 ^ (num.log2 + 1) := hlog
        _ = 2 ^ 53 * 2 ^ (num.log2 - 52) := by
            rw [← pow_add]
            congr 1
            omega

theorem exists_magnitudeBits {num : Nat} (hlog : num.log2 < 1023) :
    ∃ bits, magnitudeBits? num 1 = some bits := by
  unfold magnitudeBits?
  by_cases hzero : num = 0
  · rw [if_pos hzero]
    exact ⟨0, rfl⟩
  · have hexponent : exponentFor num 1 ≤ 970 := by
      rcases exponentFor_cases num with ⟨h, -⟩ | h <;> omega
    have hsignificand := Nat.le_trans (roundHalfEven_le _ _) (scaled_lt num)
    rw [if_neg hzero]
    dsimp only
    generalize roundHalfEven _ _ = significand at hsignificand
    have hbits : (if significand < Nat.pow 2 52 then significand
        else (exponentFor num 1 + 1074).toNat * Nat.pow 2 52 + significand) <
          2047 * Nat.pow 2 52 := by
      have hpow : Nat.pow 2 53 = 2 * Nat.pow 2 52 := by decide
      have hpos : 0 < Nat.pow 2 52 := by decide
      rw [hpow] at hsignificand
      -- rounding up may carry into the exponent, but only once
      split
      · omega
      · have hshift : (exponentFor num 1 + 1074).toNat * Nat.pow 2 52 ≤ 2044 * Nat.pow 2 52 :=
          Nat.mul_le_mul_right _ (by omega)
        omega
    rw [if_pos hbits]
    exact ⟨_, rfl⟩

theorem InRange.exists_ofWhole {n : Int} (hn : InRange n) : ∃ x, ofWhole? n = some x := by
  obtain ⟨bits, hbits⟩ := exists_magnitudeBits hn
  unfold ofWhole? ofRatio?
  rw [hbits]
  exact ⟨_, rfl⟩

end Number

theorem Number.InRange.exists_toReal {n : Int} (hn : InRange n) : ∃ x, toReal n = .ok x := by
  obtain ⟨x, hx⟩ := hn.exists_ofWhole
  unfold toReal
  rw [hx]
  exact ⟨x, rfl⟩

end DiagramReadability
