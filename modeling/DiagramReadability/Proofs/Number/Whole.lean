import DiagramReadability.Proofs.Number.Range
import Mathlib

/-!
# Whole numbers among the reals

A finite `Float` stands for a rational number.  Main statement: it counts as a whole number just
when that number is one (`toWhole?_eq_some_iff`); infinity and the values that are no number never
do.
-/

namespace DiagramReadability.Number

/-- The number that a sign, a significand and an exponent stand for. -/
def Decoded.toRational? : Decoded → Option ℚ
  | .nan => none
  | .infinite _ => none
  | .finite negative significand exponent =>
      some ((if negative then -1 else 1) * (significand * (2 : ℚ) ^ exponent))

/-- The number that a finite `Float` stands for. -/
def toRational? (x : Float) : Option ℚ :=
  (decode x).toRational?

theorem scaleByTwo_den_pos (num : Nat) (exponent : Int) : 0 < (scaleByTwo num 1 exponent).2 := by
  rcases lt_or_ge exponent 0 with hneg | hnonneg
  · obtain ⟨k, rfl⟩ := Int.exists_eq_neg_ofNat hneg.le
    rw [scaleByTwo_neg num 1 (by omega)]
    exact Nat.mul_pos Nat.one_pos (Nat.two_pow_pos k)
  · obtain ⟨k, rfl⟩ := Int.eq_ofNat_of_zero_le hnonneg
    rw [scaleByTwo_nonneg]
    exact Nat.one_pos

/-- The scaled fraction is the number times the power of two. -/
theorem scaleByTwo_fst_eq (num : Nat) (exponent : Int) :
    ((scaleByTwo num 1 exponent).1 : ℚ) =
      (scaleByTwo num 1 exponent).2 * (num * (2 : ℚ) ^ exponent) := by
  rcases lt_or_ge exponent 0 with hneg | hnonneg
  · obtain ⟨k, rfl⟩ := Int.exists_eq_neg_ofNat hneg.le
    rw [scaleByTwo_neg num 1 (by omega), zpow_neg, zpow_natCast]
    have hpow : ((Nat.pow 2 k : Nat) : ℚ) = 2 ^ k := Nat.cast_pow 2 k
    show (num : ℚ) = ((1 * Nat.pow 2 k : Nat) : ℚ) * (num * (2 ^ k)⁻¹)
    rw [Nat.one_mul, hpow]
    field_simp
  · obtain ⟨k, rfl⟩ := Int.eq_ofNat_of_zero_le hnonneg
    rw [scaleByTwo_nonneg, zpow_natCast]
    have hpow : ((Nat.pow 2 k : Nat) : ℚ) = 2 ^ k := Nat.cast_pow 2 k
    show ((num * Nat.pow 2 k : Nat) : ℚ) = ((1 : Nat) : ℚ) * (num * 2 ^ k)
    rw [Nat.cast_mul, hpow, Nat.cast_one, one_mul]

/-- A product is a multiple of its first factor just when the second one is whole. -/
theorem eq_natCast_iff_of_mul {n d : Nat} {q : ℚ} (hd : 0 < d) (h : (n : ℚ) = d * q) {k : Nat} :
    q = k ↔ n % d = 0 ∧ n / d = k := by
  have hd0 : (d : ℚ) ≠ 0 := by exact_mod_cast hd.ne'
  constructor
  · rintro rfl
    have hn : n = d * k := by exact_mod_cast h
    rw [hn]
    exact ⟨Nat.mul_mod_right d k, Nat.mul_div_cancel_left k hd⟩
  · rintro ⟨hmod, rfl⟩
    have hn : n = d * (n / d) := (Nat.mul_div_cancel' (Nat.dvd_of_mod_eq_zero hmod)).symm
    have hcast : (n : ℚ) = d * ((n / d : Nat) : ℚ) := by exact_mod_cast hn
    exact mul_left_cancel₀ hd0 (h.symm.trans hcast)

/-- A nonnegative number with a sign is a whole one just when the number itself is. -/
theorem signed_eq_intCast_iff {q : ℚ} (hq : 0 ≤ q) {negative : Bool} {m : Int} :
    (if negative then -1 else 1) * q = m ↔
      ∃ k : Nat, q = k ∧ (if negative then -(k : Int) else k) = m := by
  -- Either way round, the only number that can be meant is the absolute value.
  have habs : q = m ∨ q = -m → q = m.natAbs := by
    intro h
    rw [Nat.cast_natAbs, Int.cast_abs, ← abs_of_nonneg hq]
    rcases h with rfl | rfl
    · rfl
    · exact abs_neg _
  cases negative with
  | false =>
    rw [if_neg Bool.false_ne_true, one_mul]
    constructor
    · intro h
      refine ⟨m.natAbs, habs (.inl h), ?_⟩
      have hm : ((m.natAbs : Int) : ℚ) = m := by
        rw [Int.cast_natCast, ← habs (.inl h), h]
      exact_mod_cast hm
    · rintro ⟨k, rfl, rfl⟩
      simp
  | true =>
    rw [if_pos rfl, neg_one_mul]
    constructor
    · intro h
      have hneg : q = -m := by rw [← h, neg_neg]
      refine ⟨m.natAbs, habs (.inr hneg), ?_⟩
      have hm : ((-(m.natAbs : Int) : Int) : ℚ) = m := by
        rw [Int.cast_neg, Int.cast_natCast, ← habs (.inr hneg), h]
      exact_mod_cast hm
    · rintro ⟨k, rfl, rfl⟩
      simp

theorem toWhole?_eq_some_iff {x : Float} {m : Int} :
    toWhole? x = some m ↔ toRational? x = some (m : ℚ) := by
  unfold toWhole? toRational?
  cases decode x with
  | nan => simp [Decoded.toRational?]
  | infinite negative => simp [Decoded.toRational?]
  | finite negative significand exponent =>
    have hd := scaleByTwo_den_pos significand exponent
    have hfst := scaleByTwo_fst_eq significand exponent
    have hq : 0 ≤ significand * (2 : ℚ) ^ exponent := by positivity
    dsimp only [Decoded.toRational?]
    rw [Option.some_inj, signed_eq_intCast_iff hq]
    simp only [eq_natCast_iff_of_mul hd hfst]
    split
    next hmod => simp [hmod]
    next hmod => simp [hmod]

end DiagramReadability.Number
