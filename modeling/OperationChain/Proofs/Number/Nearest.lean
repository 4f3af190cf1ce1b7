import Mathlib.Algebra.Order.Ring.Abs
import OperationChain.Proofs.Number.ExactValue

/-! # Nearest floating point numbers

The numbers nearest to a value are taken among all numbers, which include the infinities at
the first value out of range. Taking nearest numbers keeps the order of values, so no two
values pass each other, and it takes every number to itself.
-/

namespace OperationChain.Binary64

/-! ## Distances -/

theorem abs_sub_le_left_iff {a b c : ℚ} (hlt : a < b) :
    |a - c| ≤ |b - c| ↔ 2 * c ≤ a + b := by
  rw [← sq_le_sq]
  constructor
  · intro h
    nlinarith
  · intro h
    nlinarith

theorem abs_sub_le_right_iff {a b c : ℚ} (hlt : a < b) :
    |b - c| ≤ |a - c| ↔ a + b ≤ 2 * c := by
  rw [← sq_le_sq]
  constructor
  · intro h
    nlinarith
  · intro h
    nlinarith

/-! ## Nearest numbers -/

/-- A number that is as near to a value as any, with an even significand if another one is
equally near. -/
structure Nearest (q : ℚ) (x : Binary64) : Prop where
  isNumber : x.isNaN = false
  le : ∀ y : Binary64, y.isNaN = false → |x.toRat - q| ≤ |y.toRat - q|
  even : ∀ y : Binary64, y.isNaN = false → |y.toRat - q| = |x.toRat - q| →
    y.toRat = x.toRat ∨ x.significand % 2 = 0

namespace Nearest

variable {p q : ℚ} {x y : Binary64}

theorem self (hx : x.isNaN = false) : Nearest x.toRat x where
  isNumber := hx
  le y _ := by simp
  even y _ heq := by
    rw [sub_self, abs_zero, abs_eq_zero, sub_eq_zero] at heq
    exact .inl heq

theorem congr (h : Nearest q x) (hy : y.isNaN = false) (hsame : x.toRat = y.toRat) :
    Nearest q y := by
  have heven : y.significand % 2 = x.significand % 2 := by
    rw [significand_mod_two, significand_mod_two, ← natAbs_orderKey, ← natAbs_orderKey,
      toRat_inj.mp hsame]
  refine ⟨hy, ?_, ?_⟩
  · rw [← hsame]
    exact h.le
  · rw [← hsame, heven]
    exact h.even

theorem neg (h : Nearest q x) : Nearest (-q) x.neg := by
  have hdist (y : Binary64) : |y.neg.toRat - -q| = |y.toRat - q| := by
    rw [toRat_neg, ← neg_add', abs_neg, ← sub_eq_add_neg]
  have hdist' (y : Binary64) : |y.toRat - -q| = |y.neg.toRat - q| := by
    rw [toRat_neg, ← neg_add', abs_neg, sub_neg_eq_add]
  refine ⟨(isNaN_neg x).trans h.isNumber, ?_, ?_⟩
  · intro y hy
    rw [hdist, hdist']
    exact h.le y.neg ((isNaN_neg y).trans hy)
  · intro y hy heq
    rw [hdist, hdist'] at heq
    rw [toRat_neg, significand_mod_two, magnitude_neg, ← significand_mod_two, ← neg_eq_iff_eq_neg,
      ← toRat_neg]
    exact h.even y.neg ((isNaN_neg y).trans hy) heq

/-- Between two numbers with even significands there is another one. -/
theorem exists_between (hx : x.isNaN = false) (hy : y.isNaN = false) (hlt : y.toRat < x.toRat)
    (hxeven : x.significand % 2 = 0) (hyeven : y.significand % 2 = 0) :
    ∃ z : Binary64, z.isNaN = false ∧ y.toRat < z.toRat ∧ z.toRat < x.toRat := by
  have hxmax := magnitude_le hx
  have hymax := magnitude_le hy
  rw [significand_mod_two] at hxeven hyeven
  rw [toRat_lt_iff] at hlt
  have hxkey := x.natAbs_orderKey
  have hykey := y.natAbs_orderKey
  obtain ⟨z, hz, hzkey⟩ := exists_of_key (k := y.orderKey + 1) (by omega)
  refine ⟨z, hz, ?_, ?_⟩
  · rw [toRat_lt_iff]
    omega
  · rw [toRat_lt_iff]
    omega

/-- Rounding keeps the order of values. -/
theorem monotone (hx : Nearest p x) (hy : Nearest q y) (hle : p ≤ q) : x.toRat ≤ y.toRat := by
  by_contra! hlt
  -- Both values are then the middle of the two numbers.
  have hp := (abs_sub_le_right_iff hlt).mp (hx.le y hy.isNumber)
  have hq := (abs_sub_le_left_iff hlt).mp (hy.le x hx.isNumber)
  obtain rfl : p = q := by linarith
  have htie : |y.toRat - p| = |x.toRat - p| := by
    rw [abs_sub_comm]
    exact congrArg abs (by linarith)
  have hxeven := (hx.even y hy.isNumber htie).resolve_left hlt.ne
  have hyeven := (hy.even x hx.isNumber htie.symm).resolve_left hlt.ne'
  obtain ⟨z, hz, hyz, hzx⟩ := exists_between hx.isNumber hy.isNumber hlt hxeven hyeven
  have hxz := (abs_sub_le_right_iff hzx).mp (hx.le z hz)
  have hyz := (abs_sub_le_left_iff hyz).mp (hy.le z hz)
  linarith

/-- What is nearest to one value is one number. -/
theorem unique (hx : Nearest q x) (hy : Nearest q y) : x.toRat = y.toRat :=
  (hx.monotone hy le_rfl).antisymm (hy.monotone hx le_rfl)

end Nearest

/-! ## Magnitudes -/

section Magnitudes

variable {w : ℚ} {m : Nat}

theorem abs_keyUnits_sub_of_neg (hw : 0 ≤ w) {k : Int} (hk : k < 0) :
    |(keyUnits k : ℚ) - w| = units k.natAbs + w := by
  have hunits : (0 : ℚ) ≤ units k.natAbs := Nat.cast_nonneg _
  rw [keyUnits, if_pos hk, Int.cast_neg, Int.cast_natCast, ← neg_add', abs_neg,
    abs_of_nonneg (add_nonneg hunits hw)]

theorem keyUnits_of_nonneg {k : Int} (hk : 0 ≤ k) : (keyUnits k : ℚ) = units k.natAbs := by
  rw [keyUnits, if_neg hk.not_gt, Int.cast_natCast]

theorem abs_units_sub_le (hw : 0 ≤ w) (k : Int) :
    |(units k.natAbs : ℚ) - w| ≤ |(keyUnits k : ℚ) - w| := by
  by_cases hk : k < 0
  · have hunits : (0 : ℚ) ≤ units k.natAbs := Nat.cast_nonneg _
    rw [abs_keyUnits_sub_of_neg hw hk, abs_sub_le_iff]
    constructor <;> linarith
  · rw [keyUnits_of_nonneg (Int.not_lt.mp hk)]

/-- A magnitude that is nearest among the magnitudes is that of a nearest number. -/
theorem nearest_ofMagnitude (hw : 0 ≤ w) (hm : m ≤ infinite)
    (hle : ∀ n ≤ infinite, |(units m : ℚ) - w| ≤ |(units n : ℚ) - w|)
    (heven : ∀ n ≤ infinite, |(units n : ℚ) - w| = |(units m : ℚ) - w| → n = m ∨ m % 2 = 0) :
    Nearest (w * quantum) (ofMagnitude false m) := by
  have hlt : m < signBit := hm.trans_lt (by decide)
  have hdist (y : Binary64) :
      |y.toRat - w * quantum| = |(keyUnits y.orderKey : ℚ) - w| * quantum := by
    rw [toRat_eq, ← sub_mul, abs_mul, abs_of_pos quantum_pos]
  have hself : |(ofMagnitude false m).toRat - w * quantum| = |(units m : ℚ) - w| * quantum := by
    rw [toRat_ofMagnitude hlt, ← sub_mul, abs_mul, abs_of_pos quantum_pos]
  have hkey {y : Binary64} (hy : y.isNaN = false) : y.orderKey.natAbs ≤ infinite :=
    y.natAbs_orderKey.trans_le (magnitude_le hy)
  refine ⟨?_, ?_, ?_⟩
  · rw [isNaN, magnitude_ofMagnitude hlt]
    exact decide_eq_false (Nat.not_lt.mpr hm)
  · intro y hy
    rw [hself, hdist]
    exact mul_le_mul_of_nonneg_right ((hle _ (hkey hy)).trans (abs_units_sub_le hw _))
      quantum_pos.le
  · intro y hy heq
    rw [hself, hdist, mul_left_inj' quantum_pos.ne'] at heq
    rw [significand_mod_two, magnitude_ofMagnitude hlt, toRat_ofMagnitude hlt, toRat_eq]
    have hnear : |(units y.orderKey.natAbs : ℚ) - w| = |(units m : ℚ) - w| :=
      le_antisymm ((abs_units_sub_le hw _).trans_eq heq) (hle _ (hkey hy))
    obtain hsame | heven := heven _ (hkey hy) hnear
    · left
      rw [← hsame, keyUnits_of_nonneg]
      -- A negative number is further away than zero is.
      by_contra! hneg
      have hzero := hle 0 (Nat.zero_le _)
      have hpos : (0 : ℚ) < units y.orderKey.natAbs :=
        Nat.cast_pos.mpr (units_zero ▸ strictMono_units (Int.natAbs_pos.mpr hneg.ne))
      rw [← heq, abs_keyUnits_sub_of_neg hw hneg, units_zero, Nat.cast_zero, zero_sub, abs_neg,
        abs_of_nonneg hw] at hzero
      linarith
    · exact .inr heven

end Magnitudes

end OperationChain.Binary64
