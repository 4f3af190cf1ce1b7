import Mathlib.Algebra.Order.Field.Power
import Mathlib.Algebra.Order.Field.Rat
import Mathlib.Order.Compare
import Mathlib.Tactic.Linarith
import Mathlib.Tactic.NormNum
import OperationChain.Proofs.Number.Binary64

/-! # Exact values of floating point numbers

Every finite number is a whole number of least positive ones, which its magnitude counts in
cells: within a cell the next magnitude is one power of two further, and in the next cell
twice as far. So numbers are ordered as their exact values are, where the infinities stand
for the first value that is out of range.
-/

namespace OperationChain.Binary64

variable {x y : Binary64} {e r : Nat}

/-! ## Powers -/

theorem cast_pow_toNat {exponent : Int} (hexponent : 0 ≤ exponent) (base : Nat) :
    ((base ^ exponent.toNat : Nat) : ℚ) = (base : ℚ) ^ exponent := by
  rw [Nat.cast_pow, ← zpow_natCast, Int.toNat_of_nonneg hexponent]

theorem cast_pow_toNat_neg {exponent : Int} (hexponent : ¬ 0 ≤ exponent) (base : Nat) :
    ((base ^ (-exponent).toNat : Nat) : ℚ) = ((base : ℚ) ^ exponent)⁻¹ := by
  rw [Nat.cast_pow, ← zpow_natCast, Int.toNat_of_nonneg (by omega), zpow_neg]

/-! ## Magnitudes -/

theorem isNegative_ofMagnitude {negative : Bool} {m : Nat} (hm : m < signBit) :
    (ofMagnitude negative m).isNegative = negative := by
  unfold isNegative ofMagnitude
  rw [signBit] at *
  cases negative
  · rw [if_neg Bool.false_ne_true, UInt64.toNat_ofNat']
    exact decide_eq_false (by omega)
  · rw [if_pos rfl, UInt64.toNat_ofNat']
    exact decide_eq_true (by omega)

/-- The value of a magnitude, counted in least positive numbers. -/
def units (m : Nat) : Nat :=
  (m - (m / exponentUnit - 1) * exponentUnit) * 2 ^ (m / exponentUnit - 1)

/-- The values of a cell, of its first one to that of the next cell. -/
theorem units_cell (hr : r ≤ 2 * exponentUnit) (hcell : e = 0 ∨ exponentUnit ≤ r) :
    units (e * exponentUnit + r) = r * 2 ^ e := by
  have hpos : 0 < exponentUnit := by decide
  have hdiv : (e * exponentUnit + r) / exponentUnit = e + r / exponentUnit := by
    rw [Nat.add_comm, Nat.add_mul_div_right _ _ hpos, Nat.add_comm]
  rw [units, hdiv]
  obtain hlast | hlt := hr.eq_or_lt
  · have hfield : e + r / exponentUnit - 1 = e + 1 := by
      rw [hlast, Nat.mul_div_cancel _ hpos]
      omega
    rw [hfield, hlast, Nat.pow_succ, Nat.add_mul]
    have : e * exponentUnit + 2 * exponentUnit - (e * exponentUnit + 1 * exponentUnit) =
        exponentUnit := by omega
    rw [this, Nat.mul_comm 2 exponentUnit, Nat.mul_assoc, Nat.mul_comm 2]
  · have hfield : e + r / exponentUnit - 1 = e := by
      have : r / exponentUnit < 2 := Nat.div_lt_of_lt_mul (by omega)
      obtain rfl | hcell := hcell
      · omega
      · have := Nat.div_pos hcell hpos
        omega
    rw [hfield, Nat.add_sub_cancel_left]

theorem exists_cell (m : Nat) :
    ∃ e r, m = e * exponentUnit + r ∧ r < 2 * exponentUnit ∧ (e = 0 ∨ exponentUnit ≤ r) := by
  refine ⟨m / exponentUnit - 1, m - (m / exponentUnit - 1) * exponentUnit, ?_⟩
  unfold exponentUnit
  omega

theorem units_zero : units 0 = 0 := by decide

theorem strictMono_units : StrictMono units := by
  apply strictMono_nat_of_lt_succ
  intro m
  obtain ⟨e, r, rfl, hr, hcell⟩ := exists_cell m
  rw [Nat.add_assoc, units_cell hr.le hcell, units_cell hr (by omega)]
  exact Nat.mul_lt_mul_of_pos_right r.lt_succ_self (Nat.two_pow_pos e)

/-! ## Keys -/

/-- The value of an order key, counted in least positive numbers. -/
def keyUnits (k : Int) : Int := if k < 0 then -units k.natAbs else units k.natAbs

theorem keyUnits_lt {j k : Int} (hlt : j < k) : keyUnits j < keyUnits k := by
  have hunits {m n : Nat} (hmn : m < n) : units m < units n := strictMono_units hmn
  unfold keyUnits
  split <;> split
  next hj hk =>
    have := @hunits k.natAbs j.natAbs (by omega)
    omega
  next hj hk =>
    have := @hunits 0 j.natAbs (by omega)
    omega
  next hj hk => omega
  next hj hk =>
    have := @hunits j.natAbs k.natAbs (by omega)
    omega

/-- Every key that is not beyond the infinities is that of a number. -/
theorem exists_of_key {k : Int} (hk : k.natAbs ≤ infinite) :
    ∃ x : Binary64, x.isNaN = false ∧ x.orderKey = k := by
  have hlt : k.natAbs < signBit := hk.trans_lt (by decide)
  refine ⟨ofMagnitude (k < 0) k.natAbs, ?_, ?_⟩
  · rw [isNaN, magnitude_ofMagnitude hlt]
    exact decide_eq_false (Nat.not_lt.mpr hk)
  · rw [orderKey, magnitude_ofMagnitude hlt, isNegative_ofMagnitude hlt]
    simp only [decide_eq_true_eq]
    split <;> omega

theorem natAbs_orderKey (x : Binary64) : x.orderKey.natAbs = x.magnitude := by
  unfold orderKey
  split <;> omega

theorem magnitude_le (hx : x.isNaN = false) : x.magnitude ≤ infinite :=
  not_lt.mp (of_decide_eq_false hx)

/-! ## Numbers -/

/-- The least positive number. -/
def quantum : ℚ := 2 ^ (-1074 : Int)

theorem quantum_pos : 0 < quantum := zpow_pos two_pos _

/-- The value of a number. The infinities have the one that follows the largest finite
number. -/
def toRat (x : Binary64) : ℚ :=
  if x.isNegative then -(x.significand * 2 ^ x.exponent) else x.significand * 2 ^ x.exponent

theorem significand_eq (x : Binary64) :
    x.significand = x.magnitude - (x.exponentField - 1) * exponentUnit := by
  unfold significand exponentField fraction exponentUnit
  split <;> omega

/-- A significand is even where the magnitude is. -/
theorem significand_mod_two (x : Binary64) : x.significand % 2 = x.magnitude % 2 := by
  unfold significand fraction exponentUnit
  split <;> omega

theorem significand_mul_pow (x : Binary64) :
    (x.significand * 2 ^ x.exponent : ℚ) = units x.magnitude * quantum := by
  have hexponent : x.exponent = ((x.exponentField - 1 : Nat) : Int) + (-1074) := by
    unfold exponent
    omega
  rw [significand_eq, units, hexponent, zpow_add₀ two_ne_zero, zpow_natCast, Nat.cast_mul,
    Nat.cast_pow, Nat.cast_ofNat]
  exact (mul_assoc ..).symm

theorem toRat_eq (x : Binary64) : x.toRat = keyUnits x.orderKey * quantum := by
  have hkey : keyUnits x.orderKey =
      if x.isNegative then -(units x.magnitude : Int) else units x.magnitude := by
    unfold keyUnits orderKey
    split
    next hneg =>
      rw [Int.natAbs_neg, Int.natAbs_natCast]
      split
      next => rfl
      next hzero =>
        have : x.magnitude = 0 := by omega
        rw [this]
        rfl
    next hneg => rw [if_neg (by omega), Int.natAbs_natCast]
  rw [hkey, toRat, significand_mul_pow]
  split
  next => push_cast; exact neg_mul_eq_neg_mul _ _
  next => rfl

theorem toRat_lt (hlt : x.orderKey < y.orderKey) : x.toRat < y.toRat := by
  rw [toRat_eq, toRat_eq, mul_lt_mul_iff_left₀ quantum_pos, Int.cast_lt]
  exact keyUnits_lt hlt

theorem toRat_congr (hkey : x.orderKey = y.orderKey) : x.toRat = y.toRat := by
  rw [toRat_eq, toRat_eq, hkey]

theorem toRat_lt_iff : x.toRat < y.toRat ↔ x.orderKey < y.orderKey := by
  refine ⟨?_, toRat_lt⟩
  intro hlt
  by_contra! hle
  obtain hlt' | heq := hle.lt_or_eq
  · exact hlt.not_gt (toRat_lt hlt')
  · exact hlt.ne (toRat_congr heq.symm)

theorem toRat_inj : x.toRat = y.toRat ↔ x.orderKey = y.orderKey := by
  refine ⟨?_, toRat_congr⟩
  intro heq
  by_contra! hne
  obtain hlt | hgt := hne.lt_or_gt
  · exact (toRat_lt hlt).ne heq
  · exact (toRat_lt hgt).ne' heq

/-- Numbers are ordered as their values are. -/
theorem compare?_eq (hx : x.isNaN = false) (hy : y.isNaN = false) :
    x.compare? y = some (compare x.toRat y.toRat) := by
  have hcompare : compare x.orderKey y.orderKey = compare x.toRat y.toRat := by
    obtain hlt | heq | hgt := lt_trichotomy x.orderKey y.orderKey
    · rw [compare_lt_iff_lt.mpr hlt, compare_lt_iff_lt.mpr (toRat_lt hlt)]
    · rw [compare_eq_iff_eq.mpr heq, compare_eq_iff_eq.mpr (toRat_congr heq)]
    · rw [compare_gt_iff_gt.mpr hgt, compare_gt_iff_gt.mpr (toRat_lt hgt)]
  rw [compare?, hx, hy, ← hcompare]
  rfl

theorem toRat_ofMagnitude {m : Nat} (hm : m < signBit) :
    (ofMagnitude false m).toRat = units m * quantum := by
  rw [toRat, isNegative_ofMagnitude hm, significand_mul_pow, magnitude_ofMagnitude hm]
  rfl

theorem isNaN_neg (x : Binary64) : x.neg.isNaN = x.isNaN := by
  rw [isNaN, isNaN, magnitude_neg]

theorem toRat_neg (x : Binary64) : x.neg.toRat = -x.toRat := by
  have hsign : x.neg.isNegative = !x.isNegative :=
    isNegative_ofMagnitude (Nat.mod_lt _ (by decide))
  rw [toRat, toRat, significand_mul_pow, significand_mul_pow, magnitude_neg, hsign]
  cases x.isNegative <;> simp

/-! ## Whole numbers -/

theorem toRat_eq_ratio (x : Binary64) :
    x.toRat = if x.isNegative then -(x.ratio.1 / x.ratio.2 : ℚ) else x.ratio.1 / x.ratio.2 := by
  have hratio : (x.ratio.1 / x.ratio.2 : ℚ) = x.significand * 2 ^ x.exponent := by
    unfold ratio
    rw [Nat.pow_eq, Nat.pow_eq]
    split
    next hexponent =>
      rw [Nat.cast_one, div_one, Nat.cast_mul, cast_pow_toNat hexponent, Nat.cast_ofNat]
    next hexponent => rw [cast_pow_toNat_neg hexponent, div_inv_eq_mul, Nat.cast_ofNat]
  rw [hratio, toRat]

theorem cast_div_eq_natCast_iff {num den k : Nat} (hden : 0 < den) :
    (num / den : ℚ) = k ↔ num % den = 0 ∧ num / den = k := by
  have hpos : (0 : ℚ) < den := by exact_mod_cast hden
  have hcast : (num : ℚ) = k * den ↔ num = k * den := by exact_mod_cast Iff.rfl
  rw [div_eq_iff hpos.ne', hcast]
  constructor
  · rintro rfl
    exact ⟨Nat.mul_mod_left k den, Nat.mul_div_cancel k hden⟩
  · rintro ⟨hmod, rfl⟩
    exact (Nat.div_mul_cancel (Nat.dvd_of_mod_eq_zero hmod)).symm

theorem toRat_of_toInt? {n : Int} (hint : x.toInt? = some n) :
    x.isFinite = true ∧ x.toRat = n := by
  unfold toInt? at hint
  split at hint
  next => cases hint
  next hfinite =>
    refine ⟨by simpa using hfinite, ?_⟩
    split at hint
    next hmod =>
      obtain rfl := Option.some.inj hint
      rw [toRat_eq_ratio, (cast_div_eq_natCast_iff x.ratio_pos).mpr ⟨hmod, rfl⟩]
      generalize x.ratio.1 / x.ratio.2 = k
      cases x.isNegative <;> simp
    next => cases hint

/-- A finite number has a whole number if its value is one, which is that. -/
theorem toInt?_eq_some_iff {n : Int} :
    x.toInt? = some n ↔ x.isFinite = true ∧ x.toRat = n := by
  constructor
  · exact toRat_of_toInt?
  · rintro ⟨hfinite, hvalue⟩
    have hnonneg : (0 : ℚ) ≤ x.ratio.1 / x.ratio.2 :=
      div_nonneg (Nat.cast_nonneg _) (Nat.cast_nonneg _)
    have habs : (x.ratio.1 / x.ratio.2 : ℚ) = n.natAbs := by
      rw [Nat.cast_natAbs, Int.cast_abs, ← hvalue, toRat_eq_ratio]
      split
      next => rw [abs_neg, abs_of_nonneg hnonneg]
      next => rw [abs_of_nonneg hnonneg]
    have hmod := ((cast_div_eq_natCast_iff x.ratio_pos).mp habs).1
    obtain ⟨m, hm⟩ : ∃ m, x.toInt? = some m := by
      simp [toInt?, hfinite, hmod]
    rw [hm, Int.cast_injective ((toRat_of_toInt? hm).2.symm.trans hvalue)]

/-! ## Exact values -/

theorem isNaN_of_isFinite (hx : x.isFinite = true) : x.isNaN = false :=
  decide_eq_false (of_decide_eq_true hx).not_gt

/-- Whether a value is that of a finite number. -/
def IsExact (q : ℚ) : Prop := ∃ x : Binary64, x.isFinite = true ∧ x.toRat = q

theorem IsExact.neg {q : ℚ} (h : IsExact q) : IsExact (-q) := by
  obtain ⟨x, hx, rfl⟩ := h
  exact ⟨x.neg, (isFinite_neg x).trans hx, toRat_neg x⟩

theorem isExact_of_cell {m k : Nat} (hk : k ≤ 1074) (hlow : exponentUnit ≤ m * 2 ^ k)
    (hhigh : m * 2 ^ k ≤ 2 * exponentUnit) : IsExact m := by
  have hlt : (1074 - k) * exponentUnit + m * 2 ^ k < infinite := by
    unfold infinite exponentUnit at *
    omega
  have hsign : infinite < signBit := by decide
  refine ⟨ofMagnitude false ((1074 - k) * exponentUnit + m * 2 ^ k), ?_, ?_⟩
  · rw [isFinite, magnitude_ofMagnitude (hlt.trans hsign)]
    exact decide_eq_true hlt
  · have hpow : (2 : ℚ) ^ (k + (1074 - k)) * quantum = 1 := by
      rw [quantum, Nat.add_sub_cancel' hk, ← zpow_natCast, ← zpow_add₀ two_ne_zero]
      rfl
    rw [toRat_ofMagnitude (hlt.trans hsign), units_cell hhigh (.inr hlow), Nat.mul_assoc,
      ← Nat.pow_add, Nat.cast_mul, Nat.cast_pow, Nat.cast_ofNat, mul_assoc, hpow, mul_one]

theorem isExact_natCast {m : Nat} (hm : m ≤ 2 ^ 53) : IsExact m := by
  by_cases hzero : m = 0
  · refine ⟨ofMagnitude false 0, by decide, ?_⟩
    rw [toRat_ofMagnitude (by decide), units_zero, hzero, Nat.cast_zero, zero_mul]
  · have hunit : exponentUnit = 2 ^ 52 := by decide
    have hlow := Nat.log2_self_le hzero
    have hhigh : m < 2 ^ (m.log2 + 1) := Nat.lt_log2_self
    apply isExact_of_cell (k := 52 - m.log2) (by omega)
    · calc exponentUnit = 2 ^ 52 := hunit
        _ ≤ 2 ^ (m.log2 + (52 - m.log2)) := Nat.pow_le_pow_right two_pos (by omega)
        _ = 2 ^ m.log2 * 2 ^ (52 - m.log2) := Nat.pow_add ..
        _ ≤ m * 2 ^ (52 - m.log2) := Nat.mul_le_mul_right _ hlow
    · obtain hlong | hshort := Nat.lt_or_ge 52 m.log2
      · rw [Nat.sub_eq_zero_of_le hlong.le, Nat.pow_zero, Nat.mul_one]
        exact hm
      · calc m * 2 ^ (52 - m.log2) ≤ 2 ^ (m.log2 + 1) * 2 ^ (52 - m.log2) :=
              Nat.mul_le_mul_right _ hhigh.le
          _ = 2 ^ (m.log2 + 1 + (52 - m.log2)) := (Nat.pow_add ..).symm
          _ ≤ 2 ^ 53 := Nat.pow_le_pow_right two_pos (by omega)
          _ = 2 * exponentUnit := by rw [hunit, ← Nat.pow_succ']

/-- Whole numbers of 53 bits are values of numbers. -/
theorem isExact_intCast {n : Int} (hn : n.natAbs ≤ 2 ^ 53) : IsExact n := by
  obtain hnat | hnat := n.natAbs_eq
  · rw [hnat]
    exact isExact_natCast hn
  · rw [hnat, Int.cast_neg]
    exact (isExact_natCast hn).neg

end OperationChain.Binary64
