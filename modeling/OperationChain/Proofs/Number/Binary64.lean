import Mathlib.Tactic.GCongr
import Mathlib.Algebra.Order.Ring.Nat
import OperationChain.Number.Binary64

/-! # Sizes of rounded numbers

Rounding a ratio that is far below the largest finite number gives a finite number. Numbers
that are equal have one word, but for the sign of zero.
-/

namespace OperationChain.Binary64

variable {num den b : Nat} {negative : Bool} {x y : Binary64}

theorem magnitude_ofMagnitude {m : Nat} (hm : m < signBit) :
    (ofMagnitude negative m).magnitude = m := by
  unfold magnitude ofMagnitude
  rw [signBit] at *
  cases negative
  · rw [if_neg Bool.false_ne_true, UInt64.toNat_ofNat']
    omega
  · rw [if_pos rfl, UInt64.toNat_ofNat']
    omega

theorem roundDiv_le (num den : Nat) : roundDiv num den ≤ num / den + 1 := by
  unfold roundDiv
  dsimp only
  split <;> omega

theorem log2_le_of_lt (hlt : num < den * 2 ^ b) : num.log2 ≤ den.log2 + b := by
  by_cases hnum : num = 0
  · rw [hnum, Nat.log2_zero]
    exact Nat.zero_le _
  · have hpow : 2 ^ num.log2 < 2 ^ (den.log2 + 1 + b) :=
      calc 2 ^ num.log2 ≤ num := Nat.log2_self_le hnum
        _ < den * 2 ^ b := hlt
        _ ≤ 2 ^ (den.log2 + 1) * 2 ^ b := Nat.mul_le_mul_right _ Nat.lt_log2_self.le
        _ = 2 ^ (den.log2 + 1 + b) := (Nat.pow_add ..).symm
    have := (Nat.pow_lt_pow_iff_right (by omega)).mp hpow
    omega

theorem exponentFor_le (hlt : num < den * 2 ^ b) : exponentFor num den ≤ (b : Int) - 52 := by
  have hlog := log2_le_of_lt hlt
  unfold exponentFor
  dsimp only
  split <;> split <;> omega

theorem le_exponentFor (num den : Nat) :
    (num.log2 : Int) - den.log2 - 53 ≤ exponentFor num den := by
  unfold exponentFor
  dsimp only
  split <;> split <;> omega

/-- The significand that is rounded has few bits more than fit. -/
theorem roundAt_le (num : Nat) (hden : den ≠ 0) :
    roundAt num den (exponentFor num den) ≤ 4 * exponentUnit := by
  have hlow := le_exponentFor num den
  have hunit : 4 * exponentUnit = 2 ^ 54 := by decide
  have hnum : num < 2 ^ (num.log2 + 1) := Nat.lt_log2_self
  have hbase : 2 ^ den.log2 ≤ den := Nat.log2_self_le hden
  generalize exponentFor num den = e at hlow ⊢
  unfold roundAt
  rw [hunit, Nat.pow_eq, Nat.pow_eq]
  split
  · refine (roundDiv_le _ _).trans (Nat.div_lt_of_lt_mul ?_)
    calc num < 2 ^ (num.log2 + 1) := hnum
      _ ≤ 2 ^ (den.log2 + e.toNat + 54) := Nat.pow_le_pow_right (by omega) (by omega)
      _ = 2 ^ den.log2 * 2 ^ e.toNat * 2 ^ 54 := by rw [Nat.pow_add, Nat.pow_add]
      _ ≤ den * 2 ^ e.toNat * 2 ^ 54 := by gcongr
  · refine (roundDiv_le _ _).trans (Nat.div_lt_of_lt_mul ?_)
    calc num * 2 ^ (-e).toNat < 2 ^ (num.log2 + 1) * 2 ^ (-e).toNat :=
          Nat.mul_lt_mul_of_pos_right hnum (Nat.two_pow_pos _)
      _ = 2 ^ (num.log2 + 1 + (-e).toNat) := (Nat.pow_add ..).symm
      _ ≤ 2 ^ (den.log2 + 54) := Nat.pow_le_pow_right (by omega) (by omega)
      _ = 2 ^ den.log2 * 2 ^ 54 := Nat.pow_add ..
      _ ≤ den * 2 ^ 54 := by gcongr

theorem magnitude_neg (x : Binary64) : x.neg.magnitude = x.magnitude :=
  magnitude_ofMagnitude (Nat.mod_lt _ (by decide))

theorem isFinite_neg (x : Binary64) : x.neg.isFinite = x.isFinite := by
  rw [isFinite, isFinite, magnitude_neg]

/-- A number below `2 ^ b`, as far as its magnitude tells. -/
def Below (x : Binary64) (b : Nat) : Prop := x.magnitude ≤ (b + 1026) * exponentUnit

theorem Below.isFinite (hx : x.Below b) (hb : b ≤ 1020) : x.isFinite := by
  have hlt : (b + 1026) * exponentUnit < infinite := by
    unfold infinite exponentUnit
    omega
  exact decide_eq_true (hx.trans_lt hlt)

theorem below_ofRatio (hden : den ≠ 0) (hlt : num < den * 2 ^ b) :
    (ofRatio negative num den).Below b := by
  unfold ofRatio
  split
  · rw [Below, magnitude_ofMagnitude (by decide)]
    exact Nat.zero_le _
  · have hexponent := exponentFor_le hlt
    have hround := roundAt_le num hden
    dsimp only
    generalize exponentFor num den = e at hexponent hround ⊢
    have hmagnitude : (e + 1074).toNat * exponentUnit + roundAt num den e ≤
        (b + 1026) * exponentUnit :=
      calc (e + 1074).toNat * exponentUnit + roundAt num den e
        _ ≤ (b + 1022) * exponentUnit + 4 * exponentUnit :=
          Nat.add_le_add (Nat.mul_le_mul_right _ (by omega)) hround
        _ = (b + 1026) * exponentUnit := by rw [← Nat.add_mul]
    rw [Below, magnitude_ofMagnitude]
    · exact (min_le_left _ _).trans hmagnitude
    · exact (min_le_right _ _).trans_lt (by decide)

theorem below_ofInt {n : Int} (hn : n.natAbs < 2 ^ b) : (ofInt n).Below b :=
  below_ofRatio Nat.one_ne_zero (hn.trans_eq (Nat.one_mul _).symm)

theorem ratio_pos (x : Binary64) : 0 < x.ratio.2 := by
  unfold ratio
  split
  · exact Nat.one_pos
  · exact Nat.two_pow_pos _

/-! ## Equal numbers -/

theorem equal_self (hx : x.isNaN = false) : x.equal x = true := by
  simp [equal, compare?, hx]

/-- Equal numbers of one sign are one word. -/
theorem eq_of_equal (hequal : x.equal y = true) (hsign : x.isNegative = y.isNegative) : x = y := by
  have hkey : x.orderKey = y.orderKey := by
    unfold equal compare? at hequal
    split at hequal
    next => cases hequal
    next => exact Std.compare_eq_iff_eq.1 (Option.some.inj (beq_iff_eq.1 hequal))
  have hmagnitude : x.magnitude = y.magnitude := by
    rw [orderKey, orderKey, hsign] at hkey
    split at hkey <;> omega
  have hx := x.bits.toNat_lt
  have hy := y.bits.toNat_lt
  have hbits : x.bits.toNat = y.bits.toNat := by
    rw [isNegative, isNegative, decide_eq_decide] at hsign
    unfold magnitude at hmagnitude
    unfold signBit at hsign hmagnitude
    omega
  cases x
  cases y
  exact congrArg mk (UInt64.toNat_inj.1 hbits)

end OperationChain.Binary64
