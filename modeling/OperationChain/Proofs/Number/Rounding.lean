import Mathlib.Data.Nat.Cast.Order.Ring
import OperationChain.Proofs.Number.Nearest

/-! # Rounding to floating point numbers

Quotients, whole numbers and decimals of any size are rounded to the number nearest to them.
The quotient is counted in the power of two that leaves a significand of 53 bits; rounding
that count to a whole number takes it to the nearest magnitude, because the values of all
magnitudes are counts of this power too, or lie below the cell that the quotient is in.
-/

namespace OperationChain.Binary64

/-! ## Whole numbers -/

section Whole

variable {a : ℚ} {num den r t : Nat}

/-- A whole number within one half of a value, which is even if it is one half away. -/
structure RoundsTo (a : ℚ) (r : Nat) : Prop where
  near : |(r : ℚ) - a| ≤ 1 / 2
  even : |(r : ℚ) - a| = 1 / 2 → r % 2 = 0

theorem RoundsTo.half_le (h : RoundsTo a r) (hne : t ≠ r) : 1 / 2 ≤ |(t : ℚ) - a| := by
  obtain ⟨hbelow, habove⟩ := abs_le.mp h.near
  rw [le_abs]
  obtain hlt | hgt := hne.lt_or_gt
  · have hstep : (t : ℚ) + 1 ≤ r := by exact_mod_cast hlt
    right
    linarith
  · have hstep : (r : ℚ) + 1 ≤ t := by exact_mod_cast hgt
    left
    linarith

theorem RoundsTo.le (h : RoundsTo a r) (t : Nat) : |(r : ℚ) - a| ≤ |(t : ℚ) - a| := by
  by_cases hsame : t = r
  · rw [hsame]
  · exact h.near.trans (h.half_le hsame)

theorem RoundsTo.eq_or_even (h : RoundsTo a r) (htie : |(t : ℚ) - a| = |(r : ℚ) - a|) :
    t = r ∨ r % 2 = 0 := by
  by_cases hsame : t = r
  · exact .inl hsame
  · exact .inr (h.even (h.near.antisymm ((h.half_le hsame).trans_eq htie)))

theorem RoundsTo.le_of_le (h : RoundsTo a r) (hle : a ≤ t) : r ≤ t := by
  by_contra! hlt
  have hlt : (t : ℚ) < r := by exact_mod_cast hlt
  have := (abs_sub_le_right_iff hlt).mp (h.le t)
  linarith

theorem RoundsTo.le_of_le' (h : RoundsTo a r) (hle : t ≤ a) : t ≤ r := by
  by_contra! hlt
  have hlt : (r : ℚ) < t := by exact_mod_cast hlt
  have := (abs_sub_le_left_iff hlt).mp (h.le t)
  linarith

theorem RoundsTo.down {f : ℚ} (hf : 0 ≤ f) (hhalf : f ≤ 1 / 2) (heven : f = 1 / 2 → r % 2 = 0) :
    RoundsTo (r + f) r := by
  have hdist : |(r : ℚ) - (r + f)| = f := by
    rw [sub_add_cancel_left, abs_neg, abs_of_nonneg hf]
  exact ⟨hdist.trans_le hhalf, fun heq => heven (hdist.symm.trans heq)⟩

theorem RoundsTo.up {f : ℚ} (hf : f ≤ 1) (hhalf : 1 / 2 ≤ f)
    (heven : f = 1 / 2 → (r + 1) % 2 = 0) : RoundsTo (r + f) (r + 1) := by
  have hdist : |((r + 1 : Nat) : ℚ) - (r + f)| = 1 - f := by
    rw [Nat.cast_add_one, add_sub_add_left_eq_sub, abs_of_nonneg (sub_nonneg.mpr hf)]
  refine ⟨?_, ?_⟩
  · rw [hdist]
    linarith
  · intro heq
    apply heven
    linarith

theorem half_le_div_iff (num : Nat) (hden : 0 < den) : (1 / 2 : ℚ) ≤ num / den ↔ den ≤ 2 * num := by
  rw [div_le_div_iff₀ two_pos (by exact_mod_cast hden), one_mul, mul_comm]
  norm_cast

theorem div_le_half_iff (num : Nat) (hden : 0 < den) : (num / den : ℚ) ≤ 1 / 2 ↔ 2 * num ≤ den := by
  rw [div_le_div_iff₀ (by exact_mod_cast hden) two_pos, one_mul, mul_comm]
  norm_cast

theorem roundsTo_roundDiv (num : Nat) (hden : den ≠ 0) :
    RoundsTo (num / den) (roundDiv num den) := by
  have hden : 0 < den := Nat.pos_of_ne_zero hden
  have hpos : (0 : ℚ) < den := by exact_mod_cast hden
  have hvalue : (num / den : ℚ) = (num / den : Nat) + (num % den : Nat) / den := by
    rw [eq_comm, ← mul_left_inj' hpos.ne', add_mul, div_mul_cancel₀ _ hpos.ne',
      div_mul_cancel₀ _ hpos.ne']
    exact_mod_cast Nat.div_add_mod' num den
  have hlow := half_le_div_iff (num % den) hden
  have hhigh := div_le_half_iff (num % den) hden
  rw [hvalue]
  unfold roundDiv
  dsimp only
  split
  next hup =>
    apply RoundsTo.up
    · rw [div_le_iff₀ hpos, one_mul]
      exact_mod_cast (Nat.mod_lt num hden).le
    · exact hlow.mpr (by omega)
    · intro heq
      have := hhigh.mp heq.le
      omega
  next hdown =>
    apply RoundsTo.down
    · exact div_nonneg (Nat.cast_nonneg _) hpos.le
    · exact hhigh.mpr (by omega)
    · intro heq
      have := hlow.mp heq.ge
      have := hhigh.mp heq.le
      omega

theorem roundsTo_roundAt (num : Nat) (hden : den ≠ 0) (exponent : Int) :
    RoundsTo (num / den / 2 ^ exponent) (roundAt num den exponent) := by
  unfold roundAt
  rw [Nat.pow_eq, Nat.pow_eq]
  split
  next hexponent =>
    have hvalue : (num / den / 2 ^ exponent : ℚ) = num / (den * 2 ^ exponent.toNat : Nat) := by
      rw [Nat.cast_mul, cast_pow_toNat hexponent, Nat.cast_ofNat, div_div]
    rw [hvalue]
    exact roundsTo_roundDiv _ (Nat.mul_ne_zero hden (Nat.two_pow_pos _).ne')
  next hexponent =>
    have hvalue : (num / den / 2 ^ exponent : ℚ) = (num * 2 ^ (-exponent).toNat : Nat) / den := by
      rw [Nat.cast_mul, cast_pow_toNat_neg hexponent, Nat.cast_ofNat, div_right_comm,
        div_eq_mul_inv (num : ℚ)]
    rw [hvalue]
    exact roundsTo_roundDiv _ hden

/-! ## The exponent -/

theorem two_pow_log2_le (hnum : num ≠ 0) : (2 : ℚ) ^ (num.log2 : Int) ≤ num := by
  rw [zpow_natCast]
  exact_mod_cast Nat.log2_self_le hnum

theorem lt_two_pow_log2 (num : Nat) : (num : ℚ) < 2 ^ ((num.log2 : Int) + 1) := by
  rw [← Nat.cast_add_one, zpow_natCast]
  exact_mod_cast Nat.lt_log2_self

/-- A quotient is within a factor of two of what the lengths of its parts tell. -/
theorem div_log2_bounds (hnum : num ≠ 0) (hden : den ≠ 0) :
    (2 : ℚ) ^ ((num.log2 : Int) - den.log2 - 1) < num / den ∧
      (num / den : ℚ) < 2 ^ ((num.log2 : Int) - den.log2 + 1) := by
  have hpos : (0 : ℚ) < den := by exact_mod_cast Nat.pos_of_ne_zero hden
  rw [lt_div_iff₀ hpos, div_lt_iff₀ hpos]
  constructor
  · calc (2 : ℚ) ^ ((num.log2 : Int) - den.log2 - 1) * den
      _ < 2 ^ ((num.log2 : Int) - den.log2 - 1) * 2 ^ ((den.log2 : Int) + 1) :=
        mul_lt_mul_of_pos_left (lt_two_pow_log2 den) (zpow_pos two_pos _)
      _ = 2 ^ (num.log2 : Int) := by
        rw [← zpow_add₀ two_ne_zero]
        congr 1
        omega
      _ ≤ num := two_pow_log2_le hnum
  · calc (num : ℚ) < 2 ^ ((num.log2 : Int) + 1) := lt_two_pow_log2 num
      _ = 2 ^ ((num.log2 : Int) - den.log2 + 1) * 2 ^ (den.log2 : Int) := by
        rw [← zpow_add₀ two_ne_zero]
        congr 1
        omega
      _ ≤ 2 ^ ((num.log2 : Int) - den.log2 + 1) * den :=
        mul_le_mul_of_nonneg_left (two_pow_log2_le hden) (zpow_pos two_pos _).le

theorem cast_exponentUnit : (exponentUnit : ℚ) = 2 ^ (52 : Int) := by
  norm_num [exponentUnit]

theorem isShort_iff (num : Nat) (hden : den ≠ 0) (guess : Int) :
    (if 0 ≤ guess then num < den * Nat.pow 2 (guess.toNat + 52)
      else num * Nat.pow 2 (-guess).toNat < den * exponentUnit) ↔
      (num / den : ℚ) < 2 ^ (guess + 52) := by
  have hpos : (0 : ℚ) < den := by exact_mod_cast Nat.pos_of_ne_zero hden
  rw [div_lt_iff₀ hpos, Nat.pow_eq, Nat.pow_eq]
  split
  next hguess =>
    have hexponent : guess + 52 = (guess.toNat + 52 : Nat) := by omega
    rw [hexponent, zpow_natCast, mul_comm]
    exact_mod_cast Iff.rfl
  next hguess =>
    have hexponent : guess + 52 = 52 - ((-guess).toNat : Int) := by omega
    rw [hexponent, zpow_sub₀ two_ne_zero, zpow_natCast, ← cast_exponentUnit, div_mul_eq_mul_div,
      lt_div_iff₀ (pow_pos two_pos _), mul_comm (exponentUnit : ℚ)]
    exact_mod_cast Iff.rfl

/-- The exponent is the least one, or leaves a significand of 53 bits. -/
theorem exponentFor_bounds (hnum : num ≠ 0) (hden : den ≠ 0) :
    -1074 ≤ exponentFor num den ∧ (num / den : ℚ) < 2 ^ (exponentFor num den + 53) ∧
      (exponentFor num den = -1074 ∨ (2 : ℚ) ^ (exponentFor num den + 52) ≤ num / den) := by
  have hpow {i j : Int} (hle : i ≤ j) : (2 : ℚ) ^ i ≤ 2 ^ j :=
    zpow_le_zpow_right₀ one_le_two hle
  obtain ⟨hlow, hhigh⟩ := div_log2_bounds hnum hden
  have hshort := isShort_iff num hden ((num.log2 : Int) - den.log2 - 52)
  unfold exponentFor
  dsimp only
  generalize (num.log2 : Int) - den.log2 = length at *
  refine ⟨le_max_right _ _, ?_⟩
  by_cases hlt : (num / den : ℚ) < 2 ^ (length - 52 + 52)
  · rw [if_pos (hshort.mpr hlt)]
    refine ⟨hlt.trans_le (hpow (by omega)), ?_⟩
    obtain hle | hge := le_total (length - 52 - 1) (-1074)
    · exact .inl (max_eq_right hle)
    · exact .inr ((hpow (by omega)).trans hlow.le)
  · rw [if_neg (hshort.not.mpr hlt)]
    refine ⟨hhigh.trans_le (hpow (by omega)), ?_⟩
    obtain hle | hge := le_total (length - 52) (-1074)
    · exact .inl (max_eq_right hle)
    · exact .inr ((hpow (by omega)).trans (not_lt.mp hlt))

end Whole

/-! ## Cells -/

section Cells

variable {a w : ℚ} {e r n : Nat}

/-- A value lies below a cell, or is a multiple of the power of two of the cell. -/
theorem units_lt_or_eq_mul (n e : Nat) :
    units n < exponentUnit * 2 ^ e ∨ ∃ t, units n = t * 2 ^ e := by
  obtain ⟨f, r, rfl, hr, hcell⟩ := exists_cell n
  rw [units_cell hr.le hcell]
  obtain hlt | hle := Nat.lt_or_ge f e
  · left
    calc r * 2 ^ f < 2 * exponentUnit * 2 ^ f := Nat.mul_lt_mul_of_pos_right hr (Nat.two_pow_pos f)
      _ = exponentUnit * 2 ^ (f + 1) := by rw [Nat.pow_succ', Nat.mul_left_comm, Nat.mul_assoc]
      _ ≤ exponentUnit * 2 ^ e := Nat.mul_le_mul_left _ (Nat.pow_le_pow_right two_pos hlt)
  · right
    refine ⟨r * 2 ^ (f - e), ?_⟩
    rw [Nat.mul_assoc, ← Nat.pow_add, Nat.sub_add_cancel hle]

theorem abs_mul_two_pow_sub (t : ℚ) : |t * 2 ^ e - a * 2 ^ e| = |t - a| * 2 ^ e := by
  have hpos : (0 : ℚ) < 2 ^ e := pow_pos two_pos e
  rw [← sub_mul, abs_mul, abs_of_pos hpos]

/-- Values below a cell are further away than what is rounded within it. -/
theorem lt_abs_units_sub (h : RoundsTo a r) (ha : exponentUnit ≤ a)
    (hn : units n < exponentUnit * 2 ^ e) :
    |(r : ℚ) - a| * 2 ^ e < |(units n : ℚ) - a * 2 ^ e| := by
  have hn : (units n : ℚ) < exponentUnit * 2 ^ e := by exact_mod_cast hn
  calc |(r : ℚ) - a| * 2 ^ e ≤ |(exponentUnit : ℚ) - a| * 2 ^ e :=
        mul_le_mul_of_nonneg_right (h.le _) (pow_pos two_pos e).le
    _ = a * 2 ^ e - exponentUnit * 2 ^ e := by
        rw [abs_sub_comm, abs_of_nonneg (sub_nonneg.mpr ha), sub_mul]
    _ < a * 2 ^ e - units n := sub_lt_sub_left hn _
    _ ≤ |(units n : ℚ) - a * 2 ^ e| := by
        rw [abs_sub_comm]
        exact le_abs_self _

/-- What is rounded within a cell is nearest among all magnitudes. -/
theorem nearest_cell (h : RoundsTo a r) (ha : a ≤ 2 * exponentUnit)
    (hcell : e = 0 ∨ exponentUnit ≤ a) (n : Nat) :
    |(units (e * exponentUnit + r) : ℚ) - a * 2 ^ e| ≤ |(units n : ℚ) - a * 2 ^ e| ∧
      (|(units n : ℚ) - a * 2 ^ e| = |(units (e * exponentUnit + r) : ℚ) - a * 2 ^ e| →
        n = e * exponentUnit + r ∨ (e * exponentUnit + r) % 2 = 0) := by
  have hr : r ≤ 2 * exponentUnit := h.le_of_le (by exact_mod_cast ha)
  have hunits : units (e * exponentUnit + r) = r * 2 ^ e :=
    units_cell hr (hcell.imp_right h.le_of_le')
  have hpos : (0 : ℚ) < 2 ^ e := pow_pos two_pos e
  have hdist : |(units (e * exponentUnit + r) : ℚ) - a * 2 ^ e| = |(r : ℚ) - a| * 2 ^ e := by
    rw [hunits, Nat.cast_mul, Nat.cast_pow, Nat.cast_ofNat, abs_mul_two_pow_sub]
  rw [hdist]
  have hmultiple : (exponentUnit ≤ a ∧ units n < exponentUnit * 2 ^ e) ∨
      ∃ t, units n = t * 2 ^ e := by
    obtain rfl | ha := hcell
    · exact .inr ⟨units n, (Nat.mul_one _).symm⟩
    · exact (units_lt_or_eq_mul n e).imp_left fun hlt => ⟨ha, hlt⟩
  obtain ⟨ha, hlt⟩ | ⟨t, ht⟩ := hmultiple
  · have hlt := lt_abs_units_sub h ha hlt
    exact ⟨hlt.le, fun heq => absurd heq hlt.ne'⟩
  · rw [ht, Nat.cast_mul, Nat.cast_pow, Nat.cast_ofNat, abs_mul_two_pow_sub]
    refine ⟨mul_le_mul_of_nonneg_right (h.le t) hpos.le, ?_⟩
    intro heq
    obtain rfl | heven := h.eq_or_even (mul_right_cancel₀ hpos.ne' heq)
    · exact .inl (strictMono_units.injective (ht.trans hunits.symm))
    · right
      unfold exponentUnit
      omega

/-- What is beyond all numbers is rounded to the infinity. -/
theorem nearest_infinite (hw : units infinite ≤ w) :
    Nearest (w * quantum) (ofMagnitude false infinite) := by
  have hle {n : Nat} (hn : n ≤ infinite) : (units n : ℚ) ≤ units infinite := by
    exact_mod_cast strictMono_units.monotone hn
  have hdist {n : Nat} (hn : n ≤ infinite) : |(units n : ℚ) - w| = w - units n := by
    rw [abs_sub_comm, abs_of_nonneg (sub_nonneg.mpr ((hle hn).trans hw))]
  apply nearest_ofMagnitude ((Nat.cast_nonneg _).trans hw) le_rfl
  · intro n hn
    rw [hdist hn, hdist le_rfl]
    exact sub_le_sub_left (hle hn) _
  · intro n hn heq
    rw [hdist hn, hdist le_rfl, sub_right_inj, Nat.cast_inj] at heq
    exact .inl (strictMono_units.injective heq)

theorem nearest_round (h : RoundsTo a r) (hnonneg : 0 ≤ a) (ha : a ≤ 2 * exponentUnit)
    (hcell : e = 0 ∨ exponentUnit ≤ a) :
    Nearest (a * 2 ^ e * quantum) (ofMagnitude false (min (e * exponentUnit + r) infinite)) := by
  have hnearest := nearest_cell h ha hcell
  generalize e * exponentUnit + r = m at hnearest ⊢
  obtain hgt | hle := Nat.lt_or_ge infinite m
  · rw [min_eq_right hgt.le]
    apply nearest_infinite
    have hlt : (units infinite : ℚ) < units m := by exact_mod_cast strictMono_units hgt
    have := (abs_sub_le_right_iff hlt).mp (hnearest infinite).1
    linarith
  · rw [min_eq_left hle]
    apply nearest_ofMagnitude (mul_nonneg hnonneg (pow_pos two_pos e).le) hle
    · exact fun n _ => (hnearest n).1
    · exact fun n _ => (hnearest n).2

end Cells

/-! ## Roundings -/

/-- A value with this sign. -/
def signed (negative : Bool) (q : ℚ) : ℚ := if negative then -q else q

theorem Nearest.signed {q : ℚ} {m : Nat} (h : Nearest q (ofMagnitude false m)) (hm : m ≤ infinite)
    (negative : Bool) : Nearest (signed negative q) (ofMagnitude negative m) := by
  cases negative with
  | false => exact h
  | true =>
      have hlt : m < signBit := hm.trans_lt (by decide)
      have hneg : (ofMagnitude false m).neg = ofMagnitude true m := by
        rw [Binary64.neg, isNegative_ofMagnitude hlt, magnitude_ofMagnitude hlt]
        rfl
      exact hneg ▸ h.neg

section Roundings

variable {num den : Nat} (negative : Bool)

/-- What is at most half of the least positive number is rounded to zero. -/
theorem nearest_of_le {q : ℚ} (hnonneg : 0 ≤ q) (hq : q ≤ 2 ^ (-1075 : Int)) :
    Nearest q (ofMagnitude false 0) := by
  have hhalf : (2 : ℚ) ^ (-1075 : Int) = 1 / 2 * quantum := by
    rw [quantum, one_div, ← zpow_neg_one, ← zpow_add₀ two_ne_zero]
    rfl
  have hw : q / quantum ≤ 1 / 2 := by
    rw [div_le_iff₀ quantum_pos, ← hhalf]
    exact hq
  have hw' : 0 ≤ q / quantum := div_nonneg hnonneg quantum_pos.le
  have hround : RoundsTo (q / quantum) 0 := by
    refine ⟨?_, fun _ => rfl⟩
    rwa [Nat.cast_zero, zero_sub, abs_neg, abs_of_nonneg hw']
  have hnearest := nearest_round (e := 0) hround hw' (hw.trans (by norm_num [exponentUnit]))
    (.inl rfl)
  rwa [pow_zero, mul_one, div_mul_cancel₀ _ quantum_pos.ne'] at hnearest

/-- Quotients are rounded to the nearest number. -/
theorem nearest_ofRatio (num : Nat) (hden : den ≠ 0) :
    Nearest (signed negative (num / den)) (ofRatio negative num den) := by
  unfold ofRatio
  split
  next hnum =>
    rw [hnum, Nat.cast_zero, zero_div]
    exact (nearest_of_le le_rfl (zpow_pos two_pos _).le).signed (Nat.zero_le _) negative
  next hnum =>
    obtain ⟨hleast, hlt, hcell⟩ := exponentFor_bounds hnum hden
    have hround := roundsTo_roundAt num hden (exponentFor num den)
    dsimp only
    generalize exponentFor num den = exponent at *
    have hpow : (0 : ℚ) < 2 ^ exponent := zpow_pos two_pos _
    have hvalue : (num / den : ℚ) =
        num / den / 2 ^ exponent * 2 ^ (exponent + 1074).toNat * quantum := by
      rw [← zpow_natCast, Int.toNat_of_nonneg (by omega), quantum, mul_assoc,
        ← zpow_add₀ two_ne_zero, add_neg_cancel_right, div_mul_cancel₀ _ hpow.ne']
    rw [hvalue]
    apply (nearest_round hround ?_ ?_ ?_).signed (min_le_right _ _)
    · exact div_nonneg (div_nonneg (Nat.cast_nonneg _) (Nat.cast_nonneg _)) hpow.le
    · have htop : (2 : ℚ) ^ (exponent + 53) = 2 * 2 ^ (52 : Int) * 2 ^ exponent := by
        rw [← zpow_one_add₀ two_ne_zero, ← zpow_add₀ two_ne_zero]
        congr 1
        omega
      rw [div_le_iff₀ hpow, cast_exponentUnit, ← htop]
      exact hlt.le
    · rw [le_div_iff₀ hpow, cast_exponentUnit, ← zpow_add₀ two_ne_zero, add_comm 52]
      exact hcell.imp_left fun hleast => by omega

theorem cast_eq_signed (n : Int) : (n : ℚ) = signed (n < 0) n.natAbs := by
  unfold signed
  rw [Nat.cast_natAbs]
  split
  next hneg => rw [abs_of_neg (of_decide_eq_true hneg), Int.cast_neg, neg_neg]
  next hneg => rw [abs_of_nonneg (not_lt.mp fun hlt => hneg (decide_eq_true hlt))]

/-- Whole numbers are rounded to the nearest number. -/
theorem nearest_ofInt (n : Int) : Nearest n (ofInt n) := by
  have hnearest := nearest_ofRatio (n < 0) n.natAbs Nat.one_ne_zero
  rwa [Nat.cast_one, div_one, ← cast_eq_signed] at hnearest

end Roundings

/-! ## Decimals -/

section Decimals

variable {digits : Nat}

theorem toDigits_bounds (hdigits : digits ≠ 0) :
    10 ^ ((Nat.toDigits 10 digits).length - 1) ≤ digits ∧
      digits < 10 ^ (Nat.toDigits 10 digits).length := by
  have hpos := Nat.length_toDigits_pos (b := 10) (n := digits)
  have hle {k : Nat} (hk : 0 < k) : (Nat.toDigits 10 digits).length ≤ k ↔ digits < 10 ^ k :=
    Nat.length_toDigits_le_iff (by decide) hk
  refine ⟨?_, (hle hpos).mp le_rfl⟩
  obtain hone | hlong := Nat.eq_or_lt_of_le hpos
  · rw [← hone]
    exact Nat.pos_of_ne_zero hdigits
  · exact Nat.not_lt.mp ((hle (Nat.sub_pos_of_lt hlong)).not.mp (by omega))

/-- A decimal is as large as its digits and its exponent tell. -/
theorem decimal_bounds (hdigits : digits ≠ 0) (exponent : Int) :
    (10 : ℚ) ^ ((Nat.toDigits 10 digits).length + exponent - 1) ≤ digits * 10 ^ exponent ∧
      (digits * 10 ^ exponent : ℚ) < 10 ^ ((Nat.toDigits 10 digits).length + exponent) := by
  have hten : (10 : ℚ) ≠ 0 := by norm_num
  have hpos : (0 : ℚ) < 10 ^ exponent := zpow_pos (by norm_num) _
  have hlength := Nat.length_toDigits_pos (b := 10) (n := digits)
  obtain ⟨hlow, hhigh⟩ := toDigits_bounds hdigits
  have hlow : (10 : ℚ) ^ ((Nat.toDigits 10 digits).length - 1) ≤ digits := by exact_mod_cast hlow
  have hhigh : (digits : ℚ) < 10 ^ (Nat.toDigits 10 digits).length := by exact_mod_cast hhigh
  constructor
  · have hexponent : ((Nat.toDigits 10 digits).length + exponent - 1 : Int) =
        ((Nat.toDigits 10 digits).length - 1 : Nat) + exponent := by omega
    rw [hexponent, zpow_add₀ hten, zpow_natCast]
    exact mul_le_mul_of_nonneg_right hlow hpos.le
  · rw [zpow_add₀ hten, zpow_natCast]
    exact mul_lt_mul_of_pos_right hhigh hpos

theorem ten_pow_le : (10 : ℚ) ^ (-330 : Int) ≤ 2 ^ (-1075 : Int) := by
  rw [zpow_neg, zpow_neg]
  apply inv_anti₀ (zpow_pos two_pos _)
  have : 2 ^ 1075 ≤ 10 ^ 330 := by decide +kernel
  exact_mod_cast this

theorem le_ten_pow : (units infinite : ℚ) ≤ 10 ^ (310 : Int) / quantum := by
  have hunits : units infinite = exponentUnit * 2 ^ 2046 :=
    units_cell (e := 2046) (r := exponentUnit) (by decide) (.inr le_rfl)
  have hrange : (units infinite : ℚ) * quantum = 2 ^ (1024 : Int) := by
    rw [hunits, Nat.cast_mul, Nat.cast_pow, cast_exponentUnit, Nat.cast_ofNat, ← zpow_natCast,
      quantum, ← zpow_add₀ two_ne_zero, ← zpow_add₀ two_ne_zero]
    rfl
  rw [le_div_iff₀ quantum_pos, hrange]
  have : 2 ^ 1024 ≤ 10 ^ 310 := by decide +kernel
  exact_mod_cast this

theorem nearest_ratio_of_decimal (negative : Bool) (digits : Nat) (exponent : Int) :
    Nearest (signed negative (digits * 10 ^ exponent))
      (if 0 ≤ exponent then ofRatio negative (digits * 10 ^ exponent.toNat) 1
        else ofRatio negative digits (10 ^ (-exponent).toNat)) := by
  split
  next hexponent =>
    have hvalue : (digits * 10 ^ exponent : ℚ) =
        (digits * 10 ^ exponent.toNat : Nat) / (1 : Nat) := by
      rw [Nat.cast_one, div_one, Nat.cast_mul, cast_pow_toNat hexponent, Nat.cast_ofNat]
    rw [hvalue]
    exact nearest_ofRatio _ _ Nat.one_ne_zero
  next hexponent =>
    have hvalue : (digits * 10 ^ exponent : ℚ) = digits / (10 ^ (-exponent).toNat : Nat) := by
      rw [cast_pow_toNat_neg hexponent, Nat.cast_ofNat, div_inv_eq_mul]
    rw [hvalue]
    exact nearest_ofRatio _ _ (Nat.pow_pos (by decide)).ne'

/-- Decimals are rounded to the nearest number. -/
theorem nearest_ofDecimal (negative : Bool) (digits : Nat) (exponent : Int) :
    Nearest (signed negative (digits * 10 ^ exponent)) (ofDecimal negative digits exponent) := by
  have hpos : (0 : ℚ) < 10 ^ exponent := zpow_pos (by norm_num) _
  have hnonneg : (0 : ℚ) ≤ digits * 10 ^ exponent := mul_nonneg (Nat.cast_nonneg _) hpos.le
  have hpow {i j : Int} (hle : i ≤ j) : (10 : ℚ) ^ i ≤ 10 ^ j :=
    zpow_le_zpow_right₀ (by norm_num) hle
  by_cases hdigits : digits = 0
  · rw [ofDecimal, if_pos (.inl hdigits), hdigits, Nat.cast_zero, zero_mul]
    exact (nearest_of_le le_rfl (zpow_pos two_pos _).le).signed (Nat.zero_le _) negative
  · obtain ⟨hlow, hhigh⟩ := decimal_bounds hdigits exponent
    unfold ofDecimal
    dsimp only
    split
    next hsmall =>
      apply (nearest_of_le hnonneg ?_).signed (Nat.zero_le _)
      exact hhigh.le.trans ((hpow (hsmall.resolve_left hdigits).le).trans ten_pow_le)
    next hsmall =>
      split
      next hlarge =>
        have hbeyond : (units infinite : ℚ) ≤ digits * 10 ^ exponent / quantum :=
          le_ten_pow.trans (div_le_div_of_nonneg_right ((hpow (by omega)).trans hlow)
            quantum_pos.le)
        have hnearest := (nearest_infinite hbeyond).signed le_rfl negative
        rwa [div_mul_cancel₀ _ quantum_pos.ne'] at hnearest
      next hlarge => exact nearest_ratio_of_decimal negative digits exponent

end Decimals

end OperationChain.Binary64
