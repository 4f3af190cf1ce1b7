import OperationChain.Proofs.Number.Decimal

/-! # Decimals with one spelling

Decimals that are one number may have several spellings, since a scale is kept when it is
written. Zero has one spelling, and so have decimals with one scale; besides these only the
scales that are written as zeros in full make no difference. The spelling of a decimal is that
of the decimal that is read from it.
-/

namespace OperationChain

namespace Numeral

/-- Multiplying by ten puts a zero behind the digits. -/
theorem ofNat_mul_pow {n : Nat} (hn : n ≠ 0) (count : Nat) :
    ofNat (n * 10 ^ count) = ofNat n ++ List.replicate count '0' := by
  induction count with
  | zero => rw [Nat.pow_zero, Nat.mul_one, List.replicate_zero, List.append_nil]
  | succ count ih =>
      have hpos : 0 < n * 10 ^ count := Nat.mul_pos (Nat.pos_of_ne_zero hn) (by positivity)
      rw [Nat.pow_succ, ← Nat.mul_assoc, ofNat_of_le (by omega), Nat.mul_div_cancel _ (by decide),
        Nat.mul_mod_left, ih, List.append_assoc, List.replicate_succ']
      rfl

end Numeral

namespace Decimal

variable {d e : Decimal}

/-- Whether the scale stands for zeros that are written in full. -/
def InFull (d : Decimal) : Prop := d.scale ≤ 0 ∧ -15 ≤ d.scale

instance (d : Decimal) : Decidable d.InFull := inferInstanceAs (Decidable (_ ∧ _))

/-! ## One number -/

/-- The digits are those of the number without zeros at its end, and as many zeros as the scale
is larger. -/
theorem exists_strip (d : Decimal) (count : Nat) :
    ∃ k : Nat, d.unscaled = (d.strip count).unscaled * 10 ^ k ∧
      d.scale = (d.strip count).scale + k := by
  induction count generalizing d with
  | zero => exact ⟨0, by rw [strip, Int.pow_zero, Int.mul_one], by rw [strip]; omega⟩
  | succ count ih =>
      rw [strip]
      split
      next hzero =>
        obtain ⟨k, hunscaled, hscale⟩ := ih ⟨d.unscaled / 10, d.scale - 1⟩
        refine ⟨k + 1, ?_, ?_⟩
        · rw [Int.pow_succ, ← Int.mul_assoc, ← hunscaled]
          exact (Int.ediv_mul_cancel (Int.dvd_of_emod_eq_zero hzero)).symm
        · have hscale : d.scale - 1 = _ := hscale
          omega
      next => exact ⟨0, by rw [Int.pow_zero, Int.mul_one], by omega⟩

theorem exists_normal (d : Decimal) :
    ∃ k : Nat, d.unscaled = d.normal.unscaled * 10 ^ k ∧
      (d.unscaled ≠ 0 → d.scale = d.normal.scale + k) := by
  rw [normal]
  split
  next hzero => exact ⟨0, by rw [hzero]; rfl, fun hne => absurd hzero hne⟩
  next =>
    obtain ⟨k, hunscaled, hscale⟩ := d.exists_strip _
    exact ⟨k, hunscaled, fun _ => hscale⟩

theorem unscaled_eq_zero_iff : d.unscaled = 0 ↔ d.normal.unscaled = 0 := by
  obtain ⟨k, hunscaled, -⟩ := d.exists_normal
  have hpow : (10 : Int) ^ k ≠ 0 := by positivity
  rw [hunscaled, mul_eq_zero, or_iff_left hpow]

theorem zero_of_equal (hequal : d.equal e = true) : d.unscaled = 0 ↔ e.unscaled = 0 := by
  rw [equal, beq_iff_eq] at hequal
  rw [unscaled_eq_zero_iff, hequal, ← unscaled_eq_zero_iff]

/-- A number has one form with a given scale. -/
theorem eq_of_equal (hequal : d.equal e = true) (hscale : d.scale = e.scale) : d = e := by
  have hzero := zero_of_equal hequal
  obtain ⟨i, hd, hdscale⟩ := d.exists_normal
  obtain ⟨j, he, hescale⟩ := e.exists_normal
  rw [equal, beq_iff_eq] at hequal
  have hunscaled : d.unscaled = e.unscaled := by
    by_cases h : d.unscaled = 0
    · rw [h, hzero.1 h]
    · -- With one scale the same number of zeros was taken off both.
      have hd' := hdscale h
      have he' := hescale (mt hzero.2 h)
      rw [hequal] at hd hd'
      have hij : i = j := by omega
      rw [hd, he, hij]
  cases d
  cases e
  cases hunscaled
  cases hscale
  rfl

/-! ## One spelling -/

theorem written_of_zero (hzero : d.unscaled = 0) : d.written = ⟨0, 0⟩ := by
  rw [written, hzero]
  rfl

theorem written_of_inFull (hzero : d.unscaled ≠ 0) (hfull : d.InFull) :
    d.written = ⟨d.unscaled * 10 ^ (-d.scale).toNat, 0⟩ := by
  unfold InFull at hfull
  rw [written, if_neg hzero, rescaled, if_pos hfull, ofSign_mul, ofSign_natAbs, Int.natCast_pow]
  rfl

theorem written_of_not_inFull (hzero : d.unscaled ≠ 0) (hfull : ¬ d.InFull) : d.written = d := by
  unfold InFull at hfull
  rw [written, if_neg hzero, rescaled, if_neg hfull, ofSign_natAbs]

theorem magnitudeChars_inFull {digits : List Char} {scale : Int} (hlow : -15 ≤ scale)
    (hhigh : scale ≤ 0) :
    magnitudeChars digits scale = digits ++ List.replicate (-scale).toNat '0' := by
  unfold magnitudeChars
  simp only
  rw [if_neg (by omega), if_neg (by omega), if_pos hhigh]

/-- Zeros in full are the digits of a greater number. -/
theorem text_of_inFull (hzero : d.unscaled ≠ 0) (hfull : d.InFull) :
    d.text = (⟨d.unscaled * 10 ^ (-d.scale).toNat, 0⟩ : Decimal).text := by
  have hpow : (0 : Int) < 10 ^ (-d.scale).toNat := by positivity
  have hne : d.unscaled * 10 ^ (-d.scale).toNat ≠ 0 := mul_ne_zero hzero hpow.ne'
  have hsign : d.unscaled * 10 ^ (-d.scale).toNat < 0 ↔ d.unscaled < 0 := by
    rw [← not_le, mul_nonneg_iff_of_pos_right hpow, not_le]
  have hdigits : Numeral.ofNat (d.unscaled * 10 ^ (-d.scale).toNat).natAbs =
      Numeral.ofNat d.unscaled.natAbs ++ List.replicate (-d.scale).toNat '0' := by
    rw [Int.natAbs_mul, Int.natAbs_pow]
    exact Numeral.ofNat_mul_pow (Int.natAbs_ne_zero.2 hzero) _
  rw [text, text, if_neg hzero, if_neg hne, magnitudeChars_inFull hfull.2 hfull.1,
    magnitudeChars_inFull (by decide) (Int.le_refl 0), hdigits]
  simp only [hsign, Int.neg_zero, Int.toNat_zero, List.replicate_zero, List.append_nil]

/-- The decimal that is read from a spelling is spelled in the same way. -/
theorem text_written (d : Decimal) : d.written.text = d.text := by
  by_cases hzero : d.unscaled = 0
  · rw [written_of_zero hzero, text, text, hzero]
    rfl
  by_cases hfull : d.InFull
  · rw [written_of_inFull hzero hfull, text_of_inFull hzero hfull]
  · rw [written_of_not_inFull hzero hfull]

theorem text_eq_iff_written_eq (hd : (Numeral.toInt64? d.scale).isSome = true)
    (he : (Numeral.toInt64? e.scale).isSome = true) : d.text = e.text ↔ d.written = e.written := by
  constructor
  · intro htext
    have hread := parse?_text d hd
    rw [htext, parse?_text e he] at hread
    exact (Option.some.inj hread).symm
  · intro hwritten
    rw [← text_written d, hwritten, text_written]

theorem written_scale (d : Decimal) :
    d.written.scale = if d.unscaled = 0 ∨ d.InFull then 0 else d.scale := by
  by_cases hzero : d.unscaled = 0
  · rw [written_of_zero hzero, if_pos (Or.inl hzero)]
  by_cases hfull : d.InFull
  · rw [written_of_inFull hzero hfull, if_pos (Or.inr hfull)]
  · rw [written_of_not_inFull hzero hfull, if_neg (not_or_intro hzero hfull)]

/-- Equal decimals are spelled alike if they are zero, if they have one scale, and if the zeros
of both are written in full. -/
theorem written_eq_iff :
    d.written = e.written ↔
      d.equal e = true ∧ (d.unscaled = 0 ∨ d.scale = e.scale ∨ d.InFull ∧ e.InFull) := by
  have hequals : d.written.equal e.written = true ↔ d.equal e = true := by
    have hd := equal_written d
    have he := equal_written e
    simp only [equal, beq_iff_eq] at hd he ⊢
    rw [hd, he]
  constructor
  · intro hwritten
    have hequal : d.equal e = true := hequals.1 (by rw [hwritten, equal, beq_self_eq_true])
    have hscale := congrArg scale hwritten
    have hzero := zero_of_equal hequal
    rw [written_scale, written_scale] at hscale
    refine ⟨hequal, ?_⟩
    -- A scale that is kept is not among those that are written in full, and so not zero.
    unfold InFull at hscale ⊢
    split at hscale <;> split at hscale <;> omega
  · rintro ⟨hequal, hform⟩
    have hzero := zero_of_equal hequal
    refine eq_of_equal (hequals.2 hequal) ?_
    rw [written_scale, written_scale]
    unfold InFull at hform ⊢
    split <;> split <;> omega

end Decimal

end OperationChain
