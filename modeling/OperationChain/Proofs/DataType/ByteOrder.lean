import OperationChain.Proofs.DataType.Words

/-! # The order of bytes

Bytes are compared one by one, and the shorter come first where one continues the other.
Among bytes of one length this is the order of the numbers to the base 256 that they hold, so
a word is ordered like the bytes that hold it, and bytes of a known length hold different
numbers.
-/

namespace OperationChain.Bytes

variable {left right : Bytes}

theorem compare_byte (x y : UInt8) : compare x y = compare x.toNat y.toNat := by
  simp [compare, compareOfLessAndEq, UInt8.lt_iff_toNat_lt, ← UInt8.toNat_inj]

theorem compare_word32 (x y : UInt32) : compare x y = compare x.toNat y.toNat := by
  simp [compare, compareOfLessAndEq, UInt32.lt_iff_toNat_lt, ← UInt32.toNat_inj]

theorem compare_word64 (x y : UInt64) : compare x y = compare x.toNat y.toNat := by
  simp [compare, compareOfLessAndEq, UInt64.lt_iff_toNat_lt, ← UInt64.toNat_inj]

/-- One digit more decides only between equal numbers. -/
theorem compare_digit {base x y : Nat} (hx : x < base) (hy : y < base) (a b : Nat) :
    compare (a * base + x) (b * base + y) = (compare a b).then (compare x y) := by
  have hstep {lower upper : Nat} (hlt : lower < upper) : lower * base + base ≤ upper * base := by
    rw [← Nat.succ_mul]
    exact Nat.mul_le_mul_right base hlt
  rcases Nat.lt_trichotomy a b with hlt | rfl | hgt
  · have := hstep hlt
    rw [Nat.compare_eq_lt.2 hlt, Nat.compare_eq_lt.2 (by omega), Ordering.lt_then]
  · rw [Nat.compare_eq_eq.2 rfl, Ordering.eq_then]
    simp only [Nat.compare_eq_ite_lt, Nat.add_lt_add_iff_left]
  · have := hstep hgt
    rw [Nat.compare_eq_gt.2 hgt, Nat.compare_eq_gt.2 (by omega), Ordering.gt_then]

/-- Bytes of one length are ordered as the numbers that they hold. -/
theorem compare_natAfter (hlength : left.length = right.length) (a b : Nat) :
    compare (natAfter a left) (natAfter b right) = (compare a b).then (compare left right) := by
  -- The digits before the bytes stay open: a byte that is passed becomes the last of them.
  induction left generalizing right a b with
  | nil =>
      cases List.length_eq_zero_iff.1 hlength.symm
      exact (Ordering.then_eq ..).symm
  | cons x left ih =>
      cases right with
      | nil => cases hlength
      | cons y right =>
          have hstep := ih (Nat.succ.inj hlength) (a * 256 + x.toNat) (b * 256 + y.toNat)
          rw [compare_digit x.toNat_lt y.toNat_lt, Ordering.then_assoc] at hstep
          rw [List.compare_cons_cons, compare_byte]
          exact hstep

theorem eq_of_natAfter (hlength : left.length = right.length)
    (heq : natAfter 0 left = natAfter 0 right) : left = right := by
  have hcompare := compare_natAfter hlength 0 0
  rw [heq, Std.compare_self, Std.compare_self, Ordering.eq_then] at hcompare
  exact Std.compare_eq_iff_eq.1 hcompare.symm

/-- Common bytes at the start change nothing, and where the first bytes differ the ones after
them do not count. -/
theorem compare_append {left' right' : Bytes} (hlength : left.length = right.length) :
    compare (left ++ left') (right ++ right') =
      (compare left right).then (compare left' right') := by
  induction left generalizing right with
  | nil =>
      cases List.length_eq_zero_iff.1 hlength.symm
      rfl
  | cons x left ih =>
      cases right with
      | nil => cases hlength
      | cons y right =>
          rw [List.cons_append, List.cons_append, List.compare_cons_cons, List.compare_cons_cons,
            ih (Nat.succ.inj hlength), Ordering.then_assoc]

/-! ## Words -/

theorem compare_ofUInt64 (a b : UInt64) : compare (ofUInt64 a) (ofUInt64 b) = compare a b := by
  have hlength : (ofUInt64 a).length = (ofUInt64 b).length := rfl
  have hbytes := compare_natAfter hlength 0 0
  rw [natAfter_ofUInt64, natAfter_ofUInt64, Std.compare_self, Ordering.eq_then] at hbytes
  rw [compare_word64, hbytes]

theorem compare_ofUInt32 (a b : UInt32) : compare (ofUInt32 a) (ofUInt32 b) = compare a b := by
  have hlength : (ofUInt32 a).length = (ofUInt32 b).length := rfl
  have hbytes := compare_natAfter hlength 0 0
  rw [natAfter_ofUInt32, natAfter_ofUInt32, Std.compare_self, Ordering.eq_then] at hbytes
  rw [compare_word32, hbytes]

/-- The bytes that hold a word are the only ones from which it is read. -/
theorem ofUInt64_of_toUInt64? {raw : Bytes} {word : UInt64} (hword : raw.toUInt64? = some word) :
    ofUInt64 word = raw :=
  eq_of_natAfter (length_of_toUInt64? hword).symm
    ((natAfter_ofUInt64 word).trans (toNat_of_toUInt64? hword))

theorem ofUInt32_of_toUInt32? {raw : Bytes} {word : UInt32} (hword : raw.toUInt32? = some word) :
    ofUInt32 word = raw :=
  eq_of_natAfter (length_of_toUInt32? hword).symm
    ((natAfter_ofUInt32 word).trans (toNat_of_toUInt32? hword))

end OperationChain.Bytes
