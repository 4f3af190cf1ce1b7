import OperationChain.Proofs.DataType.Canonical

/-! # The order of whole numbers as bytes

Whole numbers are written in two's complement with the sign in the first byte. Under either
type their bytes are ordered as the numbers are once they are read without their sign: among
numbers of one sign this is their own order, and the negative ones come after the others.
-/

namespace OperationChain

namespace DataType

variable {type : DataType} {raw raw' : Bytes} {m n : Int64}

/-- The bytes from which a whole number is read are those that it is written as. -/
theorem decode_eq_int_iff (htype : type.holdsInt = true) :
    type.decode raw = .ok (.int n) ↔ type.encode (.int n) = .ok raw := by
  constructor
  · intro hdecode
    refine encode_eq_of_decode hdecode ?_ ?_ <;>
      · rintro rfl
        cases htype
  · intro hencode
    obtain ⟨v, hdecode, hnormal⟩ := exists_normal_of_encode (v := .int n) trivial hencode
    cases hnormal with
    | int => exact hdecode
    | floatOfInt | decimalOfInt | bytes => cases htype

/-- Bytes that hold a whole number are not empty. -/
theorem ne_nil_of_encode_int (htype : type.holdsInt = true)
    (hencode : type.encode (.int n) = .ok raw) : raw ≠ [] := by
  rintro rfl
  have hdecode := (decode_eq_int_iff htype).mpr hencode
  rw [decode_nil (by cases type <;> first | rfl | cases htype)] at hdecode
  cases hdecode

/-! ## Numbers without their sign -/

theorem toNat_toUInt64 (n : Int64) :
    (n.toUInt64.toNat : Int) = if 0 ≤ n.toInt then n.toInt else n.toInt + 0x10000000000000000 := by
  have hword : n.toInt = n.toBitVec.toInt := rfl
  have hnat : n.toUInt64.toNat = n.toBitVec.toNat := rfl
  have hlt := n.toBitVec.isLt
  rw [hword, hnat, BitVec.toInt_eq_toNat_cond]
  split <;> split <;> omega

/-- Without its sign a number is not after another, if it is not after it among the numbers of
one sign, or if only the other is negative. -/
theorem toUInt64_le_iff :
    m.toUInt64 ≤ n.toUInt64 ↔ (0 ≤ m ∧ n < 0) ∨ ((0 ≤ m ↔ 0 ≤ n) ∧ m ≤ n) := by
  have hm := toNat_toUInt64 m
  have hn := toNat_toUInt64 n
  have hbounds := And.intro m.le_toInt m.toInt_lt
  have hbounds' := And.intro n.le_toInt n.toInt_lt
  rw [UInt64.le_iff_toNat_le, Int64.le_iff_toInt_le, Int64.le_iff_toInt_le, Int64.le_iff_toInt_le,
    Int64.lt_iff_toInt_lt, Int64.toInt_zero]
  split at hm <;> split at hn <;> omega

theorem toUInt64_lt_iff :
    m.toUInt64 < n.toUInt64 ↔ (0 ≤ m ∧ n < 0) ∨ ((0 ≤ m ↔ 0 ≤ n) ∧ m < n) := by
  rw [← UInt64.not_le, toUInt64_le_iff]
  simp only [Int64.le_iff_toInt_le, Int64.lt_iff_toInt_lt]
  omega

/-- Whether a whole number is held by four bytes. -/
abbrev FitsInt32 (n : Int64) : Prop := -0x80000000 ≤ n.toInt ∧ n.toInt < 0x80000000

theorem toNat_toUInt32_lt_iff (hm : FitsInt32 m) (hn : FitsInt32 n) :
    m.toUInt64.toUInt32.toNat < n.toUInt64.toUInt32.toNat ↔
      m.toUInt64.toNat < n.toUInt64.toNat := by
  have hm' := toNat_toUInt64 m
  have hn' := toNat_toUInt64 n
  -- What is cut off is nothing, or the same for all negative numbers.
  rw [UInt64.toNat_toUInt32, UInt64.toNat_toUInt32]
  split at hm' <;> split at hn' <;> omega

/-- The last four of the eight bytes of numbers that they hold have the order of all eight. -/
theorem compare_toUInt32 (hm : FitsInt32 m) (hn : FitsInt32 n) :
    compare m.toUInt64.toUInt32 n.toUInt64.toUInt32 = compare m.toUInt64 n.toUInt64 := by
  rw [Bytes.compare_word32, Bytes.compare_word64, Nat.compare_eq_ite_lt, Nat.compare_eq_ite_lt]
  simp only [toNat_toUInt32_lt_iff hm hn, toNat_toUInt32_lt_iff hn hm]

/-- The bytes of whole numbers are ordered as the numbers without their sign. -/
theorem compare_encode_int (htype : type.holdsInt = true) (hm : type.encode (.int m) = .ok raw)
    (hn : type.encode (.int n) = .ok raw') : compare raw raw' = compare m.toUInt64 n.toUInt64 := by
  cases type with
  | long =>
      cases hm
      cases hn
      exact Bytes.compare_ofUInt64 _ _
  | int32 =>
      rw [encode] at hm hn
      split at hm
      next hrange =>
        split at hn
        next hrange' =>
          cases hm
          cases hn
          rw [Bytes.compare_ofUInt32, compare_toUInt32 hrange hrange']
        next => cases hn
      next => cases hm
  | _ => cases htype

end DataType

end OperationChain
