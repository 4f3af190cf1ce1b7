import OperationChain.Proofs.DataType.ByteOrder
import OperationChain.Proofs.Text.Utf8

/-! # The order of text and of its bytes

The bytes of texts are ordered as the texts are, by their code points. Of two characters with
the same number of bytes the greater has the greater digits; of two with different numbers of
bytes the one with more has the greater lead, which is the first byte to be compared. Nothing
that follows a character comes into play before it.
-/

namespace OperationChain.Utf8

/-- The bytes of a character, by how many there are. -/
inductive Spelled : Nat → Bytes → Prop where
  | one {n : Nat} (hhigh : n ≤ 0x7F) : Spelled n [UInt8.ofNat n]
  | two {n : Nat} (hlow : 0x80 ≤ n) (hhigh : n ≤ 0x7FF) :
      Spelled n [UInt8.ofNat (n / 64 % 32 + 192), UInt8.ofNat (n % 64 + 128)]
  | three {n : Nat} (hlow : 0x800 ≤ n) (hhigh : n ≤ 0xFFFF) :
      Spelled n [UInt8.ofNat (n / 4096 % 16 + 224), UInt8.ofNat (n / 64 % 64 + 128),
        UInt8.ofNat (n % 64 + 128)]
  | four {n : Nat} (hlow : 0x10000 ≤ n) (hhigh : n < 0x110000) :
      Spelled n [UInt8.ofNat (n / 262144 % 8 + 240), UInt8.ofNat (n / 4096 % 64 + 128),
        UInt8.ofNat (n / 64 % 64 + 128), UInt8.ofNat (n % 64 + 128)]

theorem spelled_encodeChar (c : Char) : Spelled c.val.toNat (String.utf8EncodeChar c) := by
  have hvalid : c.val.toNat < 0xD800 ∨ 0xDFFF < c.val.toNat ∧ c.val.toNat < 0x110000 := c.valid
  rw [String.utf8EncodeChar]
  by_cases hone : c.val.toNat ≤ 127
  · rw [if_pos hone]
    exact .one hone
  by_cases htwo : c.val.toNat ≤ 2047
  · rw [if_neg hone, if_pos htwo]
    exact .two (by omega) htwo
  by_cases hthree : c.val.toNat ≤ 65535
  · rw [if_neg hone, if_neg htwo, if_pos hthree]
    exact .three (by omega) hthree
  · rw [if_neg hone, if_neg htwo, if_neg hthree]
    exact .four (by omega) (by omega)

namespace Spelled

variable {m n : Nat} {left right : Bytes}

theorem compare_tail (m n : Nat) :
    compare (UInt8.ofNat (m % 64 + 128)) (UInt8.ofNat (n % 64 + 128)) =
      compare (m % 64) (n % 64) := by
  rw [Bytes.compare_byte, toNat_tail, toNat_tail]
  simp only [Nat.compare_eq_ite_lt, Nat.add_lt_add_iff_right]

theorem compare_lead {bound mark : Nat} (hbound : bound + mark ≤ 256) (hm : m < bound)
    (hn : n < bound) :
    compare (UInt8.ofNat (m % bound + mark)) (UInt8.ofNat (n % bound + mark)) = compare m n := by
  rw [Bytes.compare_byte, UInt8.toNat_ofNat', UInt8.toNat_ofNat', Nat.mod_eq_of_lt hm,
    Nat.mod_eq_of_lt hn, Nat.mod_eq_of_lt (by omega), Nat.mod_eq_of_lt (by omega)]
  simp only [Nat.compare_eq_ite_lt, Nat.add_lt_add_iff_right]

/-- The last digit to the base 64 decides between numbers that agree before it. -/
theorem compare_last (m n : Nat) :
    (compare (m / 64) (n / 64)).then (compare (m % 64) (n % 64)) = compare m n := by
  rw [← Bytes.compare_digit (Nat.mod_lt m (by decide)) (Nat.mod_lt n (by decide)),
    Nat.div_add_mod', Nat.div_add_mod']

/-- Characters with the same number of bytes are ordered by their digits. -/
theorem compare_of_length (hleft : Spelled m left) (hright : Spelled n right)
    (hlength : left.length = right.length) : compare left right = compare m n := by
  have hsplit (k : Nat) : k / 4096 = k / 64 / 64 := (Nat.div_div_eq_div_mul k 64 64).symm
  have hsplit' (k : Nat) : k / 262144 = k / 64 / 64 / 64 := by
    rw [Nat.div_div_eq_div_mul, Nat.div_div_eq_div_mul]
  -- The lead holds what is above the last digits, and these stand in the tail one by one.
  cases hleft <;> cases hright <;> cases hlength <;>
    simp only [List.compare_cons_cons, compare_tail]
  case one.one.refl hm hn =>
    rw [Bytes.compare_byte, UInt8.toNat_ofNat', UInt8.toNat_ofNat', Nat.mod_eq_of_lt (by omega),
      Nat.mod_eq_of_lt (by omega)]
    exact Ordering.then_eq ..
  case two.two.refl =>
    rw [compare_lead (by decide) (by omega) (by omega), ← compare_last m n]
    exact congrArg _ (Ordering.then_eq ..)
  case three.three.refl =>
    rw [compare_lead (by decide) (by omega) (by omega), ← compare_last m n,
      ← compare_last (m / 64) (n / 64), Ordering.then_assoc, hsplit, hsplit]
    exact congrArg _ (congrArg _ (Ordering.then_eq ..))
  case four.four.refl =>
    rw [compare_lead (by decide) (by omega) (by omega), ← compare_last m n,
      ← compare_last (m / 64) (n / 64), ← compare_last (m / 64 / 64) (n / 64 / 64),
      Ordering.then_assoc, Ordering.then_assoc, hsplit', hsplit', hsplit, hsplit]
    exact congrArg _ (congrArg _ (congrArg _ (Ordering.then_eq ..)))

/-- Of characters with different numbers of bytes the one with fewer has the smaller lead. -/
theorem lead_lt (hleft : Spelled m left) (hright : Spelled n right)
    (hlength : left.length < right.length) :
    ∃ x y left' right', left = x :: left' ∧ right = y :: right' ∧ x.toNat < y.toNat := by
  cases hleft <;> cases hright <;>
    first
    | exact ⟨_, _, _, _, rfl, rfl, by simp only [UInt8.toNat_ofNat']; omega⟩
    | simp at hlength

/-- The smaller character has no more bytes. -/
theorem length_le (hleft : Spelled m left) (hright : Spelled n right) (hlt : m < n) :
    left.length ≤ right.length := by
  cases hleft <;> cases hright <;> simp only [List.length_cons, List.length_nil] <;> omega

/-- The smaller character comes first, whatever follows. -/
theorem compare_append (hleft : Spelled m left) (hright : Spelled n right) (hlt : m < n)
    (left' right' : Bytes) : compare (left ++ left') (right ++ right') = .lt := by
  rcases Nat.lt_or_eq_of_le (hleft.length_le hright hlt) with hlength | hlength
  · obtain ⟨x, y, xs, ys, rfl, rfl, hlead⟩ := hleft.lead_lt hright hlength
    rw [List.cons_append, List.cons_append, List.compare_cons_cons, Bytes.compare_byte,
      Nat.compare_eq_lt.2 hlead, Ordering.lt_then]
  · rw [Bytes.compare_append hlength, hleft.compare_of_length hright hlength,
      Nat.compare_eq_lt.2 hlt, Ordering.lt_then]

end Spelled

theorem compare_char_lt {c d : Char} : compare c d = .lt ↔ c < d := compareOfLessAndEq_eq_lt

theorem compare_text_lt {s t : String} : compare s t = .lt ↔ s < t := compareOfLessAndEq_eq_lt

theorem compare_encodeChar_append (c d : Char) (left right : Bytes) :
    compare (String.utf8EncodeChar c ++ left) (String.utf8EncodeChar d ++ right) =
      (compare c d).then (compare left right) := by
  have hc := spelled_encodeChar c
  have hd := spelled_encodeChar d
  cases hcompare : compare c d with
  | lt =>
      exact hc.compare_append hd (compare_char_lt.1 hcompare) left right
  | eq =>
      cases Std.compare_eq_iff_eq.1 hcompare
      rw [Bytes.compare_append rfl, Std.compare_self]
  | gt =>
      have hgt : d < c := compare_char_lt.1 (Std.OrientedCmp.lt_of_gt hcompare)
      exact Std.OrientedCmp.gt_of_lt (hd.compare_append hc hgt right left)

theorem compare_of_lt {cs ds : List Char} (hlt : cs < ds) : compare cs ds = .lt := by
  induction hlt with
  | nil => rfl
  | rel hhead => rw [List.compare_cons_cons, compare_char_lt.2 hhead, Ordering.lt_then]
  | cons _ ih => rw [List.compare_cons_cons, Std.compare_self, Ordering.eq_then, ih]

theorem compare_toList (s t : String) : compare s t = compare s.toList t.toList := by
  cases hcompare : compare s t with
  | lt => exact (compare_of_lt (String.lt_iff.1 (compare_text_lt.1 hcompare))).symm
  | eq => rw [Std.compare_eq_iff_eq.1 hcompare, Std.compare_self]
  | gt =>
      have hgt : t < s := compare_text_lt.1 (Std.OrientedCmp.lt_of_gt hcompare)
      exact (Std.OrientedCmp.gt_of_lt (compare_of_lt (String.lt_iff.1 hgt))).symm

/-- Texts and their bytes have one order. -/
theorem compare_encode (s t : String) : compare (encode s) (encode t) = compare s t := by
  rw [compare_toList, encode, encode]
  generalize s.toList = cs
  generalize t.toList = ds
  -- By characters: each is compared before what follows it, and an end comes before any byte.
  induction cs generalizing ds with
  | nil =>
      cases ds with
      | nil => rfl
      | cons d ds =>
          cases hd : String.utf8EncodeChar d with
          | nil => exact absurd hd String.utf8EncodeChar_ne_nil
          | cons y ys => rw [List.flatMap_cons, hd]; rfl
  | cons c cs ih =>
      cases ds with
      | nil =>
          cases hc : String.utf8EncodeChar c with
          | nil => exact absurd hc String.utf8EncodeChar_ne_nil
          | cons x xs => rw [List.flatMap_cons, hc]; rfl
      | cons d ds =>
          rw [List.flatMap_cons, List.flatMap_cons, compare_encodeChar_append, ih,
            List.compare_cons_cons]

end OperationChain.Utf8
