import OperationChain.Proofs.DataType.ByteOrder
import OperationChain.Proofs.DataType.Codec

/-! # Bytes that are written again

A value that was read can be written, and what is written is read as the same value. Under
most types no other bytes hold the value, so these are the bytes from which it was read.
Booleans and decimals are the exception: every byte but zero is true, and a decimal is read
from more spellings than the one it is written in.
-/

namespace OperationChain.DataType

variable {type : DataType} {raw : Bytes} {v : Value}

/-- Under types other than those of booleans and decimals a value is written as the bytes from
which it was read. -/
theorem encode_eq_of_decode (hdecode : type.decode raw = .ok v) (hboolean : type ≠ .boolean)
    (hdecimal : type ≠ .decimal) : type.encode v = .ok raw := by
  rw [decode] at hdecode
  split at hdecode
  next hempty =>
    rw [Bool.and_eq_true, List.isEmpty_iff] at hempty
    cases hdecode
    rw [encode_null, hempty.1]
  next =>
    cases type with
    | bytes =>
      cases hdecode
      rfl
    | utf8 =>
      simp only at hdecode
      split at hdecode
      next s hs =>
        cases hdecode
        exact congrArg Except.ok (Utf8.encode_of_decode? hs)
      next => cases hdecode
    | ascii =>
      simp only at hdecode
      split at hdecode
      next s hs =>
        split at hdecode
        next hascii =>
          cases hdecode
          rw [encode, if_pos hascii, Utf8.encode_of_decode? hs]
        next => cases hdecode
      next => cases hdecode
    | int32 =>
      simp only at hdecode
      split at hdecode
      next word hword =>
        cases hdecode
        rw [encode_int32_of_word, Bytes.ofUInt32_of_toUInt32? hword]
      next => cases hdecode
    | long =>
      simp only at hdecode
      split at hdecode
      next n hn =>
        obtain ⟨word, hword, rfl⟩ := Option.map_eq_some_iff.1 hn
        cases hdecode
        exact congrArg Except.ok (Bytes.ofUInt64_of_toUInt64? hword)
      next => cases hdecode
    | boolean => exact absurd rfl hboolean
    | double =>
      simp only at hdecode
      split at hdecode
      next word hword =>
        cases hdecode
        exact congrArg Except.ok (Bytes.ofUInt64_of_toUInt64? hword)
      next => cases hdecode
    | decimal => exact absurd rfl hdecimal

theorem nil_of_decode_null (hdecode : type.decode raw = .ok .null) :
    raw = [] ∧ type.readsEmpty = false := by
  rw [decode] at hdecode
  split at hdecode
  next hempty =>
    rw [Bool.and_eq_true, List.isEmpty_iff, Bool.not_eq_true'] at hempty
    exact hempty
  next =>
    -- Bytes that are read are never null.
    cases type <;> simp only at hdecode <;> (repeat' split at hdecode) <;> cases hdecode

/-- What bytes are read as is written again, as bytes from which it is read. Only under the
types of booleans and of decimals can these be other bytes. -/
theorem written_of_decode (hdecode : type.decode raw = .ok v) :
    ∃ written, type.encode v = .ok written ∧
      (∃ w, type.decode written = .ok w ∧ v.Same w) ∧
      (type ≠ .boolean → type ≠ .decimal → written = raw) := by
  have hraw {written : Bytes} (hwritten : type.encode v = .ok written)
      (hboolean : type ≠ .boolean) (hdecimal : type ≠ .decimal) : written = raw :=
    Except.ok.inj (hwritten.symm.trans (encode_eq_of_decode hdecode hboolean hdecimal))
  by_cases hv : v = .null
  · subst hv
    obtain ⟨-, hempty⟩ := nil_of_decode_null hdecode
    exact ⟨[], encode_null type, ⟨.null, decode_nil hempty, .refl _⟩, hraw (encode_null type)⟩
  · obtain ⟨written, w, hwritten, hw, hsame⟩ := encode_of_decode hdecode hv
    exact ⟨written, hwritten, ⟨w, hw, hsame⟩, hraw hwritten⟩

/-- A decimal with a sign, an underscore and a power of ten, none of which is written again. -/
theorem written_of_decode_respelled :
    decode .decimal (Utf8.encode "+0_1.50e1") = .ok (.decimal ⟨150, 1⟩) ∧
      ∃ written, encode .decimal (.decimal ⟨150, 1⟩) = .ok written ∧
        ∃ w, decode .decimal written = .ok w ∧ (Value.decimal ⟨150, 1⟩).Same w := by
  have hdecode : decode .decimal (Utf8.encode "+0_1.50e1") = .ok (.decimal ⟨150, 1⟩) := by
    rw [decode, if_neg (by decide)]
    simp only [Utf8.decodeLossy_encode]
    rfl
  obtain ⟨written, hwritten, hread, -⟩ := written_of_decode hdecode
  exact ⟨hdecode, written, hwritten, hread⟩

end OperationChain.DataType
