import OperationChain.Proofs.DataType.Codec
import OperationChain.Proofs.Number.Binary64
import OperationChain.Proofs.Number.DecimalSpelling

/-! # Values with the same bytes

Values that a type holds are written as the same bytes if they are equal and have the same
form. Of most values there is one form only. The zeros of either sign are equal and have bytes
of their own, and a decimal keeps its scale, unless it is zero or its zeros are written in full.
-/

namespace OperationChain

/-- The values that a type reads from bytes other than none: the texts, of which one type holds
only those of ASCII, whole numbers in range, truth values, and numbers. -/
inductive DataType.Holds : DataType → Value → Prop where
  | bytes (raw : Bytes) : Holds .bytes (.bytes raw)
  | utf8 (s : String) : Holds .utf8 (.text s)
  | ascii {s : String} (hs : ∀ c ∈ s.toList, c.toNat < 0x80) : Holds .ascii (.text s)
  | int32 {n : Int64} (hlow : -0x80000000 ≤ n.toInt) (hhigh : n.toInt < 0x80000000) :
      Holds .int32 (.int n)
  | long (n : Int64) : Holds .long (.int n)
  | boolean (b : Bool) : Holds .boolean (.bool b)
  | double {x : Binary64} (hx : x.isNaN = false) : Holds .double (.float x)
  | decimal {d : Decimal} (hd : (Numeral.toInt64? d.scale).isSome = true) :
      Holds .decimal (.decimal d)

/-- Whether two equal values have the same form: floating point numbers the same sign, decimals
other than zero the same scale, or scales that are both written as zeros in full. -/
def Value.SameForm : Value → Value → Prop
  | .float x, .float y => x.isNegative = y.isNegative
  | .decimal d, .decimal e => d.unscaled = 0 ∨ d.scale = e.scale ∨ d.InFull ∧ e.InFull
  | _, _ => True

/-- Values that are equal and have the same form. -/
def Value.Alike (v w : Value) : Prop := v.equal w = true ∧ v.SameForm w

namespace DataType.Holds

variable {type : DataType} {v w : Value}

theorem wordScale (hv : type.Holds v) : v.WordScale := by
  cases hv with
  | decimal hd => exact hd
  | _ => trivial

/-- What a type holds is written. -/
theorem exists_encode (hv : type.Holds v) : ∃ raw, type.encode v = .ok raw := by
  cases hv with
  | ascii hs =>
      refine ⟨_, if_pos ?_⟩
      exact List.all_eq_true.2 fun c hc => decide_eq_true (hs c hc)
  | int32 hlow hhigh => exact ⟨_, if_pos ⟨hlow, hhigh⟩⟩
  | _ => exact ⟨_, rfl⟩

/-- A value that is no decimal is its own normal form. -/
theorem normal_eq (hv : type.Holds v) (hdecimal : type ≠ .decimal) (hw : type.Normal v w) :
    w = v := by
  cases hv with
  | bytes raw =>
      cases hw with
      | bytes hraw =>
          cases hraw
          rfl
      | intOfBytes htype => cases htype
  | decimal hd => exact absurd rfl hdecimal
  | _ =>
      cases hw
      rfl

theorem alike_self (hv : type.Holds v) : v.Alike v := by
  cases hv with
  | double hx => exact ⟨Binary64.equal_self hx, rfl⟩
  | decimal hd => exact ⟨beq_self_eq_true _, .inr (.inl rfl)⟩
  | _ => exact ⟨by simp [Value.equal], trivial⟩

/-- Alike values that are no decimals are one value. -/
theorem eq_of_alike (hv : type.Holds v) (hw : type.Holds w) (hdecimal : type ≠ .decimal)
    (halike : v.Alike w) : v = w := by
  obtain ⟨hequal, hform⟩ := halike
  cases hv with
  | double hx =>
      cases hw
      rw [Binary64.eq_of_equal hequal hform]
  | decimal hd => exact absurd rfl hdecimal
  | _ =>
      cases hw
      rw [Value.equal, beq_iff_eq] at hequal
      rw [hequal]

theorem encode_decimal_eq_iff {d e : Decimal} (hd : (Numeral.toInt64? d.scale).isSome = true)
    (he : (Numeral.toInt64? e.scale).isSome = true) :
    encode .decimal (.decimal d) = encode .decimal (.decimal e) ↔
      (Value.decimal d).Alike (.decimal e) := by
  rw [encode, encode, Except.ok.injEq, Utf8.encode_inj, Decimal.text_eq_iff_written_eq hd he,
    Decimal.written_eq_iff]
  exact ⟨fun h => ⟨h.1, h.2⟩, fun h => ⟨h.1, h.2⟩⟩

/-- Values are written as the same bytes if and only if they are alike. -/
theorem encode_eq_iff (hv : type.Holds v) (hw : type.Holds w) :
    type.encode v = type.encode w ↔ v.Alike w := by
  by_cases hdecimal : type = .decimal
  · subst hdecimal
    cases hv with
    | decimal hd =>
        cases hw with
        | decimal he => exact encode_decimal_eq_iff hd he
  constructor
  · intro hencode
    -- From the bytes that both are written as one value is read, and it is either of them.
    obtain ⟨raw, hraw⟩ := hv.exists_encode
    obtain ⟨x, hx, hnormal⟩ := exists_normal_of_encode hv.wordScale hraw
    obtain ⟨y, hy, hnormal'⟩ := exists_normal_of_encode hw.wordScale (hencode.symm.trans hraw)
    have heq : v = w := by
      rw [← hv.normal_eq hdecimal hnormal, ← hw.normal_eq hdecimal hnormal']
      exact Except.ok.inj (hx.symm.trans hy)
    rw [← heq]
    exact hv.alike_self
  · intro halike
    rw [hv.eq_of_alike hw hdecimal halike]

end DataType.Holds

end OperationChain
