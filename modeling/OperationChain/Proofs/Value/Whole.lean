import OperationChain.Proofs.Number.ExactValue
import OperationChain.Value.Basic

/-! # Whole numbers

Which values are whole numbers, and which words they are read as: a floating point number that
is whole but out of range is held to the range, and a time to live has to be in range.
-/

namespace OperationChain.Value

variable {v : Value} {m : Int64}

/-- What whole number a value is. -/
inductive IsWhole : Value → Int → Prop where
  | int (n : Int64) : IsWhole (.int n) n.toInt
  | float {x : Binary64} {n : Int} (hfinite : x.isFinite = true) (hvalue : x.toRat = n) :
      IsWhole (.float x) n

theorem toInt_clampInt64 (n : Int) :
    (clampInt64 n).toInt = max (-0x8000000000000000) (min n 0x7FFFFFFFFFFFFFFF) := by
  rw [clampInt64, Int64.toInt_ofInt_of_le]
  · omega
  · omega

theorem clampInt64_toInt (n : Int64) : clampInt64 n.toInt = n := by
  have := n.le_toInt
  have := n.toInt_lt
  rw [← Int64.toInt_inj, toInt_clampInt64]
  omega

theorem int?_eq_some_iff : v.int? = some m ↔ ∃ n, v.IsWhole n ∧ clampInt64 n = m := by
  constructor
  · intro hint
    cases v with
    | int n => exact ⟨n.toInt, .int n, (clampInt64_toInt n).trans (Option.some.inj hint)⟩
    | float x =>
        obtain ⟨n, hn, hm⟩ := Option.map_eq_some_iff.mp hint
        obtain ⟨hfinite, hvalue⟩ := Binary64.toInt?_eq_some_iff.mp hn
        exact ⟨n, .float hfinite hvalue, hm⟩
    | _ => cases hint
  · rintro ⟨n, hwhole, rfl⟩
    cases hwhole with
    | int n => exact congrArg some (clampInt64_toInt n).symm
    | float hfinite hvalue =>
        rw [int?, Binary64.toInt?_eq_some_iff.mpr ⟨hfinite, hvalue⟩, Option.map_some]

theorem int?_eq_none_iff : v.int? = none ↔ ∀ n, ¬ v.IsWhole n := by
  rw [Option.eq_none_iff_forall_ne_some]
  constructor
  · intro hint n hwhole
    exact hint _ (int?_eq_some_iff.mpr ⟨n, hwhole, rfl⟩)
  · intro hwhole m hint
    obtain ⟨n, hn, -⟩ := int?_eq_some_iff.mp hint
    exact hwhole n hn

theorem toNat_ofNat_seconds {n : Int} (hrange : 0 ≤ n ∧ n < 0x100000000) :
    ((UInt32.ofNat n.toNat).toNat : Int) = n := by
  have hlt : n.toNat < UInt32.size := by
    rw [UInt32.size]
    omega
  rw [UInt32.toNat_ofNat_of_lt' hlt, Int.toNat_of_nonneg hrange.1]

/-- A time to live is a whole number of 32 bits without sign. -/
theorem seconds?_eq_some_iff {seconds : UInt32} :
    (v.int?.bind fun n => Numeral.toUInt32? n.toInt) = some seconds ↔
      v.IsWhole seconds.toNat := by
  rw [Option.bind_eq_some_iff]
  constructor
  · rintro ⟨_, hint, hseconds⟩
    obtain ⟨n, hwhole, rfl⟩ := int?_eq_some_iff.mp hint
    rw [toInt_clampInt64, Numeral.toUInt32?] at hseconds
    split at hseconds
    next hrange =>
      have hclamp : max (-0x8000000000000000) (min n 0x7FFFFFFFFFFFFFFF) = n := by omega
      obtain rfl := Option.some.inj hseconds
      rw [toNat_ofNat_seconds hrange, hclamp]
      exact hwhole
    next => cases hseconds
  · intro hwhole
    have hlt := seconds.toNat_lt
    have hclamp : max (-0x8000000000000000) (min (seconds.toNat : Int) 0x7FFFFFFFFFFFFFFF) =
        seconds.toNat := by omega
    refine ⟨_, int?_eq_some_iff.mpr ⟨_, hwhole, rfl⟩, ?_⟩
    rw [toInt_clampInt64, hclamp, Numeral.toUInt32?, if_pos (by omega), Int.toNat_natCast,
      UInt32.ofNat_toNat]

theorem seconds?_eq_none_iff :
    (v.int?.bind fun n => Numeral.toUInt32? n.toInt) = none ↔
      ∀ n, v.IsWhole n → ¬ (0 ≤ n ∧ n < 0x100000000) := by
  rw [Option.eq_none_iff_forall_ne_some]
  constructor
  · intro hnone n hwhole hrange
    apply hnone (UInt32.ofNat n.toNat)
    rw [seconds?_eq_some_iff, toNat_ofNat_seconds hrange]
    exact hwhole
  · intro hwhole seconds hsome
    have := seconds.toNat_lt
    exact hwhole _ (seconds?_eq_some_iff.mp hsome) (by omega)

end OperationChain.Value
