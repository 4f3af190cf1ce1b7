import OperationChain.DataType.Codec
import Mathlib.Algebra.Group.Nat.Defs

/-! # Words as bytes

Words of 32 and of 64 bits come back from the bytes that hold them, which are their
digits to the base 256. Signed words are read from bytes in two's complement.
-/

namespace OperationChain.Bytes

/-- The number whose digits to the base 256 are some bytes, behind those that gave
`value`. -/
def natAfter (value : Nat) (bytes : Bytes) : Nat :=
  bytes.foldl (fun n byte => n * 256 + byte.toNat) value

theorem toNat_shift64 {word : UInt64} (hword : word.toNat < 256 ^ 7) (byte : UInt8) :
    (word <<< 8 ||| byte.toUInt64).toNat = word.toNat * 256 + byte.toNat := by
  have hbyte : byte.toNat < 2 ^ 8 := byte.toNat_lt
  have hshift : word.toNat <<< 8 < 2 ^ 64 := by
    rw [Nat.shiftLeft_eq]
    omega
  rw [UInt64.toNat_or, UInt64.toNat_shiftLeft, UInt8.toNat_toUInt64]
  change word.toNat <<< 8 % 2 ^ 64 ||| byte.toNat = _
  rw [Nat.mod_eq_of_lt hshift, ← Nat.shiftLeft_add_eq_or_of_lt hbyte, Nat.shiftLeft_eq]

theorem toNat_shift32 {word : UInt32} (hword : word.toNat < 256 ^ 3) (byte : UInt8) :
    (word <<< 8 ||| byte.toUInt32).toNat = word.toNat * 256 + byte.toNat := by
  have hbyte : byte.toNat < 2 ^ 8 := byte.toNat_lt
  have hshift : word.toNat <<< 8 < 2 ^ 32 := by
    rw [Nat.shiftLeft_eq]
    omega
  rw [UInt32.toNat_or, UInt32.toNat_shiftLeft, UInt8.toNat_toUInt32]
  change word.toNat <<< 8 % 2 ^ 32 ||| byte.toNat = _
  rw [Nat.mod_eq_of_lt hshift, ← Nat.shiftLeft_add_eq_or_of_lt hbyte, Nat.shiftLeft_eq]

/-- Where there is room for one byte more, the room left is smaller by a factor. -/
theorem room_step {n room width : Nat} (byte : UInt8) (hroom : room + 1 ≤ width)
    (hn : n < 256 ^ (width - (room + 1))) :
    n < 256 ^ (width - 1) ∧ n * 256 + byte.toNat < 256 ^ (width - room) := by
  have hbyte := byte.toNat_lt
  have hpow : 256 ^ (width - room) = 256 ^ (width - (room + 1)) * 256 := by
    rw [← Nat.pow_succ]
    congr 1
    omega
  have hle : 256 ^ (width - (room + 1)) ≤ 256 ^ (width - 1) :=
    Nat.pow_le_pow_right (by decide) (by omega)
  exact ⟨Nat.lt_of_lt_of_le hn hle, by rw [hpow]; omega⟩

theorem toNat_foldl64 {bytes : Bytes} {word : UInt64} (hlength : bytes.length ≤ 8)
    (hword : word.toNat < 256 ^ (8 - bytes.length)) :
    (bytes.foldl (fun (word : UInt64) byte => word <<< 8 ||| byte.toUInt64) word).toNat =
      natAfter word.toNat bytes := by
  induction bytes generalizing word with
  | nil => rfl
  | cons byte rest ih =>
      obtain ⟨hword, hnext⟩ := room_step byte hlength hword
      rw [← toNat_shift64 hword] at hnext
      rw [List.foldl_cons, ih (by rw [List.length_cons] at hlength; omega) hnext,
        toNat_shift64 hword]
      rfl

theorem toNat_foldl32 {bytes : Bytes} {word : UInt32} (hlength : bytes.length ≤ 4)
    (hword : word.toNat < 256 ^ (4 - bytes.length)) :
    (bytes.foldl (fun (word : UInt32) byte => word <<< 8 ||| byte.toUInt32) word).toNat =
      natAfter word.toNat bytes := by
  induction bytes generalizing word with
  | nil => rfl
  | cons byte rest ih =>
      obtain ⟨hword, hnext⟩ := room_step byte hlength hword
      rw [← toNat_shift32 hword] at hnext
      rw [List.foldl_cons, ih (by rw [List.length_cons] at hlength; omega) hnext,
        toNat_shift32 hword]
      rfl

/-- The digits above a place and the digit at it are the digits from it on. -/
theorem shiftRight_digit (n : Nat) {shift next : Nat} (hnext : next = shift + 8) :
    (n >>> next) * 256 + (n >>> shift) % 256 = n >>> shift := by
  rw [hnext, Nat.shiftRight_add, Nat.shiftRight_eq_div_pow (n >>> shift)]
  exact Nat.div_add_mod' (n >>> shift) 256

theorem natAfter_ofUInt64 (word : UInt64) : natAfter 0 (ofUInt64 word) = word.toNat := by
  have htop : word.toNat >>> 64 = 0 := Nat.shiftRight_eq_zero _ _ word.toNat_lt
  -- The steps are proof terms here: as equalities by definition the shifts are unfolded.
  simp -implicitDefEqProofs only [natAfter, ofUInt64, List.map_cons, List.map_nil,
    List.foldl_cons, List.foldl_nil, UInt64.toNat_toUInt8, UInt64.toNat_shiftRight,
    UInt64.reduceToNat, Nat.reduceMod, Nat.reducePow]
  rw [← htop, shiftRight_digit _ rfl, shiftRight_digit _ rfl, shiftRight_digit _ rfl,
    shiftRight_digit _ rfl, shiftRight_digit _ rfl, shiftRight_digit _ rfl, shiftRight_digit _ rfl]
  exact shiftRight_digit word.toNat (rfl : 8 = 0 + 8)

theorem natAfter_ofUInt32 (word : UInt32) : natAfter 0 (ofUInt32 word) = word.toNat := by
  have htop : word.toNat >>> 32 = 0 := Nat.shiftRight_eq_zero _ _ word.toNat_lt
  simp -implicitDefEqProofs only [natAfter, ofUInt32, List.map_cons, List.map_nil,
    List.foldl_cons, List.foldl_nil, UInt32.toNat_toUInt8, UInt32.toNat_shiftRight,
    UInt32.reduceToNat, Nat.reduceMod, Nat.reducePow]
  rw [← htop, shiftRight_digit _ rfl, shiftRight_digit _ rfl, shiftRight_digit _ rfl]
  exact shiftRight_digit word.toNat (rfl : 8 = 0 + 8)

theorem toUInt64?_ofUInt64 (word : UInt64) : (ofUInt64 word).toUInt64? = some word := by
  refine congrArg some (UInt64.toNat_inj.mp ?_)
  have hroom : (0 : UInt64).toNat < 256 ^ (8 - (ofUInt64 word).length) := Nat.zero_lt_one
  rw [← natAfter_ofUInt64 word]
  exact toNat_foldl64 (Nat.le_refl 8) hroom

theorem toUInt32?_ofUInt32 (word : UInt32) : (ofUInt32 word).toUInt32? = some word := by
  refine congrArg some (UInt32.toNat_inj.mp ?_)
  have hroom : (0 : UInt32).toNat < 256 ^ (4 - (ofUInt32 word).length) := Nat.zero_lt_one
  rw [← natAfter_ofUInt32 word]
  exact toNat_foldl32 (Nat.le_refl 4) hroom

theorem toInt64?_ofInt64 (n : Int64) : (ofInt64 n).toInt64? = some n := by
  rw [toInt64?, ofInt64, toUInt64?_ofUInt64]
  rfl

/-! ## Signed words -/

variable {raw : Bytes}

/-- The whole number that bytes hold in two's complement. -/
def twosComplement (raw : Bytes) : Int := (natAfter 0 raw : Int).bmod (256 ^ raw.length)

theorem length_of_toUInt32? {word : UInt32} (hword : raw.toUInt32? = some word) :
    raw.length = 4 := by
  unfold toUInt32? at hword
  split at hword
  next => rfl
  next => cases hword

theorem length_of_toUInt64? {word : UInt64} (hword : raw.toUInt64? = some word) :
    raw.length = 8 := by
  unfold toUInt64? at hword
  split at hword
  next => rfl
  next => cases hword

theorem toNat_of_toUInt32? {word : UInt32} (hword : raw.toUInt32? = some word) :
    word.toNat = natAfter 0 raw := by
  have hlength := length_of_toUInt32? hword
  have hroom : (0 : UInt32).toNat < 256 ^ (4 - raw.length) := Nat.pow_pos (by decide)
  unfold toUInt32? at hword
  split at hword
  next =>
    cases hword
    exact toNat_foldl32 (Nat.le_refl 4) hroom
  next => cases hword

theorem toNat_of_toUInt64? {word : UInt64} (hword : raw.toUInt64? = some word) :
    word.toNat = natAfter 0 raw := by
  have hlength := length_of_toUInt64? hword
  have hroom : (0 : UInt64).toNat < 256 ^ (8 - raw.length) := Nat.pow_pos (by decide)
  unfold toUInt64? at hword
  split at hword
  next =>
    cases hword
    exact toNat_foldl64 (Nat.le_refl 8) hroom
  next => cases hword

theorem toInt_of_toUInt32? {word : UInt32} (hword : raw.toUInt32? = some word) :
    word.toInt32.toInt = twosComplement raw := by
  rw [twosComplement, length_of_toUInt32? hword, ← toNat_of_toUInt32? hword]
  exact BitVec.toInt_eq_toNat_bmod word.toBitVec

theorem toInt_of_toInt64? {n : Int64} (hn : raw.toInt64? = some n) :
    n.toInt = twosComplement raw := by
  obtain ⟨word, hword, rfl⟩ := Option.map_eq_some_iff.1 hn
  rw [twosComplement, length_of_toUInt64? hword, ← toNat_of_toUInt64? hword]
  exact BitVec.toInt_eq_toNat_bmod word.toBitVec

end OperationChain.Bytes
