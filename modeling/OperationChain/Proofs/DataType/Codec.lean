import OperationChain.Proofs.DataType.Words
import OperationChain.Proofs.Except
import OperationChain.Proofs.Number.Decimal
import OperationChain.Proofs.Text.Utf8

/-! # Values that are written and read

Under every type, and under none, what a value is written as can be read, and a value that
was read is written as bytes from which it is read again. Null stands apart: it is read from
no bytes at all. Decimals come back as the same number, not always with the same scale. What
comes back under a type is the normal form of the value under it.
-/

namespace OperationChain

/-- Whether a value can be a decimal at all: the scale of one is a word of 64 bits. -/
def Value.WordScale : Value → Prop
  | .decimal d => (Numeral.toInt64? d.scale).isSome = true
  | _ => True

/-- One value, where decimals count as numbers. -/
inductive Value.Same : Value → Value → Prop where
  | refl (v : Value) : Same v v
  | decimal {d e : Decimal} (h : d.equal e = true) : Same (.decimal d) (.decimal e)

/-- Whether what a type holds is read as text. -/
def DataType.holdsText : DataType → Bool
  | .utf8 | .ascii => true
  | _ => false

/-- Whether what a type holds is read as a whole number. -/
def DataType.holdsInt : DataType → Bool
  | .int32 | .long => true
  | _ => false

/-- The normal form of a value under a type: what is left of it in the bytes that it is
written as. -/
inductive DataType.Normal : DataType → Value → Value → Prop where
  | text {type : DataType} (htype : type.holdsText = true) (s : String) :
      Normal type (.text s) (.text s)
  | emptyText {type : DataType} (htype : type.holdsText = true) :
      Normal type .null (.text "")
  | textOfBytes {raw : Bytes} {s : String} (hs : Utf8.encode s = raw) :
      Normal .utf8 (.bytes raw) (.text s)
  | int {type : DataType} (htype : type.holdsInt = true) (n : Int64) :
      Normal type (.int n) (.int n)
  | intOfBytes {type : DataType} (htype : type.holdsInt = true) {raw : Bytes}
      {n : Int64} (hn : n.toInt = raw.twosComplement) : Normal type (.bytes raw) (.int n)
  | bool (b : Bool) : Normal .boolean (.bool b) (.bool b)
  | float (x : Binary64) : Normal .double (.float x) (.float x)
  | floatOfInt (n : Int64) : Normal .double (.int n) (.float (Binary64.ofInt n.toInt))
  | decimal {d e : Decimal} (he : e.equal d = true) : Normal .decimal (.decimal d) (.decimal e)
  | decimalOfInt {n : Int64} {e : Decimal} (he : e.equal (Decimal.ofInt n.toInt) = true) :
      Normal .decimal (.int n) (.decimal e)
  | decimalOfText {s : String} {d e : Decimal} (hs : Decimal.parse? s = some d)
      (he : e.equal d = true) : Normal .decimal (.text s) (.decimal e)
  | null {type : DataType} (htype : type.readsEmpty = false) : Normal type .null .null
  | bytes {v : Value} {raw : Bytes} (hraw : encodeNatural v = .ok raw) :
      Normal .bytes v (.bytes raw)

namespace Bytes

variable {raw : Bytes}

theorem exists_toUInt32? (hraw : raw.length = 4) : ∃ word, raw.toUInt32? = some word := by
  rcases raw with _ | ⟨a, _ | ⟨b, _ | ⟨c, _ | ⟨d, _ | ⟨e, rest⟩⟩⟩⟩⟩
  case cons.cons.cons.cons.nil => exact ⟨_, rfl⟩
  all_goals cases hraw

theorem exists_toInt64? (hraw : raw.length = 8) : ∃ n, raw.toInt64? = some n := by
  rcases raw with
    _ | ⟨a, _ | ⟨b, _ | ⟨c, _ | ⟨d, _ | ⟨e, _ | ⟨f, _ | ⟨g, _ | ⟨h, _ | ⟨i, rest⟩⟩⟩⟩⟩⟩⟩⟩⟩
  case cons.cons.cons.cons.cons.cons.cons.cons.nil => exact ⟨_, rfl⟩
  all_goals cases hraw

theorem toInt64?_eq_some_iff {n : Int64} :
    raw.toInt64? = some n ↔ raw.length = 8 ∧ n.toInt = raw.twosComplement := by
  constructor
  · intro hn
    obtain ⟨word, hword, -⟩ := Option.map_eq_some_iff.mp hn
    exact ⟨length_of_toUInt64? hword, toInt_of_toInt64? hn⟩
  · rintro ⟨hlength, hvalue⟩
    obtain ⟨m, hm⟩ := exists_toInt64? hlength
    rw [hm, ← Int64.toInt_inj.mp ((toInt_of_toInt64? hm).trans hvalue.symm)]

end Bytes

namespace DataType

variable {type : DataType} {raw : Bytes} {v : Value}

/-! ## What each type reads -/

theorem decode_nil (htype : type.readsEmpty = false) : type.decode [] = .ok .null := by
  rw [decode, htype]
  rfl

theorem decode_bytes (raw : Bytes) : decode .bytes raw = .ok (.bytes raw) := by
  simp [decode, readsEmpty]

theorem decode_utf8 {s : String} (hraw : Utf8.decode? raw = some s) :
    decode .utf8 raw = .ok (.text s) := by
  simp [decode, readsEmpty, hraw]

theorem decode_ascii {s : String} {written : Bytes} (hraw : Utf8.decode? raw = some s)
    (hs : encode .ascii (.text s) = .ok written) : decode .ascii raw = .ok (.text s) := by
  rw [encode] at hs
  split at hs
  next hascii => simp [decode, readsEmpty, hraw, hascii]
  next => cases hs

theorem decode_long {n : Int64} (hraw : raw.toInt64? = some n) :
    decode .long raw = .ok (.int n) := by
  have hne : raw ≠ [] := by
    rintro rfl
    cases hraw
  simp [decode, hne, hraw]

theorem decode_int32 {word : UInt32} (hraw : raw.toUInt32? = some word) :
    decode .int32 raw = .ok (.int word.toInt32.toInt64) := by
  have hne : raw ≠ [] := by
    rintro rfl
    cases hraw
  simp [decode, hne, hraw]

theorem decode_double {word : UInt64} (hraw : raw.toUInt64? = some word) :
    decode .double raw = .ok (.float ⟨word⟩) := by
  have hne : raw ≠ [] := by
    rintro rfl
    cases hraw
  simp [decode, hne, hraw]

theorem decode_boolean (byte : UInt8) : decode .boolean [byte] = .ok (.bool (byte != 0)) := rfl

theorem decode_decimal {d : Decimal} (hscale : (Numeral.toInt64? d.scale).isSome = true) :
    decode .decimal (Utf8.encode d.text) = .ok (.decimal d.written) := by
  have hread := Decimal.parse?_text d hscale
  have hne : Utf8.encode d.text ≠ [] := by
    intro hnil
    have htext : d.text = "" := by
      rw [← Utf8.decodeLossy_encode d.text, hnil]
      simp [Utf8.decodeLossy, Utf8.scan]
    rw [htext] at hread
    cases hread
  simp [decode, hne, Utf8.decodeLossy_encode, hread]

/-! ## What was written is read -/

theorem encode_null (type : DataType) : type.encode .null = .ok [] := by
  cases type <;> rfl

theorem exists_normal_null (type : DataType) :
    ∃ w, type.decode [] = .ok w ∧ type.Normal .null w := by
  cases type with
  | bytes => exact ⟨_, decode_bytes [], .bytes rfl⟩
  | utf8 => exact ⟨_, decode_utf8 (Utf8.decode?_encode ""), .emptyText rfl⟩
  | ascii => exact ⟨_, decode_ascii (Utf8.decode?_encode "") rfl, .emptyText rfl⟩
  | _ => exact ⟨_, decode_nil rfl, .null rfl⟩

theorem exists_normal_utf8 (hv : v ≠ .null) (hencode : encode .utf8 v = .ok raw) :
    ∃ w, decode .utf8 raw = .ok w ∧ Normal .utf8 v w := by
  cases v with
  | null => exact absurd rfl hv
  | text s =>
    cases hencode
    exact ⟨_, decode_utf8 (Utf8.decode?_encode s), .text rfl s⟩
  | bytes taken =>
    rw [encode] at hencode
    split at hencode
    next hvalid =>
      obtain ⟨s, hs⟩ := Option.isSome_iff_exists.1 hvalid
      cases hencode
      exact ⟨_, decode_utf8 hs, .textOfBytes (Utf8.encode_of_decode? hs)⟩
    next => cases hencode
  | _ => cases hencode

theorem exists_normal_ascii (hv : v ≠ .null) (hencode : encode .ascii v = .ok raw) :
    ∃ w, decode .ascii raw = .ok w ∧ Normal .ascii v w := by
  cases v with
  | null => exact absurd rfl hv
  | text s =>
    have hwritten := hencode
    rw [encode] at hencode
    split at hencode
    next =>
      cases hencode
      exact ⟨_, decode_ascii (Utf8.decode?_encode s) hwritten, .text rfl s⟩
    next => cases hencode
  | _ => cases hencode

theorem toInt64_word {n : Int64} (hlow : -0x80000000 ≤ n.toInt) (hhigh : n.toInt < 0x80000000) :
    n.toUInt64.toUInt32.toInt32.toInt64 = n := by
  have hword : n.toUInt64.toUInt32.toInt32.toInt = (n.toBitVec.setWidth 32).toInt := rfl
  have hmod : (n.toBitVec.toNat : Int).bmod (2 ^ 32) = n.toInt.bmod (2 ^ 32) := by
    rw [← Int64.toInt_toBitVec, BitVec.toInt_eq_toNat_bmod, Int.bmod_bmod_of_dvd (by decide)]
  rw [← Int64.toInt_inj, Int32.toInt_toInt64, hword, BitVec.toInt_setWidth, hmod]
  exact Int.bmod_eq_of_le hlow hhigh

theorem exists_normal_int32 (hv : v ≠ .null) (hencode : encode .int32 v = .ok raw) :
    ∃ w, decode .int32 raw = .ok w ∧ Normal .int32 v w := by
  cases v with
  | null => exact absurd rfl hv
  | int n =>
    rw [encode] at hencode
    split at hencode
    next hrange =>
      cases hencode
      refine ⟨_, decode_int32 (Bytes.toUInt32?_ofUInt32 _), ?_⟩
      rw [toInt64_word hrange.1 hrange.2]
      exact .int rfl n
    next => cases hencode
  | bytes taken =>
    rw [encode] at hencode
    split at hencode
    next hlength =>
      obtain ⟨word, hword⟩ := Bytes.exists_toUInt32? hlength
      cases hencode
      refine ⟨_, decode_int32 hword, .intOfBytes rfl ?_⟩
      rw [Int32.toInt_toInt64, Bytes.toInt_of_toUInt32? hword]
    next => cases hencode
  | _ => cases hencode

theorem exists_normal_long (hv : v ≠ .null) (hencode : encode .long v = .ok raw) :
    ∃ w, decode .long raw = .ok w ∧ Normal .long v w := by
  cases v with
  | null => exact absurd rfl hv
  | int n =>
    cases hencode
    exact ⟨_, decode_long (Bytes.toInt64?_ofInt64 n), .int rfl n⟩
  | bytes taken =>
    rw [encode] at hencode
    split at hencode
    next hlength =>
      obtain ⟨n, hn⟩ := Bytes.exists_toInt64? hlength
      cases hencode
      exact ⟨_, decode_long hn, .intOfBytes rfl (Bytes.toInt_of_toInt64? hn)⟩
    next => cases hencode
  | _ => cases hencode

theorem exists_normal_boolean (hv : v ≠ .null) (hencode : encode .boolean v = .ok raw) :
    ∃ w, decode .boolean raw = .ok w ∧ Normal .boolean v w := by
  cases v with
  | null => exact absurd rfl hv
  | bool b =>
    cases hencode
    refine ⟨_, decode_boolean _, ?_⟩
    cases b <;> exact .bool _
  | _ => cases hencode

theorem exists_normal_double (hv : v ≠ .null) (hencode : encode .double v = .ok raw) :
    ∃ w, decode .double raw = .ok w ∧ Normal .double v w := by
  cases v with
  | null => exact absurd rfl hv
  | int n =>
    cases hencode
    exact ⟨_, decode_double (Bytes.toUInt64?_ofUInt64 _), .floatOfInt n⟩
  | float x =>
    cases hencode
    exact ⟨_, decode_double (Bytes.toUInt64?_ofUInt64 _), .float x⟩
  | _ => cases hencode

theorem exists_normal_decimal (hv : v ≠ .null) (hscale : v.WordScale)
    (hencode : encode .decimal v = .ok raw) :
    ∃ w, decode .decimal raw = .ok w ∧ Normal .decimal v w := by
  cases v with
  | null => exact absurd rfl hv
  | int n =>
    cases hencode
    exact ⟨_, decode_decimal rfl, .decimalOfInt (Decimal.equal_written _)⟩
  | decimal d =>
    cases hencode
    exact ⟨_, decode_decimal hscale, .decimal (Decimal.equal_written d)⟩
  | text s =>
    rw [encode] at hencode
    split at hencode
    next d hd =>
      cases hencode
      exact ⟨_, decode_decimal (Decimal.parse?_scale hd),
        .decimalOfText hd (Decimal.equal_written d)⟩
    next => cases hencode
  | _ => cases hencode

theorem exists_normal_of_encode (hscale : v.WordScale) (hencode : type.encode v = .ok raw) :
    ∃ w, type.decode raw = .ok w ∧ type.Normal v w := by
  by_cases hv : v = .null
  · rw [hv, encode_null] at hencode
    cases hencode
    rw [hv]
    exact exists_normal_null type
  cases type with
  | bytes => exact ⟨_, decode_bytes raw, .bytes hencode⟩
  | utf8 => exact exists_normal_utf8 hv hencode
  | ascii => exact exists_normal_ascii hv hencode
  | int32 => exact exists_normal_int32 hv hencode
  | long => exact exists_normal_long hv hencode
  | boolean => exact exists_normal_boolean hv hencode
  | double => exact exists_normal_double hv hencode
  | decimal => exact exists_normal_decimal hv hscale hencode

/-- What a value is written as can be read. -/
theorem exists_decode_of_encode (hscale : v.WordScale) (hencode : type.encode v = .ok raw) :
    ∃ w, type.decode raw = .ok w := by
  obtain ⟨w, hdecode, -⟩ := exists_normal_of_encode hscale hencode
  exact ⟨w, hdecode⟩

/-- A value has one normal form under a type. -/
theorem Normal.same {w w' : Value} (hw : type.Normal v w) (hw' : type.Normal v w') :
    w.Same w' := by
  cases hw with
  | text htype s =>
    cases hw' with
    | text => exact .refl _
    | decimalOfText | bytes => cases htype
  | emptyText htype =>
    cases hw' with
    | emptyText => exact .refl _
    | null hempty => cases type <;> cases htype <;> cases hempty
    | bytes => cases htype
  | textOfBytes hs =>
    cases hw' with
    | textOfBytes hs' =>
      have hread := congrArg Utf8.decode? (hs.trans hs'.symm)
      rw [Utf8.decode?_encode, Utf8.decode?_encode] at hread
      cases hread
      exact .refl _
    | intOfBytes htype => cases htype
  | int htype n =>
    cases hw' with
    | int => exact .refl _
    | floatOfInt | decimalOfInt | bytes => cases htype
  | intOfBytes htype hn =>
    cases hw' with
    | intOfBytes _ hn' =>
      rw [Int64.toInt_inj.1 (hn.trans hn'.symm)]
      exact .refl _
    | textOfBytes | bytes => cases htype
  | bool b =>
    cases hw'
    exact .refl _
  | float x =>
    cases hw'
    exact .refl _
  | floatOfInt n =>
    cases hw' with
    | floatOfInt => exact .refl _
    | int htype => cases htype
  | decimal he =>
    cases hw' with
    | decimal he' => exact .decimal (Decimal.equal_of_equal he he')
  | decimalOfInt he =>
    cases hw' with
    | decimalOfInt he' => exact .decimal (Decimal.equal_of_equal he he')
    | int htype => cases htype
  | decimalOfText hs he =>
    cases hw' with
    | decimalOfText hs' he' =>
      cases hs.symm.trans hs'
      exact .decimal (Decimal.equal_of_equal he he')
    | text htype => cases htype
  | null hempty =>
    cases hw' with
    | null => exact .refl _
    | emptyText htype => cases type <;> cases htype <;> cases hempty
    | bytes => cases hempty
  | bytes hraw =>
    cases hw' with
    | bytes hraw' =>
      cases hraw.symm.trans hraw'
      exact .refl _
    | text htype | emptyText htype | int htype | intOfBytes htype | null htype => cases htype

/-- What a value is written as is read as its one normal form under the type. -/
theorem decode_of_encode (hscale : v.WordScale) (hencode : type.encode v = .ok raw) :
    ∃ w, type.decode raw = .ok w ∧ type.Normal v w ∧ ∀ w', type.Normal v w' → w.Same w' := by
  obtain ⟨w, hdecode, hw⟩ := exists_normal_of_encode hscale hencode
  exact ⟨w, hdecode, hw, fun w' hw' => hw.same hw'⟩

/-- A number that is written with a power of ten. -/
theorem decode_of_encode_power :
    (Value.decimal ⟨-12, 20⟩).WordScale ∧
      encode .decimal (.decimal ⟨-12, 20⟩) = .ok (Utf8.encode "-1.2E-19") ∧
      ∃ w, decode .decimal (Utf8.encode "-1.2E-19") = .ok w ∧
        Normal .decimal (.decimal ⟨-12, 20⟩) w ∧
        ∀ w', Normal .decimal (.decimal ⟨-12, 20⟩) w' → w.Same w' := by
  have hscale : (Value.decimal ⟨-12, 20⟩).WordScale := rfl
  have hencode : encode .decimal (.decimal ⟨-12, 20⟩) = .ok (Utf8.encode "-1.2E-19") := rfl
  exact ⟨hscale, hencode, decode_of_encode hscale hencode⟩

/-! ## What was read is written -/

theorem encode_int32_of_word (word : UInt32) :
    encode .int32 (.int word.toInt32.toInt64) = .ok (Bytes.ofUInt32 word) := by
  have hlow := word.toInt32.le_toInt
  have hhigh := word.toInt32.toInt_lt
  have hword : word.toInt32.toInt64.toUInt64.toUInt32 = word := by
    apply UInt32.toBitVec_inj.1
    apply BitVec.eq_of_getLsbD_eq
    intro i hi
    simp [BitVec.getLsbD_signExtend, hi]
    omega
  rw [encode, Int32.toInt_toInt64, if_pos ⟨hlow, hhigh⟩, hword]

/-- A value that was read, other than null, is written as bytes from which it is read. -/
theorem encode_of_decode (hdecode : type.decode raw = .ok v) (hv : v ≠ .null) :
    ∃ written w, type.encode v = .ok written ∧ type.decode written = .ok w ∧ v.Same w := by
  rw [decode] at hdecode
  split at hdecode
  next =>
    cases hdecode
    exact absurd rfl hv
  next =>
    cases type with
    | bytes =>
      cases hdecode
      exact ⟨raw, _, rfl, decode_bytes raw, .refl _⟩
    | utf8 =>
      simp only at hdecode
      split at hdecode
      next s hs =>
        cases hdecode
        exact ⟨_, _, rfl, decode_utf8 (Utf8.decode?_encode s), .refl _⟩
      next => cases hdecode
    | ascii =>
      simp only at hdecode
      split at hdecode
      next s hs =>
        split at hdecode
        next hascii =>
          have hwritten : encode .ascii (.text s) = .ok (Utf8.encode s) := by
            rw [encode, if_pos hascii]
          cases hdecode
          exact ⟨_, _, hwritten, decode_ascii (Utf8.decode?_encode s) hwritten, .refl _⟩
        next => cases hdecode
      next => cases hdecode
    | int32 =>
      simp only at hdecode
      split at hdecode
      next word hword =>
        cases hdecode
        exact ⟨_, _, encode_int32_of_word word, decode_int32 (Bytes.toUInt32?_ofUInt32 word),
          .refl _⟩
      next => cases hdecode
    | long =>
      simp only at hdecode
      split at hdecode
      next n hn =>
        cases hdecode
        exact ⟨_, _, rfl, decode_long (Bytes.toInt64?_ofInt64 n), .refl _⟩
      next => cases hdecode
    | boolean =>
      simp only at hdecode
      split at hdecode
      next byte hne =>
        cases hdecode
        refine ⟨_, _, rfl, decode_boolean _, ?_⟩
        cases byte != 0 <;> exact .refl _
      next => cases hdecode
    | double =>
      simp only at hdecode
      split at hdecode
      next word hword =>
        cases hdecode
        exact ⟨_, _, rfl, decode_double (Bytes.toUInt64?_ofUInt64 word), .refl _⟩
      next => cases hdecode
    | decimal =>
      simp only at hdecode
      split at hdecode
      next d hd =>
        cases hdecode
        exact ⟨_, _, rfl, decode_decimal (Decimal.parse?_scale hd),
          .decimal (Decimal.equal_symm (Decimal.equal_written d))⟩
      next => cases hdecode

end DataType

variable {assumed : Option DataType} {raw : Bytes} {v : Value}

/-- What a value is written as can be read. -/
theorem exists_decode_of_encode (hv : v.WordScale) (hencode : encode v assumed = .ok raw) :
    ∃ w, decode raw assumed = .ok w := by
  cases assumed with
  | none => exact ⟨.bytes raw, rfl⟩
  | some type => exact DataType.exists_decode_of_encode hv hencode

/-- A value that was read, other than null, is written as bytes from which it is read. -/
theorem encode_of_decode (hdecode : decode raw assumed = .ok v) (hv : v ≠ .null) :
    ∃ written w, encode v assumed = .ok written ∧ decode written assumed = .ok w ∧ v.Same w := by
  cases assumed with
  | none =>
    cases hdecode
    exact ⟨raw, _, rfl, rfl, .refl _⟩
  | some type => exact DataType.encode_of_decode hdecode hv

end OperationChain
