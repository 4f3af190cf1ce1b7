import OperationChain.Text.Utf8

/-! # Reading what was written

The bytes of a text are read as that text, strictly and leniently, and nothing else is
found in them. Bytes that are strictly read as a text are the bytes of that text.
-/

namespace OperationChain.Utf8

variable {lead byte : UInt8} {bytes rest : Bytes} {count low high value n : Nat}

/-! ## Bytes that continue a character -/

theorem toNat_tail (n : Nat) : (UInt8.ofNat (n % 64 + 128)).toNat = n % 64 + 128 := by
  rw [UInt8.toNat_ofNat']
  omega

theorem continuation_tail (hlow : low ≤ n % 64 + 128)
    (hhigh : n % 64 + 128 ≤ high) :
    continuation (count + 1) low high value (UInt8.ofNat (n % 64 + 128) :: rest) =
      continuation count 0x80 0xBF (value * 64 + n % 64) rest := by
  rw [continuation, toNat_tail, if_pos (by simp [hlow, hhigh]), Nat.add_sub_cancel]

theorem continuation_one (value n : Nat) (rest : Bytes) :
    continuation 1 0x80 0xBF value (UInt8.ofNat (n % 64 + 128) :: rest) =
      (some (value * 64 + n % 64), rest) := by
  rw [continuation_tail (by omega) (by omega), continuation]

theorem continuation_two (hlow : low ≤ n / 64 % 64 + 128) (hhigh : n / 64 % 64 + 128 ≤ high) :
    continuation 2 low high value
        (UInt8.ofNat (n / 64 % 64 + 128) :: UInt8.ofNat (n % 64 + 128) :: rest) =
      (some (value * 4096 + n % 4096), rest) := by
  have hvalue : (value * 64 + n / 64 % 64) * 64 + n % 64 = value * 4096 + n % 4096 := by omega
  rw [continuation_tail hlow hhigh, continuation_one, hvalue]

theorem continuation_three (hlow : low ≤ n / 4096 % 64 + 128)
    (hhigh : n / 4096 % 64 + 128 ≤ high) :
    continuation 3 low high value (UInt8.ofNat (n / 4096 % 64 + 128) ::
        UInt8.ofNat (n / 64 % 64 + 128) :: UInt8.ofNat (n % 64 + 128) :: rest) =
      (some (value * 262144 + n % 262144), rest) := by
  have hvalue : (value * 64 + n / 4096 % 64) * 4096 + n % 4096 = value * 262144 + n % 262144 := by
    omega
  rw [continuation_tail hlow hhigh, continuation_two (by omega) (by omega), hvalue]

/-! ## One character -/

theorem codePoint_one (hhigh : n ≤ 0x7F) : codePoint (UInt8.ofNat n) rest = (some n, rest) := by
  have hlead : (UInt8.ofNat n).toNat = n := by
    rw [UInt8.toNat_ofNat']
    omega
  rw [codePoint, hlead, if_pos (by omega)]

theorem codePoint_two (hlow : 0x80 ≤ n) (hhigh : n ≤ 0x7FF) :
    codePoint (UInt8.ofNat (n / 64 % 32 + 192)) (UInt8.ofNat (n % 64 + 128) :: rest) =
      (some n, rest) := by
  have hlead : (UInt8.ofNat (n / 64 % 32 + 192)).toNat = n / 64 + 192 := by
    rw [UInt8.toNat_ofNat']
    omega
  have hvalue : (n / 64 + 192 - 192) * 64 + n % 64 = n := by omega
  rw [codePoint, hlead, if_neg (by omega), if_neg (by omega), if_pos (by omega), continuation_one,
    hvalue]

theorem codePoint_three (hlow : 0x800 ≤ n) (hhigh : n ≤ 0xFFFF)
    (hvalid : n < 0xD800 ∨ 0xDFFF < n) :
    codePoint (UInt8.ofNat (n / 4096 % 16 + 224))
        (UInt8.ofNat (n / 64 % 64 + 128) :: UInt8.ofNat (n % 64 + 128) :: rest) =
      (some n, rest) := by
  have hlead : (UInt8.ofNat (n / 4096 % 16 + 224)).toNat = n / 4096 + 224 := by
    rw [UInt8.toNat_ofNat']
    omega
  rw [codePoint, hlead, if_neg (by omega), if_neg (by omega), if_neg (by omega)]
  simp only [beq_iff_eq]
  -- Two of the leads have bounds of their own, which leave out overlong forms and
  -- surrogates.
  by_cases hfirst : n / 4096 + 224 = 224
  · rw [if_pos hfirst, continuation_two (by omega) (by omega), Nat.zero_mul, Nat.zero_add,
      Nat.mod_eq_of_lt (by omega)]
  · rw [if_neg hfirst]
    by_cases hlast : n / 4096 + 224 = 237
    · have hvalue : 13 * 4096 + n % 4096 = n := by omega
      rw [if_pos hlast, continuation_two (by omega) (by omega), hvalue]
    · have hvalue : (n / 4096 + 224 - 224) * 4096 + n % 4096 = n := by omega
      rw [if_neg hlast, if_pos (by omega), continuation_two (by omega) (by omega), hvalue]

theorem codePoint_four (hlow : 0x10000 ≤ n) (hhigh : n < 0x110000) :
    codePoint (UInt8.ofNat (n / 262144 % 8 + 240)) (UInt8.ofNat (n / 4096 % 64 + 128) ::
        UInt8.ofNat (n / 64 % 64 + 128) :: UInt8.ofNat (n % 64 + 128) :: rest) =
      (some n, rest) := by
  have hlead : (UInt8.ofNat (n / 262144 % 8 + 240)).toNat = n / 262144 + 240 := by
    rw [UInt8.toNat_ofNat']
    omega
  rw [codePoint, hlead, if_neg (by omega), if_neg (by omega), if_neg (by omega)]
  simp only [beq_iff_eq]
  rw [if_neg (by omega), if_neg (by omega), if_neg (by omega)]
  by_cases hfirst : n / 262144 + 240 = 240
  · rw [if_pos hfirst, continuation_three (by omega) (by omega), Nat.zero_mul, Nat.zero_add,
      Nat.mod_eq_of_lt (by omega)]
  · rw [if_neg hfirst]
    by_cases hlast : n / 262144 + 240 < 244
    · have hvalue : (n / 262144 + 240 - 240) * 262144 + n % 262144 = n := by omega
      rw [if_pos hlast, continuation_three (by omega) (by omega), hvalue]
    · have hvalue : 4 * 262144 + n % 262144 = n := by omega
      rw [if_neg hlast, if_pos (by omega), continuation_three (by omega) (by omega), hvalue]

/-! ## Texts -/

theorem scan_cons (lead : UInt8) (rest : Bytes) :
    scan (lead :: rest) =
      (codePoint lead rest).1.map Char.ofNat :: scan (codePoint lead rest).2 := by
  rw [scan]

theorem scan_encodeChar (c : Char) (rest : Bytes) :
    scan (String.utf8EncodeChar c ++ rest) = some c :: scan rest := by
  have hvalid : c.val.toNat < 0xD800 ∨ 0xDFFF < c.val.toNat ∧ c.val.toNat < 0x110000 := c.valid
  have hchar : (some c.val.toNat).map Char.ofNat = some c := congrArg some (Char.ofNat_toNat c)
  rw [String.utf8EncodeChar]
  by_cases hone : c.val.toNat ≤ 127
  · rw [if_pos hone, List.singleton_append, scan_cons, codePoint_one hone, hchar]
  by_cases htwo : c.val.toNat ≤ 2047
  · rw [if_neg hone, if_pos htwo]
    simp only [List.cons_append, List.nil_append]
    rw [scan_cons, codePoint_two (by omega) htwo, hchar]
  by_cases hthree : c.val.toNat ≤ 65535
  · rw [if_neg hone, if_neg htwo, if_pos hthree]
    simp only [List.cons_append, List.nil_append]
    rw [scan_cons, codePoint_three (by omega) hthree (by omega), hchar]
  · rw [if_neg hone, if_neg htwo, if_neg hthree]
    simp only [List.cons_append, List.nil_append]
    rw [scan_cons, codePoint_four (by omega) (by omega), hchar]

/-- The bytes of a text are scanned as its characters. -/
theorem scan_encode (s : String) : scan (encode s) = s.toList.map some := by
  rw [encode]
  induction s.toList with
  | nil => rw [List.flatMap_nil, scan, List.map_nil]
  | cons c cs ih => rw [List.flatMap_cons, scan_encodeChar, ih, List.map_cons]

theorem decode?_encode (s : String) : decode? (encode s) = some s := by
  have hall : (s.toList.map some).mapM id = some s.toList := by
    rw [List.mapM_map]
    exact List.mapM_pure.trans (congrArg some (List.map_id s.toList))
  rw [decode?, scan_encode, hall, Option.map_some, String.ofList_toList]

/-- Different texts have different bytes. -/
theorem encode_inj {s t : String} : encode s = encode t ↔ s = t := by
  constructor
  · intro hencode
    rw [← Option.some.injEq, ← decode?_encode s, hencode, decode?_encode]
  · exact congrArg encode

theorem decodeLossy_encode (s : String) : decodeLossy (encode s) = s := by
  have hreplace : (fun c : Option Char => c.getD '\uFFFD') ∘ some = id := rfl
  rw [decodeLossy, scan_encode, List.map_map, hreplace, List.map_id, String.ofList_toList]

/-! ## Bytes of what was read -/

theorem exists_of_continuation
    (hread : continuation (count + 1) low high value bytes = (some n, rest)) :
    ∃ (byte : UInt8) (tail : Bytes), bytes = byte :: tail ∧ low ≤ byte.toNat ∧ byte.toNat ≤ high ∧
      continuation count 0x80 0xBF (value * 64 + (byte.toNat - 0x80)) tail = (some n, rest) := by
  cases bytes with
  | nil => cases hread
  | cons byte tail =>
      rw [continuation] at hread
      split at hread
      next hbounds =>
        rw [Bool.and_eq_true, decide_eq_true_eq, decide_eq_true_eq] at hbounds
        exact ⟨byte, tail, rfl, hbounds.1, hbounds.2, hread⟩
      next => cases hread

theorem eq_ofNat {k : Nat} (hbyte : byte.toNat = k) : byte = UInt8.ofNat k := by
  rw [← hbyte, UInt8.ofNat_toNat]

theorem val_ofNat (hvalid : n.isValidChar) : (Char.ofNat n).val.toNat = n := by
  rw [Char.ofNat, dif_pos hvalid]
  exact UInt32.toNat_ofNatLT

theorem encodeChar_two (hvalid : n.isValidChar) (hlow : 0x80 ≤ n) (hhigh : n ≤ 0x7FF) :
    String.utf8EncodeChar (Char.ofNat n) =
      [UInt8.ofNat (n / 64 % 32 + 192), UInt8.ofNat (n % 64 + 128)] := by
  rw [String.utf8EncodeChar, val_ofNat hvalid, if_neg (by omega), if_pos hhigh]

theorem encodeChar_three (hvalid : n.isValidChar) (hlow : 0x800 ≤ n) (hhigh : n ≤ 0xFFFF) :
    String.utf8EncodeChar (Char.ofNat n) =
      [UInt8.ofNat (n / 4096 % 16 + 224), UInt8.ofNat (n / 64 % 64 + 128),
        UInt8.ofNat (n % 64 + 128)] := by
  rw [String.utf8EncodeChar, val_ofNat hvalid, if_neg (by omega), if_neg (by omega), if_pos hhigh]

theorem encodeChar_four (hvalid : n.isValidChar) (hlow : 0x10000 ≤ n) :
    String.utf8EncodeChar (Char.ofNat n) =
      [UInt8.ofNat (n / 262144 % 8 + 240), UInt8.ofNat (n / 4096 % 64 + 128),
        UInt8.ofNat (n / 64 % 64 + 128), UInt8.ofNat (n % 64 + 128)] := by
  rw [String.utf8EncodeChar, val_ofNat hvalid, if_neg (by omega), if_neg (by omega),
    if_neg (by omega)]

/-- The bytes that were read as a character are those it is written as. -/
theorem three_of_continuation {first : Nat} (hlead : lead.toNat = first + 224) (hfirst : first < 16)
    (hlow : 0x80 ≤ low) (hhigh : high ≤ 0xBF)
    (hmin : 0x800 ≤ first * 4096 + (low - 0x80) * 64)
    (hsurrogate : first * 4096 + (high - 0x80) * 64 + 63 < 0xD800 ∨
      0xDFFF < first * 4096 + (low - 0x80) * 64)
    (hread : continuation 2 low high first bytes = (some n, rest)) :
    n.isValidChar ∧ lead :: bytes = String.utf8EncodeChar (Char.ofNat n) ++ rest := by
  obtain ⟨a, tail, rfl, ha, ha', hread⟩ := exists_of_continuation hread
  obtain ⟨b, tail, rfl, hb, hb', hread⟩ := exists_of_continuation hread
  rw [continuation, Prod.mk.injEq, Option.some.injEq] at hread
  obtain ⟨hn, rfl⟩ := hread
  have hvalid : n.isValidChar := by
    unfold Nat.isValidChar
    omega
  have hl : lead = UInt8.ofNat (n / 4096 % 16 + 224) := eq_ofNat (by omega)
  have ha : a = UInt8.ofNat (n / 64 % 64 + 128) := eq_ofNat (by omega)
  have hb : b = UInt8.ofNat (n % 64 + 128) := eq_ofNat (by omega)
  refine ⟨hvalid, ?_⟩
  rw [encodeChar_three hvalid (by omega) (by omega), ← hl, ← ha, ← hb]
  rfl

theorem four_of_continuation {first : Nat} (hlead : lead.toNat = first + 240) (hfirst : first < 5)
    (hlow : 0x80 ≤ low) (hhigh : high ≤ 0xBF)
    (hmin : 0x10000 ≤ first * 262144 + (low - 0x80) * 4096)
    (hmax : first * 262144 + (high - 0x80) * 4096 + 4095 < 0x110000)
    (hread : continuation 3 low high first bytes = (some n, rest)) :
    n.isValidChar ∧ lead :: bytes = String.utf8EncodeChar (Char.ofNat n) ++ rest := by
  obtain ⟨a, tail, rfl, ha, ha', hread⟩ := exists_of_continuation hread
  obtain ⟨b, tail, rfl, hb, hb', hread⟩ := exists_of_continuation hread
  obtain ⟨c, tail, rfl, hc, hc', hread⟩ := exists_of_continuation hread
  rw [continuation, Prod.mk.injEq, Option.some.injEq] at hread
  obtain ⟨hn, rfl⟩ := hread
  have hvalid : n.isValidChar := by
    unfold Nat.isValidChar
    omega
  have hl : lead = UInt8.ofNat (n / 262144 % 8 + 240) := eq_ofNat (by omega)
  have ha : a = UInt8.ofNat (n / 4096 % 64 + 128) := eq_ofNat (by omega)
  have hb : b = UInt8.ofNat (n / 64 % 64 + 128) := eq_ofNat (by omega)
  have hc : c = UInt8.ofNat (n % 64 + 128) := eq_ofNat (by omega)
  refine ⟨hvalid, ?_⟩
  rw [encodeChar_four hvalid (by omega), ← hl, ← ha, ← hb, ← hc]
  rfl

theorem of_codePoint (hread : codePoint lead bytes = (some n, rest)) :
    n.isValidChar ∧ lead :: bytes = String.utf8EncodeChar (Char.ofNat n) ++ rest := by
  rw [codePoint] at hread
  simp only [beq_iff_eq] at hread
  split at hread
  next hone =>
    cases hread
    have hvalid : (lead.toNat).isValidChar := .inl (by omega)
    refine ⟨hvalid, ?_⟩
    rw [String.utf8EncodeChar, val_ofNat hvalid, if_pos (by omega), UInt8.ofNat_toNat,
      List.singleton_append]
  split at hread
  next => cases hread
  split at hread
  next =>
    obtain ⟨a, tail, rfl, ha, ha', hread⟩ := exists_of_continuation hread
    rw [continuation, Prod.mk.injEq, Option.some.injEq] at hread
    obtain ⟨hn, rfl⟩ := hread
    have hvalid : n.isValidChar := .inl (by omega)
    have hl : lead = UInt8.ofNat (n / 64 % 32 + 192) := eq_ofNat (by omega)
    have ha : a = UInt8.ofNat (n % 64 + 128) := eq_ofNat (by omega)
    refine ⟨hvalid, ?_⟩
    rw [encodeChar_two hvalid (by omega) (by omega), ← hl, ← ha]
    rfl
  split at hread
  next => refine three_of_continuation ?_ ?_ ?_ ?_ ?_ ?_ hread <;> omega
  split at hread
  next => refine three_of_continuation ?_ ?_ ?_ ?_ ?_ ?_ hread <;> omega
  split at hread
  next => refine three_of_continuation ?_ ?_ ?_ ?_ ?_ ?_ hread <;> omega
  split at hread
  next => refine four_of_continuation ?_ ?_ ?_ ?_ ?_ ?_ hread <;> omega
  split at hread
  next => refine four_of_continuation ?_ ?_ ?_ ?_ ?_ ?_ hread <;> omega
  split at hread
  next => refine four_of_continuation ?_ ?_ ?_ ?_ ?_ ?_ hread <;> omega
  next => cases hread

theorem encode_of_scan {cs : List Char} (hscan : (scan bytes).mapM id = some cs) :
    cs.flatMap String.utf8EncodeChar = bytes := by
  induction bytes using scan.induct generalizing cs with
  | case1 =>
    rw [scan] at hscan
    cases hscan
    rfl
  | case2 lead rest ih =>
    rw [scan, List.mapM_cons] at hscan
    cases hread : (codePoint lead rest).1 with
    | none =>
      rw [hread] at hscan
      cases hscan
    | some n =>
      rw [hread] at hscan
      cases htail : (scan (codePoint lead rest).2).mapM id with
      | none =>
        rw [htail] at hscan
        cases hscan
      | some tail =>
        rw [htail] at hscan
        cases hscan
        rw [List.flatMap_cons, ih htail]
        exact (of_codePoint (Prod.ext hread rfl)).2.symm

/-- Bytes that are a text are the bytes of that text. -/
theorem encode_of_decode? {s : String} (hread : decode? bytes = some s) : encode s = bytes := by
  obtain ⟨cs, hscan, rfl⟩ := Option.map_eq_some_iff.1 hread
  rw [encode, String.toList_ofList]
  exact encode_of_scan hscan

end OperationChain.Utf8
