import OperationChain.Number.Decimal
import Mathlib.Data.List.TakeWhile
import Mathlib.Tactic.IntervalCases

/-! # Decimals that are written and read

The digits of a number are read as that number, and the text of a decimal as the
decimal that was written: the same one, except that zero has no scale and that zeros
written in full take up a small negative scale. The two are one number in either case.
-/

namespace OperationChain

namespace Numeral

variable {n : Nat}

/-! ## Digits -/

theorem digit?_digitChar (hn : n < 10) : digit? n.digitChar = some n := by
  interval_cases n <;> decide

theorem natAfter?_append (v : Nat) (cs ds : List Char) :
    natAfter? v (cs ++ ds) = (natAfter? v cs).bind fun w => natAfter? w ds := by
  induction cs generalizing v with
  | nil => rfl
  | cons c cs ih =>
    rw [List.cons_append, natAfter?, natAfter?]
    cases digit? c with
    | none => rfl
    | some d => exact ih _

theorem natAfter?_digitChar (v : Nat) (hn : n < 10) :
    natAfter? v [n.digitChar] = some (v * 10 + n) := by
  rw [natAfter?, digit?_digitChar hn, Option.bind_some, natAfter?]

theorem ofNat_of_lt (hn : n < 10) : ofNat n = [n.digitChar] := Nat.toDigits_of_lt_base hn

theorem ofNat_of_le (hn : 10 ≤ n) : ofNat n = ofNat (n / 10) ++ [(n % 10).digitChar] :=
  Nat.toDigits_of_base_le (by omega) hn

/-- The digits of a number are read as that number. -/
theorem natAfter?_ofNat (n : Nat) : natAfter? 0 (ofNat n) = some n := by
  induction n using Nat.strongRecOn with
  | ind n ih =>
    by_cases hn : n < 10
    · rw [ofNat_of_lt hn, natAfter?_digitChar 0 hn, Nat.zero_mul, Nat.zero_add]
    · rw [ofNat_of_le (by omega), natAfter?_append, ih (n / 10) (by omega), Option.bind_some,
        natAfter?_digitChar _ (by omega)]
      congr 1
      omega

theorem natAfter?_zeros (v count : Nat) :
    natAfter? v (List.replicate count '0') = some (v * 10 ^ count) := by
  induction count generalizing v with
  | zero => rw [List.replicate_zero, natAfter?, Nat.pow_zero, Nat.mul_one]
  | succ count ih =>
    have hzero : digit? '0' = some 0 := by decide
    rw [List.replicate_succ, natAfter?, hzero, Option.bind_some, ih, Nat.add_zero, Nat.pow_succ,
      Nat.mul_assoc, Nat.mul_comm 10]

theorem length_ofNat_pos (n : Nat) : 0 < (ofNat n).length := Nat.length_toDigits_pos

theorem ofNat_ne_nil (n : Nat) : ofNat n ≠ [] := List.length_pos_iff.1 (length_ofNat_pos n)

theorem length_ofNat_mul_pow (hn : n ≠ 0) (count : Nat) :
    (ofNat (n * 10 ^ count)).length = (ofNat n).length + count := by
  induction count with
  | zero => rw [Nat.pow_zero, Nat.mul_one, Nat.add_zero]
  | succ count ih =>
    have hpos : 0 < n * 10 ^ count := Nat.mul_pos (Nat.pos_of_ne_zero hn) (by positivity)
    rw [Nat.pow_succ, ← Nat.mul_assoc, ofNat_of_le (by omega), Nat.mul_div_cancel _ (by omega),
      List.length_append, ih, List.length_singleton, Nat.add_assoc]

theorem isDigit_of_mem_ofNat {c : Char} (hc : c ∈ ofNat n) : c.isDigit = true :=
  Nat.isDigit_of_mem_toDigits (by omega) (by omega) hc

end Numeral

namespace Decimal

variable {cs whole places base tail : List Char} {negative : Bool} {n : Nat}

/-! ## The parts of a numeral -/

/-- Digits and nothing else. -/
def Plain (cs : List Char) : Prop := ∀ c ∈ cs, c.isDigit = true

theorem plain_ofNat (n : Nat) : Plain (Numeral.ofNat n) := fun _ => Numeral.isDigit_of_mem_ofNat

theorem plain_zeros (count : Nat) : Plain (List.replicate count '0') := by
  intro c hc
  rw [List.eq_of_mem_replicate hc]
  decide

theorem Plain.append (hcs : Plain cs) (hwhole : Plain whole) : Plain (cs ++ whole) := by
  intro c hc
  exact (List.mem_append.1 hc).elim (hcs c) (hwhole c)

theorem Plain.ne_of_mem (hcs : Plain cs) {c mark : Char} (hc : c ∈ cs)
    (hmark : mark.isDigit = false) : c ≠ mark := by
  rintro rfl
  exact absurd (hcs c hc) (by simp [hmark])

theorem Plain.unmarked (hcs : Plain cs) : ∀ c ∈ cs, c ≠ 'e' ∧ c ≠ 'E' := by
  intro c hc
  exact ⟨hcs.ne_of_mem hc (by decide), hcs.ne_of_mem hc (by decide)⟩

theorem unmarked_point (hwhole : Plain whole) (hplaces : Plain places) :
    ∀ c ∈ whole ++ '.' :: places, c ≠ 'e' ∧ c ≠ 'E' := by
  intro c hc
  rcases List.mem_append.1 hc with hc | hc
  · exact hwhole.unmarked c hc
  rcases List.mem_cons.1 hc with rfl | hc
  · decide
  · exact hplaces.unmarked c hc

/-- Characters after the sign of a number. -/
def signed (negative : Bool) (cs : List Char) : List Char := if negative then '-' :: cs else cs

theorem signed_append (negative : Bool) (cs ds : List Char) :
    signed negative cs ++ ds = signed negative (cs ++ ds) := by
  cases negative <;> rfl

theorem mem_signed {c : Char} (hc : c ∈ signed negative cs) : c = '-' ∨ c ∈ cs := by
  cases negative with
  | false => exact Or.inr hc
  | true => exact List.mem_cons.1 hc

theorem unmarked_signed (hcs : ∀ c ∈ cs, c ≠ 'e' ∧ c ≠ 'E') :
    ∀ c ∈ signed negative cs, c ≠ 'e' ∧ c ≠ 'E' := by
  intro c hc
  rcases mem_signed hc with rfl | hc
  · decide
  · exact hcs c hc

theorem digits?_of_plain (hcs : Plain cs) (hne : cs ≠ []) :
    digits? cs = Numeral.natAfter? 0 cs := by
  have hfilter : cs.filter (· != '_') = cs := by
    rw [List.filter_eq_self]
    intro c hc
    exact bne_iff_ne.2 (hcs.ne_of_mem hc (by decide))
  unfold digits?
  split
  next => exact absurd rfl hne
  next rest => exact absurd rfl (hcs.ne_of_mem (List.mem_cons_self ..) (by decide))
  next => rw [hfilter]

/-- The number with this sign and magnitude. -/
def ofSign (negative : Bool) (n : Nat) : Int := if negative then -(n : Int) else n

theorem unscaled?_signed (hcs : Plain cs) (hne : cs ≠ []) (hn : Numeral.natAfter? 0 cs = some n) :
    unscaled? (signed negative cs) = some (ofSign negative n) := by
  cases negative with
  | true =>
    rw [signed, if_pos rfl, unscaled?, digits?_of_plain hcs hne, hn]
    rfl
  | false =>
    rw [signed, if_neg Bool.false_ne_true]
    unfold unscaled?
    split
    next => exact absurd rfl (hcs.ne_of_mem (List.mem_cons_self ..) (by decide))
    next => exact absurd rfl (hcs.ne_of_mem (List.mem_cons_self ..) (by decide))
    next =>
      rw [digits?_of_plain hcs hne, hn]
      rfl

theorem splitPoint_signed (hcs : Plain cs) :
    splitPoint (signed negative cs) = (signed negative cs, 0) := by
  have hnone : (signed negative cs).dropWhile (· != '.') = [] := by
    rw [List.dropWhile_eq_nil_iff]
    intro c hc
    rw [bne_iff_ne]
    rcases mem_signed hc with rfl | hc
    · decide
    · exact hcs.ne_of_mem hc (by decide)
  rw [splitPoint, hnone]

theorem splitPoint_signed_point (hwhole : Plain whole) (hplaces : Plain places) :
    splitPoint (signed negative (whole ++ '.' :: places)) =
      (signed negative (whole ++ places), (places.length : Int)) := by
  have hbefore : ∀ c ∈ signed negative whole, (c != '.') = true := by
    intro c hc
    rw [bne_iff_ne]
    rcases mem_signed hc with rfl | hc
    · decide
    · exact hwhole.ne_of_mem hc (by decide)
  have hfilter : places.filter (· != '_') = places := by
    rw [List.filter_eq_self]
    intro c hc
    exact bne_iff_ne.2 (hplaces.ne_of_mem hc (by decide))
  rw [← signed_append, splitPoint, List.dropWhile_append_of_pos hbefore,
    List.takeWhile_append_of_pos hbefore]
  simp [hfilter, signed_append]

/-- The end of a numeral that moves the point by this many places. -/
inductive Power : List Char → Int → Prop where
  | none : Power [] 0
  | some {mark : Char} {rest : List Char} {exponent : Int} (hmark : mark = 'e' ∨ mark = 'E')
      (hrest : exponent? rest = some exponent) : Power (mark :: rest) exponent

theorem ofChars?_of_power {exponent scale unscaled : Int} {digits : List Char}
    (hbase : ∀ c ∈ base, c ≠ 'e' ∧ c ≠ 'E') (htail : Power tail exponent)
    (hsplit : splitPoint base = (digits, scale + exponent))
    (hdigits : unscaled? digits = some unscaled)
    (hscale : (Numeral.toInt64? scale).isSome = true) :
    ofChars? (base ++ tail) = some ⟨unscaled, scale⟩ := by
  have hunmarked : ∀ c ∈ base, (!(c == 'e' || c == 'E')) = true := by
    intro c hc
    simp [hbase c hc]
  rw [ofChars?]
  simp only [List.takeWhile_append_of_pos hunmarked, List.dropWhile_append_of_pos hunmarked]
  cases htail with
  | none => simp_all
  | @some mark rest exponent hmark hrest =>
    have hmarked : ¬ (!(mark == 'e' || mark == 'E')) = true := by
      rcases hmark with rfl | rfl <;> decide
    simp only [List.takeWhile_cons, List.dropWhile_cons, if_neg hmarked, List.append_nil, hsplit]
    simp [hdigits, hrest, hscale]

theorem toInt64?_isSome {k : Int} :
    (Numeral.toInt64? k).isSome = true ↔ -0x8000000000000000 ≤ k ∧ k < 0x8000000000000000 := by
  rw [Numeral.toInt64?, Option.isSome_ite]

theorem nat?_ofNat (n : Nat) : Numeral.nat? (Numeral.ofNat n) = some n := by
  unfold Numeral.nat?
  split
  next hnil => exact absurd hnil (Numeral.ofNat_ne_nil n)
  next => exact Numeral.natAfter?_ofNat n

theorem power_minus {power : Nat} (hpower : power ≤ 0x8000000000000000) :
    Power ('E' :: '-' :: Numeral.ofNat power) (-(power : Int)) := by
  refine Power.some (Or.inr rfl) ?_
  rw [exponent?, Numeral.int?, nat?_ofNat]
  apply Option.filter_some_pos
  simp
  omega

theorem power_plus {power : Nat} (hpower : power ≤ 0x8000000000000000) :
    Power ('e' :: '+' :: Numeral.ofNat power) power := by
  refine Power.some (Or.inl rfl) ?_
  rw [exponent?, Numeral.int?, nat?_ofNat]
  apply Option.filter_some_pos
  simp
  omega

theorem ofChars?_whole (negative : Bool) {exponent scale : Int} (hcs : Plain cs) (hne : cs ≠ [])
    (hn : Numeral.natAfter? 0 cs = some n) (htail : Power tail exponent)
    (hscale : (Numeral.toInt64? scale).isSome = true) (hplaces : 0 = scale + exponent) :
    ofChars? (signed negative (cs ++ tail)) = some ⟨ofSign negative n, scale⟩ := by
  rw [← signed_append]
  exact ofChars?_of_power (unmarked_signed hcs.unmarked) htail
    (hplaces ▸ splitPoint_signed hcs) (unscaled?_signed hcs hne hn) hscale

theorem ofChars?_point (negative : Bool) {exponent scale : Int} (hwhole : Plain whole)
    (hafter : Plain places) (hne : whole ++ places ≠ [])
    (hn : Numeral.natAfter? 0 (whole ++ places) = some n)
    (htail : Power tail exponent) (hscale : (Numeral.toInt64? scale).isSome = true)
    (hplaces : (places.length : Int) = scale + exponent) :
    ofChars? (signed negative (whole ++ '.' :: places ++ tail)) =
      some ⟨ofSign negative n, scale⟩ := by
  rw [← signed_append]
  exact ofChars?_of_power (unmarked_signed (unmarked_point hwhole hafter)) htail
    (hplaces ▸ splitPoint_signed_point hwhole hafter)
    (unscaled?_signed (hwhole.append hafter) hne hn) hscale

/-- Characters that spell digits and a power of ten: with a point among them, or without one. -/
inductive Spells : List Char → Nat → Int → Prop where
  | whole {cs tail : List Char} {n : Nat} {exponent : Int} (hcs : Plain cs) (hne : cs ≠ [])
      (hn : Numeral.natAfter? 0 cs = some n) (htail : Power tail exponent) :
      Spells (cs ++ tail) n exponent
  | point {whole places tail : List Char} {n : Nat} {exponent : Int} (hwhole : Plain whole)
      (hplaces : Plain places) (hne : whole ++ places ≠ [])
      (hn : Numeral.natAfter? 0 (whole ++ places) = some n) (htail : Power tail exponent) :
      Spells (whole ++ '.' :: places ++ tail) n (exponent - places.length)

theorem ofChars?_of_spells (negative : Bool) (scale : Int) (hspells : Spells cs n (-scale))
    (hscale : (Numeral.toInt64? scale).isSome = true) :
    ofChars? (signed negative cs) = some ⟨ofSign negative n, scale⟩ := by
  generalize hexponent : -scale = exponent at hspells
  cases hspells with
  | whole hcs hne hn htail =>
      exact ofChars?_whole negative hcs hne hn htail hscale (by omega)
  | point hwhole hplaces hne hn htail =>
      exact ofChars?_point negative hwhole hplaces hne hn htail hscale (by omega)

/-! ## The text of a decimal -/

/-- What is read from the digits of a number with this scale: where the zeros of a small
negative scale are written in full, the number has them and no scale. -/
def rescaled (negative : Bool) (n : Nat) (scale : Int) : Decimal :=
  if scale ≤ 0 ∧ -15 ≤ scale then ⟨ofSign negative (n * 10 ^ (-scale).toNat), 0⟩
  else ⟨ofSign negative n, scale⟩

section Written

variable {digits : List Char} {scale : Int}

theorem spells_small (hplain : Plain digits) (hne : digits ≠ [])
    (hn : Numeral.natAfter? 0 digits = some n) (hscale : (Numeral.toInt64? scale).isSome = true)
    (hsmall : 5 < scale - digits.length) : Spells (magnitudeChars digits scale) n (-scale) := by
  have hhigh := (toInt64?_isSome.1 hscale).2
  have hpos : 0 < digits.length := List.length_pos_iff.2 hne
  obtain ⟨power, hpower⟩ : ∃ power : Nat, scale - digits.length + 1 = power :=
    Int.eq_ofNat_of_zero_le (by omega)
  have hbound : power ≤ 0x8000000000000000 := by omega
  unfold magnitudeChars
  simp only
  rw [if_pos hsmall, hpower, Int.toNat_natCast]
  split
  next first second rest =>
    have hfirst : Plain [first] := fun c hc => hplain c (List.mem_append_left (second :: rest) hc)
    have hafter : Plain (second :: rest) := fun c hc => hplain c (List.mem_cons_of_mem first hc)
    have hexponent : -scale = -(power : Int) - (second :: rest).length := by
      rw [List.length_cons, Int.natCast_succ] at hpower
      omega
    rw [hexponent]
    exact .point hfirst hafter hne hn (power_minus hbound)
  next hshort =>
    have hlength : digits.length = 1 := by
      cases digits with
      | nil => exact absurd rfl hne
      | cons first rest =>
        cases rest with
        | nil => rfl
        | cons second rest => exact absurd rfl (hshort first second rest)
    have hexponent : -scale = -(power : Int) := by omega
    rw [hexponent]
    exact .whole hplain hne hn (power_minus hbound)

theorem spells_zeros (hplain : Plain digits) (hne : digits ≠ [])
    (hn : Numeral.natAfter? 0 digits = some n) (count : Nat) :
    Spells (digits ++ List.replicate count '0') (n * 10 ^ count) 0 := by
  have hvalue : Numeral.natAfter? 0 (digits ++ List.replicate count '0') =
      some (n * 10 ^ count) := by
    rw [Numeral.natAfter?_append, hn, Option.bind_some, Numeral.natAfter?_zeros]
  have hspells := Spells.whole (hplain.append (plain_zeros count)) (by simp [hne]) hvalue .none
  rwa [List.append_nil] at hspells

theorem spells_before (hplain : Plain digits) (hn : Numeral.natAfter? 0 digits = some n)
    (hbefore : digits.length ≤ scale) :
    Spells ('0' :: '.' :: (List.replicate (scale - digits.length).toNat '0' ++ digits)) n
      (-scale) := by
  obtain ⟨count, hcount⟩ : ∃ count : Nat, scale - digits.length = count :=
    Int.eq_ofNat_of_zero_le (by omega)
  have hvalue : Numeral.natAfter? 0 (['0'] ++ (List.replicate count '0' ++ digits)) = some n := by
    have hzero : Numeral.natAfter? 0 ['0'] = some 0 := by decide
    rw [Numeral.natAfter?_append, hzero, Option.bind_some, Numeral.natAfter?_append,
      Numeral.natAfter?_zeros, Option.bind_some, Nat.zero_mul, hn]
  have hexponent : -scale = 0 - ((List.replicate count '0' ++ digits).length : Int) := by
    rw [List.length_append, List.length_replicate]
    omega
  have hspells := Spells.point (plain_zeros 1) ((plain_zeros count).append hplain) (by simp)
    hvalue .none
  rw [List.append_nil, ← hexponent] at hspells
  rw [hcount, Int.toNat_natCast]
  exact hspells

theorem spells_among (hplain : Plain digits) (hne : digits ≠ [])
    (hn : Numeral.natAfter? 0 digits = some n) {place : Nat}
    (hplace : (digits.length : Int) = place + scale) (hpos : 0 ≤ scale) :
    Spells (digits.take place ++ '.' :: digits.drop place) n (-scale) := by
  have hwhole : Plain (digits.take place) := fun c hc => hplain c (List.mem_of_mem_take hc)
  have hafter : Plain (digits.drop place) := fun c hc => hplain c (List.mem_of_mem_drop hc)
  have hparts := List.take_append_drop place digits
  have hexponent : -scale = 0 - ((digits.drop place).length : Int) := by
    rw [List.length_drop]
    omega
  have hspells := Spells.point hwhole hafter (hparts.symm ▸ hne) (hparts.symm ▸ hn) .none
  rwa [List.append_nil, ← hexponent] at hspells

/-- The digits of a number are spelled wherever its point is: with a power of ten below and
above, with zeros in full, and with a point before and among the digits. -/
theorem spells_magnitudeChars (hplain : Plain digits) (hne : digits ≠ [])
    (hn : Numeral.natAfter? 0 digits = some n) (hscale : (Numeral.toInt64? scale).isSome = true) :
    if scale ≤ 0 ∧ -15 ≤ scale then
      Spells (magnitudeChars digits scale) (n * 10 ^ (-scale).toNat) 0
    else Spells (magnitudeChars digits scale) n (-scale) := by
  have hlow := (toInt64?_isSome.1 hscale).1
  by_cases hsmall : 5 < scale - digits.length
  · rw [if_neg (by omega)]
    exact spells_small hplain hne hn hscale hsmall
  unfold magnitudeChars
  simp only
  rw [if_neg hsmall]
  by_cases hlarge : 15 < -scale
  · obtain ⟨power, hpower⟩ : ∃ power : Nat, -scale = power := Int.eq_ofNat_of_zero_le (by omega)
    rw [if_pos hlarge, if_neg (by omega), hpower, Int.toNat_natCast]
    exact .whole hplain hne hn (power_plus (by omega))
  rw [if_neg hlarge]
  by_cases hnonpos : scale ≤ 0
  · rw [if_pos hnonpos, if_pos (by omega)]
    exact spells_zeros hplain hne hn _
  rw [if_neg hnonpos, if_neg (by omega)]
  by_cases hbefore : (digits.length : Int) ≤ scale
  · rw [if_pos hbefore]
    exact spells_before hplain hn hbefore
  · rw [if_neg hbefore]
    exact spells_among hplain hne hn (by omega) (by omega)

/-- The digits of a number are read back wherever its point is. -/
theorem ofChars?_magnitudeChars (hplain : Plain digits) (hne : digits ≠ [])
    (hn : Numeral.natAfter? 0 digits = some n) (hscale : (Numeral.toInt64? scale).isSome = true) :
    ofChars? (signed negative (magnitudeChars digits scale)) =
      some (rescaled negative n scale) := by
  have hspells := spells_magnitudeChars hplain hne hn hscale
  unfold rescaled
  split at hspells
  next hfull =>
    rw [if_pos hfull]
    exact ofChars?_of_spells negative 0 hspells (by decide)
  next hfull =>
    rw [if_neg hfull]
    exact ofChars?_of_spells negative scale hspells hscale

end Written

/-- The decimal that the text of a decimal denotes. -/
def written (d : Decimal) : Decimal :=
  rescaled (d.unscaled < 0) d.unscaled.natAbs (if d.unscaled = 0 then 0 else d.scale)

theorem toList_text (d : Decimal) :
    d.text.toList = signed (d.unscaled < 0) (magnitudeChars
      (Numeral.ofNat d.unscaled.natAbs) (if d.unscaled = 0 then 0 else d.scale)) := by
  rw [text, String.toList_ofList, signed]
  simp

theorem toInt64?_written_scale {d : Decimal} (hscale : (Numeral.toInt64? d.scale).isSome = true) :
    (Numeral.toInt64? (if d.unscaled = 0 then 0 else d.scale)).isSome = true := by
  split
  · decide
  · exact hscale

/-- Reading the text of a decimal with a scale of 64 bits succeeds. -/
theorem parse?_text (d : Decimal) (hscale : (Numeral.toInt64? d.scale).isSome = true) :
    parse? d.text = some d.written := by
  rw [parse?, toList_text, written]
  exact ofChars?_magnitudeChars (plain_ofNat _) (Numeral.ofNat_ne_nil _)
    (Numeral.natAfter?_ofNat _) (toInt64?_written_scale hscale)

/-! ## One number in several forms -/

theorem strip_mul_ten (u s : Int) (count : Nat) :
    strip ⟨u * 10, s⟩ (count + 1) = strip ⟨u, s - 1⟩ count := by
  rw [strip, if_pos (by simp), Int.mul_ediv_cancel _ (by decide)]

theorem strip_mul_pow (u s : Int) (count k : Nat) :
    strip ⟨u * 10 ^ k, s⟩ (count + k) = strip ⟨u, s - k⟩ count := by
  induction k generalizing s with
  | zero => simp
  | succ k ih =>
    rw [Int.pow_succ, ← Int.mul_assoc, ← Nat.add_assoc, strip_mul_ten, ih]
    congr 2
    omega

/-- Zeros at the end of the digits take up a scale. -/
theorem normal_mul_pow {u : Int} (hu : u ≠ 0) (s : Int) (k : Nat) :
    normal ⟨u * 10 ^ k, s⟩ = normal ⟨u, s - k⟩ := by
  have hzero : u * 10 ^ k ≠ 0 := mul_ne_zero hu (by positivity)
  have hlength : (Numeral.ofNat (u * 10 ^ k).natAbs).length =
      (Numeral.ofNat u.natAbs).length + k := by
    rw [Int.natAbs_mul, Int.natAbs_pow]
    exact Numeral.length_ofNat_mul_pow (Int.natAbs_ne_zero.2 hu) k
  rw [normal, normal, if_neg hzero, if_neg hu, hlength, strip_mul_pow]

theorem equal_symm {d e : Decimal} (h : d.equal e = true) : e.equal d = true := by
  rw [equal, beq_iff_eq] at h ⊢
  exact h.symm

theorem equal_of_equal {d e common : Decimal} (hd : d.equal common = true)
    (he : e.equal common = true) : d.equal e = true := by
  rw [equal, beq_iff_eq] at *
  exact hd.trans he.symm

theorem ofSign_natAbs (u : Int) : ofSign (u < 0) u.natAbs = u := by
  by_cases hu : u < 0
  · rw [ofSign, if_pos (decide_eq_true hu)]
    omega
  · rw [ofSign, if_neg (by rw [decide_eq_true_iff]; exact hu)]
    omega

theorem ofSign_mul (negative : Bool) (n m : Nat) :
    ofSign negative (n * m) = ofSign negative n * m := by
  cases negative
  · exact Int.natCast_mul n m
  · exact (congrArg Neg.neg (Int.natCast_mul n m)).trans (Int.neg_mul ..).symm

/-- The decimal that is read is the number that was written. -/
theorem equal_written (d : Decimal) : d.written.equal d = true := by
  rw [equal, beq_iff_eq, written, rescaled]
  by_cases hzero : d.unscaled = 0
  · rw [if_pos hzero]
    simp [ofSign, normal, hzero]
  rw [if_neg hzero]
  split
  next hwritten =>
    have hscale : 0 - ((-d.scale).toNat : Int) = d.scale := by omega
    rw [ofSign_mul, ofSign_natAbs, Int.natCast_pow]
    exact (normal_mul_pow hzero 0 _).trans (by rw [hscale])
  next => rw [ofSign_natAbs]

/-- A decimal that is read has a scale of 64 bits. -/
theorem parse?_scale {s : String} {d : Decimal} (hs : parse? s = some d) :
    (Numeral.toInt64? d.scale).isSome = true := by
  rw [parse?, ofChars?] at hs
  simp only [Option.bind_eq_bind, Option.bind_eq_some_iff, Option.ite_none_right_eq_some] at hs
  obtain ⟨exponent, -, unscaled, -, hscale, hd⟩ := hs
  cases hd
  exact hscale

end Decimal

end OperationChain
