import OperationChain.Number.Reading
import OperationChain.Proofs.Number.Decimal
import OperationChain.Proofs.Number.Rounding

/-! # Decimals read as floating point numbers

The text of a decimal is also one of a floating point number. Its reading is the number nearest
to the decimal, whichever way the text is written in, since a power of ten may stand in the
digits as well as behind them.
-/

namespace OperationChain

open Decimal (Plain Power Spells)

namespace Numeral

theorem isSome_digit? (c : Char) : (digit? c).isSome = c.isDigit := by
  change _ = (decide ('0' ≤ c) && decide (c ≤ '9'))
  unfold digit?
  split
  next hdigit => exact hdigit.symm
  next hdigit => exact (Bool.eq_false_of_not_eq_true hdigit).symm

theorem nat?_of_ne_nil {cs : List Char} (hne : cs ≠ []) : nat? cs = natAfter? 0 cs := by
  cases cs with
  | nil => exact absurd rfl hne
  | cons c rest => rfl

end Numeral

namespace Binary64

variable {cs whole places base tail : List Char} {negative : Bool} {n : Nat} {exponent : Int}

/-! ## The parts of a numeral -/

theorem digitsWithPoint?_whole (hcs : Plain cs) (hne : cs ≠ [])
    (hn : Numeral.natAfter? 0 cs = some n) : digitsWithPoint? cs = some (n, 0) := by
  have hdigits : ∀ c ∈ cs, (Numeral.digit? c).isSome = true := by
    intro c hc
    rw [Numeral.isSome_digit?]
    exact hcs c hc
  unfold digitsWithPoint?
  dsimp only
  rw [List.dropWhile_eq_nil_iff.mpr hdigits, List.takeWhile_eq_self_iff.mpr hdigits,
    Numeral.nat?_of_ne_nil hne, hn]
  rfl

theorem digitsWithPoint?_point (hwhole : Plain whole) (hne : whole ++ places ≠ [])
    (hn : Numeral.natAfter? 0 (whole ++ places) = some n) :
    digitsWithPoint? (whole ++ '.' :: places) = some (n, places.length) := by
  have hdigits : ∀ c ∈ whole, (Numeral.digit? c).isSome = true := by
    intro c hc
    rw [Numeral.isSome_digit?]
    exact hwhole c hc
  have hpoint : ¬ (Numeral.digit? '.').isSome = true := by decide
  unfold digitsWithPoint?
  dsimp only
  rw [List.dropWhile_append_of_pos hdigits, List.takeWhile_append_of_pos hdigits,
    List.dropWhile_cons, List.takeWhile_cons, if_neg hpoint, if_neg hpoint, List.append_nil]
  change Option.map _ (Numeral.nat? (whole ++ places)) = _
  rw [Numeral.nat?_of_ne_nil hne, hn]
  rfl

/-! ## Numerals -/

theorem toLower_of_isDigit {c : Char} (hc : c.isDigit = true) : c.toLower = c := by
  simp only [Char.isDigit, Bool.and_eq_true, decide_eq_true_eq] at hc
  have hhigh := UInt32.le_iff_toNat_le.mp hc.2
  apply dif_neg
  rintro ⟨hupper, -⟩
  have hlow := UInt32.le_iff_toNat_le.mp hupper
  exact absurd (hlow.trans hhigh) (by decide)

/-- A numeral starts with a digit or a point, and so with no sign and no letter. -/
theorem exists_cons_of_spells (hspells : Spells cs n exponent) :
    ∃ c rest, cs = c :: rest ∧ (c.isDigit = true ∨ c = '.') := by
  cases hspells with
  | @whole digits _ _ _ hcs hne =>
      obtain ⟨c, rest, rfl⟩ := List.exists_cons_of_ne_nil hne
      exact ⟨c, _, rfl, .inl (hcs c List.mem_cons_self)⟩
  | @point whole _ _ _ _ hwhole =>
      cases whole with
      | nil => exact ⟨'.', _, rfl, .inr rfl⟩
      | cons c rest => exact ⟨c, _, rfl, .inl (hwhole c List.mem_cons_self)⟩

theorem lower_ne (hspells : Spells cs n exponent) {first : Char} {name : List Char}
    (hfirst : first.isDigit = false ∧ first ≠ '.') :
    String.ofList (cs.map Char.toLower) ≠ String.ofList (first :: name) := by
  obtain ⟨c, rest, rfl, hc⟩ := exists_cons_of_spells hspells
  intro heq
  have hlower : c.toLower = first := by
    rw [String.ofList_inj] at heq
    exact (List.cons.inj heq).1
  obtain hdigit | rfl := hc
  · rw [toLower_of_isDigit hdigit] at hlower
    rw [← hlower, hdigit] at hfirst
    exact Bool.noConfusion hfirst.1
  · exact hfirst.2 hlower.symm

theorem unsigned?_of_base (negative : Bool) {digits places : Nat}
    (hbase : ∀ c ∈ base, c ≠ 'e' ∧ c ≠ 'E') (htail : Power tail exponent)
    (hdigits : digitsWithPoint? base = some (digits, places))
    (hspells : Spells (base ++ tail) n (exponent - places)) :
    unsigned? negative (base ++ tail) = some (ofDecimal negative digits (exponent - places)) := by
  have hunmarked : ∀ c ∈ base, (!(c == 'e' || c == 'E')) = true := by
    intro c hc
    simp [hbase c hc]
  unfold unsigned?
  split
  next hname => exact absurd hname (lower_ne hspells (by decide))
  next hname => exact absurd hname (lower_ne hspells (by decide))
  next hname => exact absurd hname (lower_ne hspells (by decide))
  next =>
    simp only [List.takeWhile_append_of_pos hunmarked, List.dropWhile_append_of_pos hunmarked]
    cases htail with
    | none => simp [hdigits]
    | @some mark rest exponent hmark hrest =>
        have hmarked : ¬ (!(mark == 'e' || mark == 'E')) = true := by
          rcases hmark with rfl | rfl <;> decide
        have hint : Numeral.int? rest = some exponent := (Option.filter_eq_some_iff.mp hrest).1
        simp only [List.takeWhile_cons, List.dropWhile_cons, if_neg hmarked, List.append_nil]
        simp [hdigits, hint]

/-- What is read are the digits, with the power of ten and without the places after the point. -/
theorem unsigned?_of_spells (negative : Bool) (hspells : Spells cs n exponent) :
    unsigned? negative cs = some (ofDecimal negative n exponent) := by
  have hcs := hspells
  cases hspells with
  | whole hplain hne hn htail =>
      rw [← Int.sub_zero exponent] at hcs ⊢
      exact unsigned?_of_base negative hplain.unmarked htail
        (digitsWithPoint?_whole hplain hne hn) hcs
  | point hwhole hplaces hne hn htail =>
      exact unsigned?_of_base negative (Decimal.unmarked_point hwhole hplaces) htail
        (digitsWithPoint?_point hwhole hne hn) hcs

theorem ofText?_of_spells {s : String} (hs : s.toList = Decimal.signed negative cs)
    (hspells : Spells cs n exponent) : ofText? s = some (ofDecimal negative n exponent) := by
  rw [ofText?, hs, ← unsigned?_of_spells negative hspells]
  cases negative with
  | true => rfl
  | false =>
      obtain ⟨c, rest, rfl, hc⟩ := exists_cons_of_spells hspells
      rw [Decimal.signed, if_neg Bool.false_ne_true]
      split
      next heq =>
        cases heq
        simp at hc
      next heq =>
        cases heq
        simp at hc
      next => rfl

/-! ## Powers of ten -/

theorem ofDecimal_zero (negative : Bool) (exponent : Int) :
    ofDecimal negative 0 exponent = ofMagnitude negative 0 := by
  rw [ofDecimal, if_pos (.inl rfl)]

/-- Zeros behind the digits are a power of ten. -/
theorem ofDecimal_mul_pow (negative : Bool) (n k : Nat) :
    ofDecimal negative (n * 10 ^ k) 0 = ofDecimal negative n k := by
  by_cases hn : n = 0
  · rw [hn, Nat.zero_mul, ofDecimal_zero, ofDecimal_zero]
  · have hne : n * 10 ^ k ≠ 0 := Nat.mul_ne_zero hn (Nat.pow_pos (by decide)).ne'
    have hlength : (Nat.toDigits 10 (n * 10 ^ k)).length = (Nat.toDigits 10 n).length + k :=
      Numeral.length_ofNat_mul_pow hn k
    unfold ofDecimal
    simp [hn, hne, hlength]

end Binary64

namespace Decimal

variable {d : Decimal}

/-- The number that a decimal is. -/
def toRat (d : Decimal) : ℚ := d.unscaled * 10 ^ (-d.scale)

theorem nearest_toBinary64 (d : Decimal) : Binary64.Nearest d.toRat d.toBinary64 := by
  have hvalue : d.toRat =
      Binary64.signed (d.unscaled < 0) (d.unscaled.natAbs * 10 ^ (-d.scale)) := by
    rw [toRat, Binary64.cast_eq_signed d.unscaled, Binary64.signed, Binary64.signed]
    split
    next => exact neg_mul _ _
    next => rfl
  rw [hvalue]
  exact Binary64.nearest_ofDecimal _ _ _

theorem ofText?_text (d : Decimal) (hscale : (Numeral.toInt64? d.scale).isSome = true) :
    Binary64.ofText? d.text = some d.toBinary64 := by
  have htext := d.toList_text
  have hspells := spells_magnitudeChars (plain_ofNat _) (Numeral.ofNat_ne_nil _)
    (Numeral.natAfter?_ofNat d.unscaled.natAbs) (toInt64?_written_scale hscale)
  have hvalue : Binary64.ofDecimal (d.unscaled < 0) d.unscaled.natAbs
      (-(if d.unscaled = 0 then 0 else d.scale)) = d.toBinary64 := by
    rw [toBinary64]
    split
    next hzero => rw [hzero, Int.natAbs_zero, Binary64.ofDecimal_zero, Binary64.ofDecimal_zero]
    next => rfl
  generalize (if d.unscaled = 0 then 0 else d.scale) = scale at htext hspells hvalue
  split at hspells
  next hfull =>
    rw [Binary64.ofText?_of_spells htext hspells, Binary64.ofDecimal_mul_pow,
      Int.toNat_of_nonneg (by omega), hvalue]
  next => rw [Binary64.ofText?_of_spells htext hspells, hvalue]

/-- Reading the text of a decimal succeeds, with the number nearest to the decimal. -/
theorem exists_nearest_of_text (hscale : (Numeral.toInt64? d.scale).isSome = true) :
    ∃ x, Binary64.ofText? d.text = some x ∧ Binary64.Nearest d.toRat x :=
  ⟨d.toBinary64, ofText?_text d hscale, nearest_toBinary64 d⟩

end Decimal

end OperationChain
