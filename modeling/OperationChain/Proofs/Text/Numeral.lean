import OperationChain.Proofs.Text.Stretches
import OperationChain.Text.Numeral

/-! # Numerals as digits

What is read as a whole number: one or more digits of ASCII after at most one sign, with the
value that these digits have to the base ten.
-/

namespace OperationChain.Numeral

/-- One or more digits of ASCII. -/
def IsDigits (cs : List Char) : Prop := cs ≠ [] ∧ ∀ c ∈ cs, '0' ≤ c ∧ c ≤ '9'

/-- Digits after at most one sign, and the number that they denote. -/
inductive Denotes : List Char → Int → Prop where
  | unsigned {digits : List Char} (hdigits : IsDigits digits) :
    Denotes digits (Nat.ofDigitChars 10 digits 0)
  | positive {digits : List Char} (hdigits : IsDigits digits) :
    Denotes ('+' :: digits) (Nat.ofDigitChars 10 digits 0)
  | negative {digits : List Char} (hdigits : IsDigits digits) :
    Denotes ('-' :: digits) (-(Nat.ofDigitChars 10 digits 0 : Nat))

section

variable {c : Char} {cs : List Char} {n value : Nat}

theorem digit?_eq_some_iff :
    digit? c = some n ↔ ('0' ≤ c ∧ c ≤ '9') ∧ c.toNat - '0'.toNat = n := by
  rw [digit?]
  split
  next hdigit => rw [Option.some.injEq, and_iff_right (by simpa using hdigit)]
  next hother =>
    rw [Bool.and_eq_true, decide_eq_true_eq, decide_eq_true_eq] at hother
    simp [hother]

theorem natAfter?_eq_some_iff : natAfter? value cs = some n ↔
    (∀ c ∈ cs, '0' ≤ c ∧ c ≤ '9') ∧ Nat.ofDigitChars 10 cs value = n := by
  induction cs generalizing value with
  | nil => simp [natAfter?, Nat.ofDigitChars]
  | cons c rest ih =>
      rw [natAfter?, Option.bind_eq_some_iff, List.forall_mem_cons, Nat.ofDigitChars_cons]
      simp only [digit?_eq_some_iff, ih, Nat.mul_comm value]
      constructor
      · rintro ⟨_, ⟨hc, rfl⟩, hrest, hvalue⟩
        exact ⟨⟨hc, hrest⟩, hvalue⟩
      · rintro ⟨⟨hc, hrest⟩, hvalue⟩
        exact ⟨_, ⟨hc, rfl⟩, hrest, hvalue⟩

theorem nat?_eq_some_iff :
    nat? cs = some n ↔ IsDigits cs ∧ Nat.ofDigitChars 10 cs 0 = n := by
  cases cs with
  | nil => simp [nat?, IsDigits]
  | cons c rest => simp [nat?, IsDigits, natAfter?_eq_some_iff]

end

theorem Denotes.ne_nil {cs : List Char} {n : Int} (hdenotes : Denotes cs n) : cs ≠ [] := by
  cases hdenotes with
  | unsigned hdigits => exact hdigits.1
  | positive => exact List.cons_ne_nil _ _
  | negative => exact List.cons_ne_nil _ _

theorem Denotes.not_blank {cs : List Char} {n : Int} (hdenotes : Denotes cs n) :
    ∀ c ∈ cs, Text.isBlank c = false := by
  cases hdenotes with
  | unsigned hdigits => exact fun c hc => Text.isBlank_of_digit (hdigits.2 c hc)
  | positive hdigits =>
      exact List.forall_mem_cons.mpr ⟨rfl, fun c hc => Text.isBlank_of_digit (hdigits.2 c hc)⟩
  | negative hdigits =>
      exact List.forall_mem_cons.mpr ⟨rfl, fun c hc => Text.isBlank_of_digit (hdigits.2 c hc)⟩

theorem int?_eq_some_iff {cs : List Char} {n : Int} : int? cs = some n ↔ Denotes cs n := by
  unfold int?
  constructor
  · split
    all_goals
      simp only [Option.map_eq_some_iff, Option.bind_eq_bind, Option.bind_eq_some_iff,
        Option.pure_def, Option.some.injEq, nat?_eq_some_iff]
      rintro ⟨_, ⟨_, ⟨hdigits, rfl⟩, rfl⟩, rfl⟩
    · exact .negative hdigits
    · exact .positive hdigits
    · exact .unsigned hdigits
  · rintro (hdigits | hdigits | hdigits)
    all_goals have hvalue := nat?_eq_some_iff.mpr ⟨hdigits, rfl⟩
    · split
      next => exact absurd (hdigits.2 _ List.mem_cons_self) (by decide)
      next => exact absurd (hdigits.2 _ List.mem_cons_self) (by decide)
      next => rw [hvalue]; rfl
    · simp only [hvalue]; rfl
    · simp only [hvalue]; rfl

theorem toInt64?_eq_some_iff {n : Int} {word : Int64} :
    toInt64? n = some word ↔ word.toInt = n := by
  constructor
  · intro hword
    unfold toInt64? at hword
    split at hword
    next hrange =>
      cases hword
      exact Int64.toInt_ofInt_of_le hrange.1 hrange.2
    next => cases hword
  · rintro rfl
    rw [toInt64?, if_pos ⟨word.le_toInt, word.toInt_lt⟩, Int64.ofInt_toInt]

theorem toInt64?_toInt (n : Int64) : toInt64? n.toInt = some n := toInt64?_eq_some_iff.mpr rfl

theorem int64?_eq_some_iff {s : String} {word : Int64} :
    int64? s = some word ↔ Denotes s.toList word.toInt := by
  rw [int64?, Option.bind_eq_some_iff]
  simp only [int?_eq_some_iff, toInt64?_eq_some_iff]
  exact exists_eq_right'

end OperationChain.Numeral
