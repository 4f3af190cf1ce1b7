import Mathlib.Data.List.Forall2

/-! # How computations that can fail end

When a composed computation succeeds, and when it fails, by the ends of its parts.
-/

namespace Except

variable {ε ε' α β : Type}

@[simp] theorem ok_bind (a : α) (next : α → Except ε β) : (.ok a >>= next) = next a := rfl

@[simp] theorem error_bind (e : ε) (next : α → Except ε β) :
    ((.error e : Except ε α) >>= next) = .error e := rfl

theorem mapError_error (e : ε) (f : ε → ε') :
    (.error e : Except ε α).mapError f = .error (f e) := rfl

theorem bind_eq_ok_iff {first : Except ε α} {next : α → Except ε β} {b : β} :
    (first >>= next) = .ok b ↔ ∃ a, first = .ok a ∧ next a = .ok b := by
  cases first with
  | error e => simp
  | ok a => simp

theorem map_eq_ok_iff {result : Except ε α} {f : α → β} {b : β} :
    result.map f = .ok b ↔ ∃ a, result = .ok a ∧ f a = b := by
  cases result with
  | error e => simp [Except.map]
  | ok a => simp [Except.map]

theorem map_eq_error_iff {result : Except ε α} {f : α → β} {e : ε} :
    result.map f = .error e ↔ result = .error e := by
  cases result with
  | error e => simp [Except.map]
  | ok a => simp [Except.map]

theorem mapError_eq_ok_iff {result : Except ε α} {f : ε → ε'} {a : α} :
    result.mapError f = .ok a ↔ result = .ok a := by
  cases result with
  | error e =>
      rw [mapError_error]
      constructor <;> rintro ⟨⟩
  | ok b => constructor <;> (rintro ⟨⟩; rfl)

theorem mapError_eq_error_iff {result : Except ε α} {f : ε → ε'} {e : ε'} :
    result.mapError f = .error e ↔ ∃ cause, result = .error cause ∧ f cause = e := by
  cases result with
  | error cause => simp [mapError_error]
  | ok a =>
      constructor
      · rintro ⟨⟩
      · rintro ⟨_, ⟨⟩, _⟩

theorem mapM_eq_ok_iff {f : α → Except ε β} {items : List α} {results : List β} :
    items.mapM f = .ok results ↔ List.Forall₂ (fun a b => f a = .ok b) items results := by
  induction items generalizing results with
  | nil =>
      rw [List.mapM_nil, List.forall₂_nil_left_iff]
      constructor
      · rintro ⟨⟩
        rfl
      · rintro rfl
        rfl
  | cons a rest ih =>
      rw [List.mapM_cons, bind_eq_ok_iff, List.forall₂_cons_left_iff]
      constructor
      · rintro ⟨b, hb, hrest⟩
        obtain ⟨bs, hbs, hresults⟩ := bind_eq_ok_iff.mp hrest
        cases hresults
        exact ⟨b, bs, hb, ih.mp hbs, rfl⟩
      · rintro ⟨b, bs, hb, hbs, rfl⟩
        exact ⟨b, hb, bind_eq_ok_iff.mpr ⟨bs, ih.mpr hbs, rfl⟩⟩

theorem toOption_eq_some_iff {result : Except ε α} {a : α} :
    result.toOption = some a ↔ result = .ok a := by
  cases result with
  | error e => simp [Except.toOption]
  | ok b => simp [Except.toOption]

/-! ## The errors of a computation -/

/-- The computation fails with such errors only. -/
def FailsWith (P : ε → Prop) (result : Except ε α) : Prop := ∀ e, result = .error e → P e

namespace FailsWith

variable {P Q : ε → Prop}

theorem ok (a : α) : (.ok a : Except ε α).FailsWith P := nofun

theorem error {e : ε} (he : P e) : (.error e : Except ε α).FailsWith P := by
  rintro _ ⟨⟩
  exact he

theorem mono {result : Except ε α} (hresult : result.FailsWith P) (hPQ : ∀ e, P e → Q e) :
    result.FailsWith Q := fun e he => hPQ e (hresult e he)

theorem bind {first : Except ε α} {next : α → Except ε β} (hfirst : first.FailsWith P)
    (hnext : ∀ a, (next a).FailsWith P) : (first >>= next).FailsWith P := by
  cases first with
  | error e => exact error (hfirst e rfl)
  | ok a => exact hnext a

theorem map {result : Except ε α} (hresult : result.FailsWith P) (f : α → β) :
    (result.map f).FailsWith P := fun e he => hresult e (map_eq_error_iff.mp he)

theorem mapM {f : α → Except ε β} (hf : ∀ a, (f a).FailsWith P) (items : List α) :
    (items.mapM f).FailsWith P := by
  induction items with
  | nil => exact ok _
  | cons item rest ih =>
      rw [List.mapM_cons]
      exact (hf item).bind fun _ => ih.bind fun _ => ok _

end FailsWith

end Except
