import OperationChain.Expression.Evaluation
import OperationChain.Proofs.Value.Order

/-! # Comparisons of terms

The six comparisons by order are those of one order, on every row. It need not order all terms:
of two values without an order none comes first and they are not level either, so they are only
different from each other.
-/

namespace OperationChain.Expression

namespace Comparison

variable (a b : Value)

@[simp] theorem test_less : less.test a b = true ↔ a.compare? b = some .lt := by
  simp [test]

@[simp] theorem test_equal : equal.test a b = true ↔ a.compare? b = some .eq := by
  simp [test]

@[simp] theorem test_greater : greater.test a b = true ↔ a.compare? b = some .gt := by
  simp [test]

@[simp] theorem test_notEqual : notEqual.test a b = true ↔ a.compare? b ≠ some .eq := by
  simp [test]

@[simp] theorem test_atMost : atMost.test a b = true ↔
    a.compare? b = some .lt ∨ a.compare? b = some .eq := by
  simp [test]

@[simp] theorem test_atLeast : atLeast.test a b = true ↔
    a.compare? b = some .gt ∨ a.compare? b = some .eq := by
  simp [test]

/-- Comparisons that are those of one order, which need not order everything. -/
structure OfOneOrder {α : Type} (holds : Comparison → α → α → Prop) : Prop where
  greater_iff (l r : α) : holds .less l r ↔ holds .greater r l
  atLeast_iff (l r : α) : holds .atMost l r ↔ holds .atLeast r l
  equal_comm (l r : α) : holds .equal l r ↔ holds .equal r l
  notEqual_iff (l r : α) : holds .notEqual l r ↔ ¬ holds .equal l r
  not_less_and_equal (l r : α) : ¬ (holds .less l r ∧ holds .equal l r)
  not_less_and_greater (l r : α) : ¬ (holds .less l r ∧ holds .greater l r)
  not_equal_and_greater (l r : α) : ¬ (holds .equal l r ∧ holds .greater l r)
  atMost_iff (l r : α) : holds .atMost l r ↔ holds .less l r ∨ holds .equal l r
  not_of_unordered (l r : α) : ¬ holds .less l r → ¬ holds .equal l r → ¬ holds .greater l r →
    ¬ holds .atMost l r ∧ ¬ holds .atLeast l r

/-- What is compared by a part of it is compared in one order too. -/
theorem OfOneOrder.comap {α β : Type} {holds : Comparison → α → α → Prop} (h : OfOneOrder holds)
    (part : β → α) : OfOneOrder fun comparison l r => holds comparison (part l) (part r) where
  greater_iff l r := h.greater_iff (part l) (part r)
  atLeast_iff l r := h.atLeast_iff (part l) (part r)
  equal_comm l r := h.equal_comm (part l) (part r)
  notEqual_iff l r := h.notEqual_iff (part l) (part r)
  not_less_and_equal l r := h.not_less_and_equal (part l) (part r)
  not_less_and_greater l r := h.not_less_and_greater (part l) (part r)
  not_equal_and_greater l r := h.not_equal_and_greater (part l) (part r)
  atMost_iff l r := h.atMost_iff (part l) (part r)
  not_of_unordered l r := h.not_of_unordered (part l) (part r)

variable {a b}

theorem compare?_eq_some_swap {order : Ordering} :
    b.compare? a = some order ↔ a.compare? b = some order.swap := by
  rw [Value.compare?_swap b a]
  cases b.compare? a <;> simp [Ordering.swap_inj]

theorem ofOneOrder_test : OfOneOrder fun comparison a b => comparison.test a b = true where
  greater_iff l r := by
    rw [test_less, test_greater]
    exact compare?_eq_some_swap
  atLeast_iff l r := by
    rw [test_atMost, test_atLeast]
    exact or_congr compare?_eq_some_swap compare?_eq_some_swap
  equal_comm l r := by
    rw [test_equal, test_equal]
    exact compare?_eq_some_swap
  notEqual_iff l r := by simp
  not_less_and_equal l r := by simp +contextual
  not_less_and_greater l r := by simp +contextual
  not_equal_and_greater l r := by simp +contextual
  atMost_iff l r := by simp
  not_of_unordered l r := by simp +contextual

end Comparison

/-- On every row the comparisons of terms are those of one order. -/
theorem Predicate.ofOneOrder_evaluate (row : Row) :
    Comparison.OfOneOrder fun comparison (l r : Term) =>
      (compare l comparison r).evaluate row = true := by
  simp only [Predicate.evaluate]
  exact Comparison.ofOneOrder_test.comap (Term.evaluate row)

end OperationChain.Expression
