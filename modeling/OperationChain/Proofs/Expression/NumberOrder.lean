import OperationChain.Proofs.Expression.Comparison
import OperationChain.Proofs.Number.DecimalReading

/-! # Comparisons of numbers

Whole numbers are compared with each other as they are, and every other two numbers through
the floating point numbers nearest to them. So numbers that are floating point numbers
themselves are compared exactly, and no two numbers are ever compared the wrong way round, but
different numbers are level where one floating point number is nearest to both.
-/

namespace OperationChain

namespace Binary64

variable {p q : ℚ} {x y : Binary64} {order : Ordering}

/-- An order of two values that is the one of the numbers nearest to them. -/
def OrderOfNearest (p q : ℚ) (order : Ordering) : Prop :=
  ∃ x y, Nearest p x ∧ Nearest q y ∧ order = compare x.toRat y.toRat

namespace OrderOfNearest

theorem lt_of_lt (h : OrderOfNearest p q .lt) : p < q := by
  obtain ⟨x, y, hx, hy, horder⟩ := h
  by_contra! hle
  exact (hy.monotone hx hle).not_gt (compare_lt_iff_lt.mp horder.symm)

theorem gt_of_gt (h : OrderOfNearest p q .gt) : q < p := by
  obtain ⟨x, y, hx, hy, horder⟩ := h
  by_contra! hle
  exact (hx.monotone hy hle).not_gt (compare_gt_iff_gt.mp horder.symm)

/-- Values are not put the wrong way round. -/
theorem eq_compare_or_eq (h : OrderOfNearest p q order) : order = compare p q ∨ order = .eq := by
  cases order with
  | lt => exact .inl (compare_lt_iff_lt.mpr h.lt_of_lt).symm
  | eq => exact .inr rfl
  | gt => exact .inl (compare_gt_iff_gt.mpr h.gt_of_gt).symm

/-- Values are level exactly if one number is nearest to both. -/
theorem eq_iff (h : OrderOfNearest p q order) :
    order = .eq ↔ ∃ x, Nearest p x ∧ Nearest q x := by
  obtain ⟨x, y, hx, hy, rfl⟩ := h
  rw [compare_eq_iff_eq]
  constructor
  · intro heq
    exact ⟨y, hx.congr hy.isNumber heq, hy⟩
  · rintro ⟨z, hpz, hqz⟩
    exact (hx.unique hpz).trans (hqz.unique hy)

/-- Values of numbers are in their order. -/
theorem eq_compare_of_isExact (h : OrderOfNearest p q order) (hp : IsExact p) (hq : IsExact q) :
    order = compare p q := by
  obtain ⟨x, y, hx, hy, rfl⟩ := h
  obtain ⟨z, hz, rfl⟩ := hp
  obtain ⟨w, hw, rfl⟩ := hq
  rw [hx.unique (.self (isNaN_of_isFinite hz)), hy.unique (.self (isNaN_of_isFinite hw))]

end OrderOfNearest

end Binary64

namespace Value

variable {a b : Value} {p q : ℚ} {x y : Binary64}

/-- The number that a value is. -/
def number? : Value → Option ℚ
  | int n => some n.toInt
  | float x => if x.isFinite then some x.toRat else none
  | decimal d => some d.toRat
  | _ => none

theorem exists_nearest (ha : a.number? = some p) :
    ∃ x, a.binary64? = some x ∧ Binary64.Nearest p x := by
  cases a with
  | int n =>
      obtain rfl := Option.some.inj ha
      exact ⟨_, rfl, mod_cast Binary64.nearest_ofInt n.toInt⟩
  | float x =>
      rw [number?] at ha
      split at ha
      next hx =>
        obtain rfl := Option.some.inj ha
        exact ⟨x, rfl, .self (Binary64.isNaN_of_isFinite hx)⟩
      next hx => cases ha
  | decimal d =>
      obtain rfl := Option.some.inj ha
      exact ⟨_, rfl, d.nearest_toBinary64⟩
  | _ => cases ha

theorem compare_int64 (m n : Int64) : compare m n = compare (m.toInt : ℚ) (n.toInt : ℚ) := by
  obtain hlt | heq | hgt := lt_trichotomy m.toInt n.toInt
  · rw [Std.compare_eq_lt.mpr (Int64.lt_iff_toInt_lt.mpr hlt),
      compare_lt_iff_lt.mpr (Int.cast_lt.mpr hlt)]
  · rw [Int64.toInt_inj.mp heq, Std.compare_self, Std.compare_self]
  · rw [Std.compare_eq_gt.mpr (Int64.lt_iff_toInt_lt.mpr hgt),
      compare_gt_iff_gt.mpr (Int.cast_lt.mpr hgt)]

/-- Whole numbers are compared as they are. -/
theorem compare?_of_ints (ha : a.number? = some p) (hb : b.number? = some q)
    (hints : a.shape = .int ∧ b.shape = .int) : a.compare? b = some (compare p q) := by
  cases a <;> cases b <;> simp [shape] at hints
  next m n =>
    obtain rfl := Option.some.inj ha
    obtain rfl := Option.some.inj hb
    exact congrArg some (compare_int64 m n)

/-- Other numbers are compared as the floating point numbers nearest to them. -/
theorem compare?_of_binary64 (hx : a.binary64? = some x) (hy : b.binary64? = some y)
    (hints : ¬ (a.shape = .int ∧ b.shape = .int)) : a.compare? b = x.compare? y := by
  cases a <;> cases hx <;> cases b <;> cases hy
  all_goals first
    | rfl
    | exact absurd ⟨rfl, rfl⟩ hints

theorem exists_orderOfNearest (ha : a.number? = some p) (hb : b.number? = some q)
    (hints : ¬ (a.shape = .int ∧ b.shape = .int)) :
    ∃ order, a.compare? b = some order ∧ Binary64.OrderOfNearest p q order := by
  obtain ⟨x, hax, hx⟩ := exists_nearest ha
  obtain ⟨y, hby, hy⟩ := exists_nearest hb
  refine ⟨compare x.toRat y.toRat, ?_, x, y, hx, hy, rfl⟩
  rw [compare?_of_binary64 hax hby hints, Binary64.compare?_eq hx.isNumber hy.isNumber]

end Value

namespace Expression

/-- The comparisons of two terms on a row are those of an order. -/
structure Predicate.Decides (row : Row) (l r : Term) (order : Ordering) : Prop where
  equal : (compare l .equal r).evaluate row = true ↔ order = .eq
  notEqual : (compare l .notEqual r).evaluate row = true ↔ order ≠ .eq
  less : (compare l .less r).evaluate row = true ↔ order = .lt
  greater : (compare l .greater r).evaluate row = true ↔ order = .gt
  atMost : (compare l .atMost r).evaluate row = true ↔ order ≠ .gt
  atLeast : (compare l .atLeast r).evaluate row = true ↔ order ≠ .lt

theorem Predicate.decides_of_compare? {row : Row} {l r : Term} {order : Ordering}
    (horder : (l.evaluate row).compare? (r.evaluate row) = some order) :
    Decides row l r order := by
  refine ⟨?_, ?_, ?_, ?_, ?_, ?_⟩ <;> simp [evaluate, horder] <;> cases order <;> simp

end Expression

namespace Value

/-- Two numbers always have an order, and filters decide by it. It is theirs if both are whole
numbers and otherwise the one of the floating point numbers nearest to them, so it is never the
opposite one, and theirs where they are floating point numbers, as whole numbers of 53 bits
are. -/
theorem compare?_of_numbers {a b : Value} {p q : ℚ} (ha : a.number? = some p)
    (hb : b.number? = some q) :
    ∃ order, a.compare? b = some order ∧
      (if a.shape = .int ∧ b.shape = .int then order = compare p q
        else Binary64.OrderOfNearest p q order ∧
          (order = .eq ↔ ∃ x, Binary64.Nearest p x ∧ Binary64.Nearest q x)) ∧
      (order = compare p q ∨ order = .eq) ∧
      (Binary64.IsExact p → Binary64.IsExact q → order = compare p q) ∧
      (∀ m n : Int, p = m → q = n → m.natAbs ≤ 2 ^ 53 → n.natAbs ≤ 2 ^ 53 →
        order = compare p q) ∧
      ∀ row l r, Expression.Term.evaluate row l = a → Expression.Term.evaluate row r = b →
        Expression.Predicate.Decides row l r order := by
  have hdecides {order : Ordering} (horder : a.compare? b = some order) (row : Row)
      (l r : Expression.Term) (hl : l.evaluate row = a) (hr : r.evaluate row = b) :
      Expression.Predicate.Decides row l r order := by
    apply Expression.Predicate.decides_of_compare?
    rw [hl, hr]
    exact horder
  by_cases hints : a.shape = .int ∧ b.shape = .int
  · have horder := compare?_of_ints ha hb hints
    refine ⟨_, horder, ?_, .inl rfl, fun _ _ => rfl, fun _ _ _ _ _ _ => rfl, hdecides horder⟩
    rw [if_pos hints]
  · obtain ⟨order, horder, hnearest⟩ := exists_orderOfNearest ha hb hints
    refine ⟨order, horder, ?_, hnearest.eq_compare_or_eq, hnearest.eq_compare_of_isExact, ?_,
      hdecides horder⟩
    · rw [if_neg hints]
      exact ⟨hnearest, hnearest.eq_iff⟩
    · rintro m n rfl rfl hm hn
      exact hnearest.eq_compare_of_isExact (Binary64.isExact_intCast hm)
        (Binary64.isExact_intCast hn)

theorem compare?_neighbours :
    (decimal ⟨9007199254740993, 0⟩).compare? (int 9007199254740992) = some .eq := by
  decide +kernel

/-- Two neighbouring whole numbers to which one floating point number is nearest. -/
theorem compare?_of_numbers_neighbours :
    (decimal ⟨9007199254740993, 0⟩).number? = some 9007199254740993 ∧
      (int 9007199254740992).number? = some 9007199254740992 ∧
      ∃ x, Binary64.Nearest 9007199254740993 x ∧ Binary64.Nearest 9007199254740992 x := by
  have ha : (decimal ⟨9007199254740993, 0⟩).number? = some 9007199254740993 := by
    simp [number?, Decimal.toRat]
  have hb : (int 9007199254740992).number? = some 9007199254740992 := by
    have hint : (9007199254740992 : Int64).toInt = 9007199254740992 := by decide
    simp [number?, hint]
  obtain ⟨order, horder, hcase, -⟩ := compare?_of_numbers ha hb
  rw [if_neg (by decide)] at hcase
  exact ⟨ha, hb, hcase.2.mp (Option.some.inj (horder.symm.trans compare?_neighbours))⟩

/-- Different numbers can be level. -/
theorem not_compare?_of_numbers :
    ¬ ∀ (d : Decimal) (n : Int64),
      (decimal d).compare? (int n) = some (compare d.toRat (n.toInt : ℚ)) := by
  intro hexact
  have hlevel := (hexact _ _).symm.trans compare?_neighbours
  have hsame := compare_eq_iff_eq.mp (Option.some.inj hlevel)
  have hint : (9007199254740992 : Int64).toInt = 9007199254740992 := by decide
  norm_num [Decimal.toRat, hint] at hsame

end Value

end OperationChain
