import OperationChain.Proofs.Text.Utf8Order
import OperationChain.Value.Document
import OperationChain.Value.Order

/-! # The order of values

Two values are compared from either side with the opposite outcome, or have no order from
either side. Texts and bytes always have one, which is that of texts wherever a text is
compared. Bytes are compared with each other as they are, and reading them can change their
order: bytes that are no UTF-8 are read with U+FFFD in place of the parts that are not. So a
chain of comparisons that mixes texts with bytes holds together as far as reading keeps the
order of the bytes in it.
-/

namespace OperationChain

/-! ## The other way round -/

theorem Binary64.compare?_swap (x y : Binary64) :
    y.compare? x = (x.compare? y).map Ordering.swap := by
  rw [compare?, compare?, Bool.or_comm]
  split
  next => rfl
  next => exact congrArg some Std.OrientedCmp.eq_swap

/-- What is compared the other way round has the opposite order. -/
theorem Value.compare?_swap (a b : Value) : b.compare? a = (a.compare? b).map Ordering.swap := by
  cases a <;> cases b
  case null.null => rfl
  case bool.bool => exact congrArg some Std.OrientedCmp.eq_swap
  case int.int => exact congrArg some Std.OrientedCmp.eq_swap
  case text.text => exact congrArg some Std.OrientedCmp.eq_swap
  case bytes.bytes => exact congrArg some Std.OrientedCmp.eq_swap
  case bytes.text => exact congrArg some Std.OrientedCmp.eq_swap
  case text.bytes => exact congrArg some Std.OrientedCmp.eq_swap
  -- What is left are two numbers, or values one of which has no order.
  all_goals first
    | exact Binary64.compare?_swap _ _
    | rfl

/-! ## Bytes that are read -/

namespace Utf8

variable {x y : Bytes}

/-- Whether bytes are in the order of their readings. -/
def KeepsOrder (x y : Bytes) : Prop := compare (decodeLossy x) (decodeLossy y) = compare x y

theorem keepsOrder_self (x : Bytes) : KeepsOrder x x := by
  rw [KeepsOrder, Std.compare_self, Std.compare_self]

theorem KeepsOrder.symm (hkeeps : KeepsOrder x y) : KeepsOrder y x := by
  have hswap {α : Type} [Ord α] [Std.OrientedOrd α] (a b : α) :
      compare b a = (compare a b).swap := Std.OrientedCmp.eq_swap
  rw [KeepsOrder, hswap (decodeLossy x), hkeeps, ← hswap]

/-- Bytes that are texts are in the order of these texts. -/
theorem keepsOrder_of_isValid (hx : isValid x = true) (hy : isValid y = true) :
    KeepsOrder x y := by
  obtain ⟨s, hs⟩ := Option.isSome_iff_exists.mp hx
  obtain ⟨t, ht⟩ := Option.isSome_iff_exists.mp hy
  rw [KeepsOrder, ← encode_of_decode? hs, ← encode_of_decode? ht, decodeLossy_encode,
    decodeLossy_encode, compare_encode]

end Utf8

/-! ## Chains of texts and bytes -/

namespace Value

/-- Texts and bytes. -/
inductive IsString : Value → Prop where
  | text (s : String) : IsString (.text s)
  | bytes (raw : Bytes) : IsString (.bytes raw)

/-- Whether a value is not after another. -/
def AtMost (a b : Value) : Prop := a.compare? b = some .lt ∨ a.compare? b = some .eq

/-- Two steps that do not go down make one that does not, which stays on one level only if both
of them do. -/
def Chains (a b c : Value) : Prop :=
  a.AtMost b → b.AtMost c →
    a.AtMost c ∧ (a.compare? c = some .eq → a.compare? b = some .eq ∧ b.compare? c = some .eq)

section Keys

variable {α : Type} [Ord α] {x y z : α} {a b c : Value}

theorem atMost_iff_isLE (hab : a.compare? b = some (compare x y)) :
    a.AtMost b ↔ (compare x y).isLE = true := by
  rw [AtMost, hab]
  cases compare x y <;> simp

/-- Values that are compared by keys chain as the keys do. -/
theorem chains_of_keys [Std.TransOrd α] (hab : a.compare? b = some (compare x y))
    (hbc : b.compare? c = some (compare y z)) (hac : a.compare? c = some (compare x z)) :
    Chains a b c := by
  rw [Chains, atMost_iff_isLE hab, atMost_iff_isLE hbc, atMost_iff_isLE hac]
  intro hxy hyz
  refine ⟨Std.TransCmp.isLE_trans hxy hyz, ?_⟩
  intro heq
  -- If the ends are level, then from either end there is a way back.
  have heq : compare x z = .eq := Option.some.inj (hac.symm.trans heq)
  have hzx : (compare z x).isLE = true := by simp [Std.OrientedCmp.eq_symm heq]
  have hyx : (compare y x).isLE = true := Std.TransCmp.isLE_trans hyz hzx
  have hzy : (compare z y).isLE = true := Std.TransCmp.isLE_trans hzx hxy
  rw [hab, hbc, Std.OrientedCmp.isLE_antisymm hxy hyx, Std.OrientedCmp.isLE_antisymm hyz hzy]
  exact ⟨rfl, rfl⟩

end Keys

/-- Texts and bytes are compared by their readings, except for two bytes that these put in
another order. -/
theorem compare?_of_strings {a b : Value} (ha : a.IsString) (hb : b.IsString)
    (hkeeps : ∀ x y, a = .bytes x → b = .bytes y → Utf8.KeepsOrder x y) :
    a.compare? b = some (compare a.display b.display) := by
  cases ha <;> cases hb
  case bytes.bytes x y => exact congrArg some (Eq.symm (hkeeps x y rfl rfl))
  all_goals rfl

/-- Whether reading keeps the order of any two bytes among these values, unless there is no text
among them. -/
def ReadInOrder (values : List Value) : Prop :=
  ∀ x y s, .bytes x ∈ values → .bytes y ∈ values → .text s ∈ values → Utf8.KeepsOrder x y

theorem chains_of_readInOrder {a b c : Value} (ha : a.IsString) (hb : b.IsString)
    (hc : c.IsString) (horder : ReadInOrder [a, b, c]) : Chains a b c := by
  by_cases htext : ∃ s, .text s ∈ [a, b, c]
  · obtain ⟨s, hs⟩ := htext
    have hkeeps {v w : Value} (hv : v ∈ [a, b, c]) (hw : w ∈ [a, b, c]) (x y : Bytes)
        (hx : v = .bytes x) (hy : w = .bytes y) : Utf8.KeepsOrder x y :=
      horder x y s (hx ▸ hv) (hy ▸ hw) hs
    exact chains_of_keys (compare?_of_strings ha hb (hkeeps (by simp) (by simp)))
      (compare?_of_strings hb hc (hkeeps (by simp) (by simp)))
      (compare?_of_strings ha hc (hkeeps (by simp) (by simp)))
  · cases ha with
    | text s => exact absurd ⟨s, by simp⟩ htext
    | bytes x =>
        cases hb with
        | text s => exact absurd ⟨s, by simp⟩ htext
        | bytes y =>
            cases hc with
            | text s => exact absurd ⟨s, by simp⟩ htext
            | bytes z => exact chains_of_keys (x := x) (y := y) (z := z) rfl rfl rfl

section TwoBytes

variable {x y : Bytes}

/-- A text that is level with the first bytes passes on what it is compared with. -/
theorem isLE_of_chains
    (hchains : Chains (.bytes x) (.text (Utf8.decodeLossy x)) (.bytes y))
    (hle : (compare (Utf8.decodeLossy x) (Utf8.decodeLossy y)).isLE = true) :
    (compare x y).isLE = true ∧
      (compare x y = .eq → compare (Utf8.decodeLossy x) (Utf8.decodeLossy y) = .eq) := by
  have hself : (Value.bytes x).compare? (.text (Utf8.decodeLossy x)) = some .eq :=
    congrArg some Std.compare_self
  obtain ⟨hatMost, hlevel⟩ := hchains (.inr hself) ((atMost_iff_isLE rfl).mpr hle)
  refine ⟨(atMost_iff_isLE rfl).mp hatMost, ?_⟩
  intro heq
  exact Option.some.inj (hlevel (congrArg some heq)).2

theorem compare_eq_lt_of_chains
    (hchains : Chains (.bytes x) (.text (Utf8.decodeLossy x)) (.bytes y))
    (hlt : compare (Utf8.decodeLossy x) (Utf8.decodeLossy y) = .lt) : compare x y = .lt := by
  obtain ⟨hle, hlevel⟩ := isLE_of_chains hchains (by simp [hlt])
  cases hcompare : compare x y with
  | lt => rfl
  | eq => simp [hlevel hcompare] at hlt
  | gt => simp [hcompare] at hle

/-- Bytes that chain with their readings are in the order of them. -/
theorem keepsOrder_of_chains
    (hxy : Chains (.bytes x) (.text (Utf8.decodeLossy x)) (.bytes y))
    (hyx : Chains (.bytes y) (.text (Utf8.decodeLossy y)) (.bytes x)) : Utf8.KeepsOrder x y := by
  rw [Utf8.KeepsOrder]
  cases hread : compare (Utf8.decodeLossy x) (Utf8.decodeLossy y) with
  | lt => exact (compare_eq_lt_of_chains hxy hread).symm
  | eq =>
      have hle := (isLE_of_chains hxy (by simp [hread])).1
      have hge := (isLE_of_chains hyx (by simp [Std.OrientedCmp.eq_symm hread])).1
      exact (Std.OrientedCmp.isLE_antisymm hle hge).symm
  | gt =>
      have hlt := compare_eq_lt_of_chains hyx (Std.OrientedCmp.lt_of_gt hread)
      exact (Std.OrientedCmp.gt_of_lt hlt).symm

end TwoBytes

namespace ReadInOrder

variable {values others : List Value}

theorem subset (horder : ReadInOrder values) (hsubset : others ⊆ values) : ReadInOrder others :=
  fun x y s hx hy hs => horder x y s (hsubset hx) (hsubset hy) (hsubset hs)

theorem of_keepsOrder {x y : Bytes} (hkeeps : Utf8.KeepsOrder x y) (s : String) :
    ReadInOrder [.bytes x, .bytes y, .text s] := by
  intro x' y' _ hx hy _
  simp only [List.mem_cons, bytes.injEq, reduceCtorEq, List.not_mem_nil, or_false] at hx hy
  rcases hx with rfl | rfl <;> rcases hy with rfl | rfl
  · exact Utf8.keepsOrder_self _
  · exact hkeeps
  · exact hkeeps.symm
  · exact Utf8.keepsOrder_self _

theorem of_isValid (hvalid : ∀ x y, .bytes x ∈ values → .bytes y ∈ values →
    x = y ∨ Utf8.isValid x = true ∧ Utf8.isValid y = true) : ReadInOrder values := by
  intro x y _ hx hy _
  rcases hvalid x y hx hy with rfl | ⟨hx, hy⟩
  · exact Utf8.keepsOrder_self x
  · exact Utf8.keepsOrder_of_isValid hx hy

end ReadInOrder

/-- Texts and bytes chain if there is no text among them, and otherwise if the bytes among them
are in the order of their readings, as those of texts are. Two bytes chain with every text, in
every arrangement, only if they are in the order of their readings. -/
theorem chains_of_strings :
    (∀ a b c : Value, a.IsString → b.IsString → c.IsString →
      ReadInOrder [a, b, c] → Chains a b c) ∧
    (∀ values, (∀ x y, .bytes x ∈ values → .bytes y ∈ values →
      x = y ∨ Utf8.isValid x = true ∧ Utf8.isValid y = true) → ReadInOrder values) ∧
    (∀ x y, (∀ s a b c, [a, b, c].Perm [.bytes x, .bytes y, .text s] → Chains a b c) ↔
      Utf8.KeepsOrder x y) := by
  refine ⟨fun a b c => chains_of_readInOrder, fun values => .of_isValid, fun x y => ⟨?_, ?_⟩⟩
  · intro hchains
    have hxy (s : String) : [bytes x, text s, bytes y].Perm [bytes x, bytes y, text s] :=
      (List.Perm.swap _ _ _).cons _
    have hyx (s : String) : [bytes y, text s, bytes x].Perm [bytes x, bytes y, text s] :=
      (List.perm_append_comm : ([bytes y, text s] ++ [bytes x]).Perm _)
    exact keepsOrder_of_chains (hchains _ _ _ _ (hxy _)) (hchains _ _ _ _ (hyx _))
  · intro hkeeps s a b c hperm
    have hstring : ∀ v ∈ [bytes x, bytes y, text s], v.IsString := by
      simp [IsString.text, IsString.bytes]
    have hmem {v : Value} (hv : v ∈ [a, b, c]) : v.IsString := hstring v (hperm.subset hv)
    exact chains_of_readInOrder (hmem (by simp)) (hmem (by simp)) (hmem (by simp))
      ((ReadInOrder.of_keepsOrder hkeeps s).subset hperm.subset)

/-- A byte that starts no character, beside one that is a text and comes before its reading. -/
theorem chains_of_strings_unreadable :
    Utf8.isValid [0xFF] = false ∧
      (bytes [0x61]).AtMost (text "b") ∧ (text "b").AtMost (bytes [0xFF]) ∧
      Chains (bytes [0x61]) (text "b") (bytes [0xFF]) := by
  have hread : Utf8.decodeLossy [0x61] = "a" := Utf8.decodeLossy_encode "a"
  have hunread : Utf8.decodeLossy [0xFF] = "\uFFFD" := by decide +kernel
  have hkeeps : Utf8.KeepsOrder [0x61] [0xFF] := by
    rw [Utf8.KeepsOrder, hread, hunread]
    decide
  refine ⟨by decide +kernel, .inl ?_, .inl ?_, ?_⟩
  · rw [compare?, hread]
    decide
  · rw [compare?, hunread]
    decide
  · exact (chains_of_strings.2.2 [0x61] [0xFF]).2 hkeeps "b" _ _ _ ((List.Perm.swap _ _ _).cons _)

/-- Bytes that are no text are level with the same text, although they differ. -/
theorem not_chains_of_strings :
    ¬ ∀ a b c : Value, a.IsString → b.IsString → c.IsString → Chains a b c := by
  intro hchains
  have hupper : (bytes [0xFF]).compare? (text "\uFFFD") = some .eq := by decide +kernel
  have hlower : (text "\uFFFD").compare? (bytes [0xFE]) = some .eq := by decide +kernel
  obtain ⟨hatMost, -⟩ := hchains (bytes [0xFF]) (text "\uFFFD") (bytes [0xFE]) (.bytes _) (.text _)
    (.bytes _) (.inr hupper) (.inr hlower)
  have hgreater : (bytes [0xFF]).compare? (bytes [0xFE]) = some .gt := by decide
  rw [AtMost, hgreater] at hatMost
  simp at hatMost

end Value

end OperationChain
