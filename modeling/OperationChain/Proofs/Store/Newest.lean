import OperationChain.Proofs.Store.Nested

/-! # The newest of several cells

A column keeps the newest of the cells that it has seen, and of equally new ones the
one that was written last.
-/

namespace OperationChain.Cell

/-- No cell before it is newer, and none behind it is as new. -/
def IsNewest (cell : Cell) (history : List Cell) : Prop :=
  ∃ earlier later, history = earlier ++ cell :: later ∧
    (∀ other ∈ earlier, other.timestamp ≤ cell.timestamp) ∧
    ∀ other ∈ later, other.timestamp < cell.timestamp

namespace IsNewest

variable {cell other newest : Cell} {history : List Cell}

theorem singleton (cell : Cell) : cell.IsNewest [cell] :=
  ⟨[], [], rfl, by simp, by simp⟩

theorem mem (hnewest : cell.IsNewest history) : cell ∈ history := by
  obtain ⟨earlier, later, rfl, _, _⟩ := hnewest
  simp

theorem timestamp_le (hnewest : cell.IsNewest history) (hother : other ∈ history) :
    other.timestamp ≤ cell.timestamp := by
  obtain ⟨earlier, later, rfl, hearlier, hlater⟩ := hnewest
  rcases List.mem_append.mp hother with hother | hother
  · exact hearlier other hother
  · rcases List.mem_cons.mp hother with rfl | hother
    · exact Int64.le_refl _
    · exact Int64.le_of_lt (hlater other hother)

theorem unique (hcell : cell.IsNewest history) (hother : other.IsNewest history) :
    cell = other := by
  obtain ⟨earlier, later, rfl, hearlier, hlater⟩ := hcell
  obtain ⟨earlier', later', heq, hearlier', hlater'⟩ := hother
  -- If one of them stood before the other, it would be both older and at least as
  -- new.
  rcases List.append_eq_append_iff.mp heq with ⟨between, hbefore, hrest⟩ | ⟨between, hbefore, hrest⟩
  · cases between with
    | nil => exact (List.cons.inj hrest).1
    | cons first between =>
        obtain ⟨rfl, rfl⟩ := List.cons.inj hrest
        have hle := hearlier' cell (by simp [hbefore])
        exact absurd (hlater other (by simp)) (Int64.not_lt.mpr hle)
  · cases between with
    | nil => exact (List.cons.inj hrest).1.symm
    | cons first between =>
        obtain ⟨rfl, rfl⟩ := List.cons.inj hrest
        have hle := hearlier other (by simp [hbefore])
        exact absurd (hlater' cell (by simp)) (Int64.not_lt.mpr hle)

/-- Cells that were seen first count as the newest of them. -/
theorem append {rest : List Cell} (hnewest : newest.IsNewest history)
    (hcell : cell.IsNewest (newest :: rest)) : cell.IsNewest (history ++ rest) := by
  obtain ⟨earlier, later, heq, hearlier, hlater⟩ := hcell
  cases earlier with
  | nil =>
      obtain ⟨rfl, rfl⟩ := List.cons.inj heq
      obtain ⟨before, behind, rfl, hbefore, hbehind⟩ := hnewest
      refine ⟨before, behind ++ rest, by simp, hbefore, ?_⟩
      intro other hother
      exact (List.mem_append.mp hother).elim (hbehind other) (hlater other)
  | cons first earlier =>
      obtain ⟨rfl, rfl⟩ := List.cons.inj heq
      refine ⟨history ++ earlier, later, by simp, ?_, hlater⟩
      intro other hother
      rcases List.mem_append.mp hother with hother | hother
      · exact Int64.le_trans (hnewest.timestamp_le hother) (hearlier newest List.mem_cons_self)
      · exact hearlier other (List.mem_cons_of_mem _ hother)

/-- The newest stays so when it is there from the start. -/
theorem again {rest : List Cell} (hcell : cell.IsNewest (history ++ rest)) :
    cell.IsNewest (cell :: rest) := by
  obtain ⟨earlier, later, heq, hearlier, hlater⟩ := hcell
  rcases List.append_eq_append_iff.mp heq with ⟨between, hbefore, hrest⟩ | ⟨between, hbefore, hrest⟩
  · refine ⟨cell :: between, later, by simp [hrest], ?_, hlater⟩
    intro other hother
    rcases List.mem_cons.mp hother with rfl | hother
    · exact Int64.le_refl _
    · exact hearlier other (by simp [hbefore, hother])
  · cases between with
    | nil => exact ⟨[cell], later, by simpa using hrest.symm, by simp, hlater⟩
    | cons first between =>
        obtain ⟨rfl, rfl⟩ := List.cons.inj hrest
        refine ⟨[], rest, rfl, by simp, ?_⟩
        intro other hother
        exact hlater other (List.mem_append_right _ hother)

/-- In whatever order cells come, the newest is the same where no two are equally
new. -/
theorem eq_of_perm {reordered : List Cell} (hcell : cell.IsNewest history)
    (hother : other.IsNewest reordered) (hperm : reordered.Perm history)
    (hapart : history.Pairwise fun a b => a.timestamp ≠ b.timestamp) : cell = other := by
  have hmem : other ∈ history := hperm.mem_iff.mp hother.mem
  have heq : cell.timestamp = other.timestamp :=
    Int64.le_antisymm (hother.timestamp_le (hperm.mem_iff.mpr hcell.mem)) (hcell.timestamp_le hmem)
  have hinjective : ∀ a ∈ history, ∀ b ∈ history, a.timestamp = b.timestamp → a = b :=
    List.Pairwise.forall_of_forall_of_flip (fun _ _ _ => rfl)
      (hapart.imp fun hne heq => absurd heq hne) (hapart.imp fun hne heq => absurd heq.symm hne)
  exact hinjective cell hcell.mem other hmem heq

end IsNewest

theorem isNewest_over (cell : Cell) (held : Option Cell) :
    (cell.over held).IsNewest (held.toList ++ [cell]) := by
  cases held with
  | none => exact .singleton cell
  | some existing =>
      rw [Cell.over]
      split
      next hle => exact ⟨[existing], [], rfl, by simpa using hle, by simp⟩
      next hlt => exact ⟨[], [cell], rfl, by simp, by simpa using Int64.not_le.mp hlt⟩

/-! ## Writing cells one after the other -/

/-- What a column holds after cells were written to it one after the other. -/
def writtenOver (held : Option Cell) (cells : List Cell) : Option Cell :=
  cells.foldl (fun held cell => some (cell.over held)) held

theorem isNewest_of_writtenOver {held : Option Cell} {cells : List Cell} {cell : Cell}
    (hcell : writtenOver held cells = some cell) : cell.IsNewest (held.toList ++ cells) := by
  induction cells generalizing held with
  | nil =>
      have hheld : held = some cell := hcell
      rw [hheld]
      exact .singleton cell
  | cons first rest ih =>
      have hrest := (isNewest_over first held).append (ih hcell)
      rwa [List.append_assoc] at hrest

theorem isSome_writtenOver {held : Option Cell} {cells : List Cell} :
    (writtenOver held cells).isSome ↔ held.toList ++ cells ≠ [] := by
  induction cells generalizing held with
  | nil => cases held <;> simp [writtenOver]
  | cons first rest ih =>
      have hrest : (writtenOver (some (first.over held)) rest).isSome ↔ _ := ih
      simpa [writtenOver] using hrest

theorem writtenOver_eq_some_iff {held : Option Cell} {cells : List Cell} {cell : Cell} :
    writtenOver held cells = some cell ↔ cell.IsNewest (held.toList ++ cells) := by
  refine ⟨isNewest_of_writtenOver, fun hnewest => ?_⟩
  have hsome : (writtenOver held cells).isSome :=
    isSome_writtenOver.mpr (List.ne_nil_of_mem hnewest.mem)
  obtain ⟨found, hfound⟩ := Option.isSome_iff_exists.mp hsome
  rw [hfound, (isNewest_of_writtenOver hfound).unique hnewest]

theorem writtenOver_again (held : Option Cell) (cells : List Cell) :
    writtenOver (writtenOver held cells) cells = writtenOver held cells := by
  cases hcell : writtenOver held cells with
  | some cell => exact writtenOver_eq_some_iff.mpr (isNewest_of_writtenOver hcell).again
  | none =>
      cases cells with
      | nil => rfl
      | cons first rest =>
          have hsome : (writtenOver held (first :: rest)).isSome := isSome_writtenOver.mpr (by simp)
          simp [hcell] at hsome

theorem writtenOver_of_perm {held : Option Cell} {cells reordered : List Cell}
    (hperm : reordered.Perm cells)
    (hapart : (held.toList ++ cells).Pairwise fun a b => a.timestamp ≠ b.timestamp) :
    writtenOver held reordered = writtenOver held cells := by
  have hhistory := hperm.append_left held.toList
  have hsome : (writtenOver held reordered).isSome = (writtenOver held cells).isSome := by
    rw [Bool.eq_iff_iff, isSome_writtenOver, isSome_writtenOver, ne_eq, ne_eq,
      ← List.perm_nil, ← List.perm_nil]
    exact not_congr ⟨hhistory.symm.trans, hhistory.trans⟩
  cases hcell : writtenOver held cells with
  | none => simpa [hcell] using hsome
  | some cell =>
      rw [hcell, Option.isSome_some] at hsome
      obtain ⟨other, hother⟩ := Option.isSome_iff_exists.mp hsome
      rw [hother, (isNewest_of_writtenOver hcell).eq_of_perm (isNewest_of_writtenOver hother)
        hhistory hapart]

end OperationChain.Cell
