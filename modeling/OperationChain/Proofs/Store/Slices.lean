import OperationChain.Proofs.Store.LastWrite

/-! # Slices of a row

Every slice of a row is a part of one list: the live columns of the row in the order of their
names. A slice takes those of them whose names lie in its range, and cuts them to its limit.
-/

namespace OperationChain

theorem SliceRange.contains_of_ne {start finish : Bytes} (hstart : start ≠ [])
    (hfinish : finish ≠ []) (limit : Nat) (name : Bytes) :
    SliceRange.contains ⟨start, finish, limit⟩ name =
      ((compare start name).isLE && (compare name finish).isLE) := by
  rw [contains, List.isEmpty_eq_false_iff.mpr hstart, List.isEmpty_eq_false_iff.mpr hfinish,
    Bool.false_or, Bool.false_or]

namespace TableStore

variable {store : TableStore} {target : TableName} {rowkey : Bytes} {cell : Cell}

/-- The cells of a row, in no order. -/
def rowCells (store : TableStore) (target : TableName) (rowkey : Bytes) : List Cell :=
  (store.cells.filter fun row => row.target == target && row.rowkey == rowkey).map (·.cell)

theorem mem_rowCells :
    cell ∈ store.rowCells target rowkey ↔ ⟨target, rowkey, cell⟩ ∈ store.cells := by
  rw [rowCells, List.mem_map]
  constructor
  · rintro ⟨row, hrow, rfl⟩
    obtain ⟨hmem, hkey⟩ := List.mem_filter.mp hrow
    rw [Bool.and_eq_true, beq_iff_eq, beq_iff_eq] at hkey
    obtain ⟨rfl, rfl⟩ := hkey
    exact hmem
  · intro hmem
    exact ⟨_, List.mem_filter.mpr ⟨hmem, by simp⟩, rfl⟩

/-- Within a row no name occurs twice. -/
theorem Keyed.rowCells (hkeyed : Keyed store.cells) (target : TableName) (rowkey : Bytes) :
    (store.rowCells target rowkey).Pairwise fun a b => compareOn Cell.name a b ≠ .eq := by
  refine List.pairwise_map.mpr ((hkeyed.filter _).imp_of_mem ?_)
  intro a b ha hb hother heq
  have ha := (List.mem_filter.mp ha).2
  have hb := (List.mem_filter.mp hb).2
  rw [Bool.and_eq_true, beq_iff_eq, beq_iff_eq] at ha hb
  refine hother (sameKey_iff.mpr ⟨?_, ?_, Std.LawfulEqCmp.eq_of_compare heq⟩)
  · rw [ha.1, hb.1]
  · rw [ha.2, hb.2]

/-- Cells with different names ascend strictly once they are sorted. -/
theorem pairwise_sortByName {cells : List Cell}
    (hcells : cells.Pairwise fun a b => compareOn Cell.name a b ≠ .eq) :
    (sortByName cells).Pairwise fun a b => compareOn Cell.name a b = .lt := by
  have hsorted : (sortByName cells).Pairwise fun a b => (compareOn Cell.name a b).isLE := by
    refine List.pairwise_mergeSort ?_ ?_ cells
    · exact fun a b c => Std.TransCmp.isLE_trans
    · intro a b
      have hswap : compareOn Cell.name b a = (compareOn Cell.name a b).swap :=
        Std.OrientedCmp.eq_swap
      rw [hswap]
      cases compareOn Cell.name a b <;> rfl
  have hnames : (sortByName cells).Pairwise fun a b => compareOn Cell.name a b ≠ .eq := by
    refine ((List.mergeSort_perm cells _).pairwise_iff ?_).mpr hcells
    exact fun hne heq => hne (Std.OrientedCmp.eq_symm heq)
  refine hsorted.imp₂ (fun a b hle hne => ?_) hnames
  exact (Ordering.isLE_iff_eq_lt_or_eq_eq.mp hle).resolve_right hne

/-- It makes no difference whether cells with different names are chosen before or after they
are sorted. -/
theorem sortByName_filter {cells : List Cell}
    (hcells : cells.Pairwise fun a b => compareOn Cell.name a b ≠ .eq) (keep : Cell → Bool) :
    sortByName (cells.filter keep) = (sortByName cells).filter keep := by
  refine mergeSort_eq_of_mem_iff (compareOn Cell.name) (hcells.filter keep)
    ((pairwise_sortByName hcells).filter keep) fun cell => ?_
  rw [List.mem_filter, List.mem_filter, sortByName, List.mem_mergeSort]

end TableStore

namespace Storage

variable {storage : Storage} {target : TableName} {rowkey : Bytes} {now : Timestamp} {cell : Cell}

theorem readSlice_eq (storage : Storage) (now : Timestamp) (target : TableName) (rowkey : Bytes)
    (range : SliceRange) (level : Consistency) :
    Store.readSlice storage now target rowkey range level =
      storage.contents.readSlice now target rowkey range level := by
  cases storage with
  | nested store => exact store.mirrors_contents.readSlice_eq now target rowkey range level
  | tables store => rfl

/-- The live columns of a row, in the order of their names. -/
def liveRow (storage : Storage) (target : TableName) (rowkey : Bytes) (now : Timestamp) :
    List Cell :=
  (TableStore.sortByName (storage.contents.rowCells target rowkey)).filter fun cell =>
    cell.isLive now

theorem mem_liveRow_iff_mem :
    cell ∈ storage.liveRow target rowkey now ↔
      ⟨target, rowkey, cell⟩ ∈ storage.contents.cells ∧ cell.isLive now = true := by
  rw [liveRow, List.mem_filter, TableStore.sortByName, List.mem_mergeSort, TableStore.mem_rowCells]

theorem length_liveRow_le (storage : Storage) (target : TableName) (rowkey : Bytes)
    (now : Timestamp) :
    (storage.liveRow target rowkey now).length ≤ storage.contents.cells.length := by
  refine Nat.le_trans (List.length_filter_le _ _) ?_
  rw [TableStore.sortByName, List.length_mergeSort, TableStore.rowCells, List.length_map]
  exact List.length_filter_le _ _

section Keyed

variable (hkeyed : TableStore.Keyed storage.contents.cells)
include hkeyed

theorem mem_liveRow :
    cell ∈ storage.liveRow target rowkey now ↔
      storage.cell? target rowkey cell.name = some cell ∧ cell.isLive now = true := by
  rw [mem_liveRow_iff_mem, TableStore.mem_iff_cellIn hkeyed, cell?, TableStore.find?_eq]

theorem pairwise_liveRow (target : TableName) (rowkey : Bytes) (now : Timestamp) :
    (storage.liveRow target rowkey now).Pairwise fun a b => compare a.name b.name = .lt :=
  (TableStore.pairwise_sortByName (hkeyed.rowCells target rowkey)).filter _

/-- A slice takes the live columns in its range, in their order and up to its limit. -/
theorem readSlice_of_keyed (now : Timestamp) (target : TableName) (rowkey : Bytes)
    (range : SliceRange) (level : Consistency) :
    Store.readSlice storage now target rowkey range level =
      (storage.contents.check target level true).map fun _ =>
        ((storage.liveRow target rowkey now).filter fun cell =>
          range.contains cell.name).take range.limit := by
  have hfound : (storage.contents.cells.filter fun row =>
        row.target == target && row.rowkey == rowkey && range.contains row.cell.name).map (·.cell) =
      (storage.contents.rowCells target rowkey).filter fun cell => range.contains cell.name := by
    rw [TableStore.rowCells, List.filter_map, List.filter_filter]
    simp only [Function.comp_apply, Bool.and_comm]
  rw [readSlice_eq, TableStore.readSlice]
  cases storage.contents.check target level true with
  | error error => rfl
  | ok _ =>
      -- The store chooses among the cells of the row before it sorts them.
      refine congrArg (fun cells => Except.ok (List.take range.limit cells)) ?_
      rw [hfound, TableStore.sortByName_filter (hkeyed.rowCells target rowkey), liveRow,
        List.filter_filter, List.filter_filter]
      simp only [Bool.and_comm]

end Keyed

end Storage

end OperationChain
