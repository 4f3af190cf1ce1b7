import OperationChain.Proofs.Store.Tables

/-! # Cells in order

Sorting the rows of a relation gives the order in which nested maps list the same
cells, and grouping them by row key gives back the rows of the table.
-/

namespace OperationChain

/-! ## Sorting -/

/-- A sorted list is determined by its elements, where no two of them are equal in
the order. -/
theorem mergeSort_eq_of_mem_iff {α : Type} (order : α → α → Ordering) [Std.TransCmp order]
    {found sorted : List α} (hfound : found.Pairwise fun a b => order a b ≠ .eq)
    (hsorted : sorted.Pairwise fun a b => order a b = .lt) (hmem : ∀ a, a ∈ found ↔ a ∈ sorted) :
    found.mergeSort (fun a b => (order a b).isLE) = sorted := by
  have hself (a : α) : order a a = .eq := Std.ReflCmp.compare_self
  have hnodup : found.Nodup := by
    refine hfound.imp fun {a b} hab heq => hab ?_
    rw [heq, hself]
  have hnodup' : sorted.Nodup := by
    refine hsorted.imp fun {a b} hab heq => ?_
    rw [heq, hself] at hab
    cases hab
  have hantisymm : ∀ a b, a ∈ found → b ∈ sorted → (order a b).isLE → (order b a).isLE → a = b := by
    intro a b ha hb hab hba
    have heq : ∀ a ∈ found, ∀ b ∈ found, order a b = .eq → a = b :=
      List.Pairwise.forall_of_forall_of_flip (fun _ _ _ => rfl)
        (hfound.imp fun hne heq => absurd heq hne)
        (hfound.imp fun hne heq => absurd (Std.OrientedCmp.eq_symm heq) hne)
    cases horder : order a b with
    | eq => exact heq a ha b ((hmem b).mpr hb) horder
    | lt => exact absurd hba (Std.OrientedCmp.not_isLE_of_lt horder)
    | gt =>
        rw [horder] at hab
        cases hab
  -- Both lists hold the same elements, each once, so only their order is left.
  have hperm : (found.mergeSort fun a b => (order a b).isLE).Perm sorted :=
    (List.mergeSort_perm _ _).trans ((List.perm_ext_iff_of_nodup hnodup hnodup').mpr hmem)
  refine hperm.eq_of_pairwise ?_ (List.pairwise_mergeSort ?_ ?_ found)
    (hsorted.imp fun hlt => by rw [hlt]; rfl)
  · exact fun a b ha hb => hantisymm a b (List.mem_mergeSort.mp ha) hb
  · exact fun a b c => Std.TransCmp.isLE_trans
  · intro a b
    have hswap : order b a = (order a b).swap := Std.OrientedCmp.eq_swap
    rw [hswap]
    cases order a b <;> rfl

namespace NestedStore

/-! ## Cells of a table -/

/-- The rows of the relation of cells that hold the cells of a table. -/
def cellRows (target : TableName) (rows : Rows) : List CellRow :=
  rows.entries.flatMap fun (rowkey, columns) =>
    (cells columns).map fun cell => ⟨target, rowkey, cell⟩

theorem mem_cells {columns : Columns} {cell : Cell} :
    cell ∈ cells columns ↔ (columns.find? cell.name).map (toCell cell.name) = some cell := by
  rw [cells, List.mem_map, Option.map_eq_some_iff]
  constructor
  · rintro ⟨⟨name, stored⟩, hentry, rfl⟩
    exact ⟨stored, Map.mem_entries_iff.mp hentry, rfl⟩
  · rintro ⟨stored, hstored, hcell⟩
    exact ⟨(cell.name, stored), Map.mem_entries_iff.mpr hstored, hcell⟩

theorem pairwise_cells (columns : Columns) :
    (cells columns).Pairwise fun a b => compare a.name b.name = .lt :=
  List.pairwise_map.mpr columns.ascending

theorem mem_cellRows {target : TableName} {rows : Rows} {row : CellRow} :
    row ∈ cellRows target rows ↔
      row.target = target ∧ cellOf rows row.rowkey row.cell.name = some row.cell := by
  rw [cellRows, List.mem_flatMap, cellOf, columnsOf]
  constructor
  · rintro ⟨⟨rowkey, columns⟩, hentry, hrow⟩
    obtain ⟨cell, hcell, rfl⟩ := List.mem_map.mp hrow
    refine ⟨rfl, ?_⟩
    rw [Map.mem_entries_iff.mp hentry]
    exact mem_cells.mp hcell
  · rintro ⟨rfl, hcell⟩
    cases hcolumns : rows.find? row.rowkey with
    | none =>
        rw [hcolumns] at hcell
        cases hcell
    | some columns =>
        rw [hcolumns] at hcell
        exact ⟨(row.rowkey, columns), Map.mem_entries_iff.mpr hcolumns,
          List.mem_map.mpr ⟨row.cell, mem_cells.mpr hcell, rfl⟩⟩

/-- Rows of cells are ordered by row key, and by name within one row key. -/
def keyOrder : CellRow → CellRow → Ordering :=
  compareLex (compareOn CellRow.rowkey) (compareOn fun row => row.cell.name)

instance : Std.TransCmp keyOrder :=
  inferInstanceAs (Std.TransCmp (compareLex (compareOn CellRow.rowkey)
    (compareOn fun row => row.cell.name)))

theorem pairwise_cellRows (target : TableName) (rows : Rows) :
    (cellRows target rows).Pairwise fun a b => keyOrder a b = .lt := by
  rw [cellRows, List.pairwise_flatMap]
  refine ⟨fun entry _ => List.pairwise_map.mpr ?_, ?_⟩
  · refine (pairwise_cells entry.2).imp fun {a b} hlt => ?_
    change (compare entry.1 entry.1).then (compare a.name b.name) = .lt
    rw [Entries.compare_self, hlt]
    rfl
  · refine rows.ascending.imp fun {first later} hlt a ha b hb => ?_
    obtain ⟨cell, _, rfl⟩ := List.mem_map.mp ha
    obtain ⟨cell', _, rfl⟩ := List.mem_map.mp hb
    change (compare first.1 later.1).then (compare cell.name cell'.name) = .lt
    rw [hlt]
    rfl

/-! ## Groups of rows -/

section Groups

open TableStore

variable {target : TableName} {rowkey : Bytes}

/-- The cells of one row are a group of their own where no other group follows under
its key. -/
theorem groups_append {cells : List Cell} {rest : List CellRow}
    (hfresh : ∀ group ∈ groups rest, group.1 ≠ rowkey) :
    groups ((cells.map fun cell => ⟨target, rowkey, cell⟩) ++ rest) =
      if cells.isEmpty then groups rest else (rowkey, cells) :: groups rest := by
  induction cells with
  | nil => rfl
  | cons cell more ih =>
      rw [List.map_cons, List.cons_append, groups, List.foldr_cons, ← groups, ih]
      cases more with
      | cons next later => exact if_pos rfl
      | nil =>
          -- The last cell of a row meets the next group, which is under another
          -- key.
          cases hgroups : groups rest with
          | nil => rfl
          | cons group others =>
              rw [hgroups] at hfresh
              exact if_neg (hfresh group List.mem_cons_self).symm

/-- Grouping the live cells of a table gives its rows with their live cells. -/
theorem groups_cellRows (target : TableName) (rows : Rows) (now : Timestamp) :
    groups ((cellRows target rows).filter fun row => row.cell.isLive now) = liveRows rows now := by
  obtain ⟨entries, hascending⟩ := rows
  unfold cellRows liveRows
  dsimp only
  induction entries with
  | nil => rfl
  | cons entry rest ih =>
      obtain ⟨hhead, hrest⟩ := List.pairwise_cons.mp hascending
      have hfresh : ∀ group ∈ (rest.map fun (rowkey, columns) =>
          (rowkey, liveCells columns now)).filter fun row => !row.2.isEmpty, group.1 ≠ entry.1 := by
        intro group hgroup heq
        obtain ⟨later, hlater, rfl⟩ := List.mem_map.mp (List.mem_filter.mp hgroup).1
        exact Entries.ne_of_lt (hhead later hlater) heq.symm
      rw [List.flatMap_cons, List.filter_append, List.filter_map, groups_append, ih hrest,
        List.map_cons, List.filter_cons]
      · change (if (liveCells entry.2 now).isEmpty then _
          else (entry.1, liveCells entry.2 now) :: _) = _
        cases liveCells entry.2 now <;> rfl
      · rw [ih hrest]
        exact hfresh

end Groups

end NestedStore

end OperationChain
