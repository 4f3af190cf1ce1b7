import OperationChain.Proofs.Store.Agreement
import OperationChain.Store.Storage

/-! # What a store holds

The contents of a store of either form as flat tables, from which every reply can be
read off. An update that fails leaves the contents as they were, whatever it did
before it failed.
-/

namespace OperationChain

/-! ## Contents of nested maps -/

namespace NestedStore

/-- Everything that the maps hold. A row without columns holds nothing. -/
def contents (store : NestedStore) : TableStore where
  nodes := store.nodes
  keyspaces := store.keyspaces.entries.map fun (name, keyspace) => ⟨name, keyspace.replication⟩
  tables := store.keyspaces.entries.flatMap fun (name, keyspace) =>
    keyspace.tables.entries.map fun (table, _) => ⟨name, table⟩
  cells := store.keyspaces.entries.flatMap fun (name, keyspace) =>
    keyspace.tables.entries.flatMap fun (table, rows) => cellRows ⟨name, table⟩ rows

variable {store : NestedStore} {target : TableName} {rowkey : Bytes}

theorem mem_contents_tables : target ∈ store.contents.tables ↔ (store.rows? target).isSome := by
  rw [contents, List.mem_flatMap, rows?, Option.isSome_iff_exists]
  constructor
  · rintro ⟨⟨name, keyspace⟩, hkeyspace, htable⟩
    obtain ⟨⟨table, rows⟩, hrows, rfl⟩ := List.mem_map.mp htable
    refine ⟨rows, ?_⟩
    rw [Map.mem_entries_iff.mp hkeyspace]
    exact Map.mem_entries_iff.mp hrows
  · rintro ⟨rows, hrows⟩
    obtain ⟨keyspace, hkeyspace, htable⟩ := Option.bind_eq_some_iff.mp hrows
    exact ⟨(target.keyspace, keyspace), Map.mem_entries_iff.mpr hkeyspace,
      List.mem_map.mpr ⟨(target.table, rows), Map.mem_entries_iff.mpr htable, rfl⟩⟩

theorem mem_contents_cells {row : CellRow} :
    row ∈ store.contents.cells ↔
      store.cell? row.target row.rowkey row.cell.name = some row.cell := by
  rw [contents, List.mem_flatMap]
  constructor
  · rintro ⟨⟨name, keyspace⟩, hkeyspace, hrow⟩
    obtain ⟨⟨table, rows⟩, hrows, hrow⟩ := List.mem_flatMap.mp hrow
    obtain ⟨htarget, hcell⟩ := mem_cellRows.mp hrow
    have hfound : store.rows? row.target = some rows := by
      rw [rows?, htarget, Map.mem_entries_iff.mp hkeyspace]
      exact Map.mem_entries_iff.mp hrows
    rw [cell?, hfound]
    exact hcell
  · intro hcell
    cases hrows : store.rows? row.target with
    | none =>
        rw [cell?, hrows] at hcell
        cases hcell
    | some rows =>
        rw [cell?, hrows] at hcell
        obtain ⟨keyspace, hkeyspace, htable⟩ := Option.bind_eq_some_iff.mp hrows
        exact ⟨(row.target.keyspace, keyspace), Map.mem_entries_iff.mpr hkeyspace,
          List.mem_flatMap.mpr ⟨(row.target.table, rows), Map.mem_entries_iff.mpr htable,
            mem_cellRows.mpr ⟨rfl, hcell⟩⟩⟩

theorem keyspace_of_mem {name : String} {keyspace : Keyspace} {row : CellRow}
    (hrow : row ∈ keyspace.tables.entries.flatMap
      fun (table, rows) => cellRows ⟨name, table⟩ rows) :
    row.target.keyspace = name := by
  obtain ⟨⟨table, rows⟩, _, hrow⟩ := List.mem_flatMap.mp hrow
  rw [(mem_cellRows.mp hrow).1]

theorem not_sameKey_of_keyOrder {a b : CellRow} (hlt : keyOrder a b = .lt) :
    ¬ TableStore.CellRow.sameKey a b := by
  intro hsame
  obtain ⟨_, hrowkey, hname⟩ := TableStore.sameKey_iff.mp hsame
  change (compare a.rowkey b.rowkey).then (compare a.cell.name b.cell.name) = .lt at hlt
  rw [hrowkey, hname, Entries.compare_self, Entries.compare_self] at hlt
  cases hlt

theorem keyed_contents (store : NestedStore) : TableStore.Keyed store.contents.cells := by
  refine List.pairwise_flatMap.mpr
    ⟨fun entry _ => List.pairwise_flatMap.mpr ⟨fun table _ => ?_, ?_⟩, ?_⟩
  · exact (pairwise_cellRows _ _).imp not_sameKey_of_keyOrder
  · refine entry.2.tables.ascending.imp fun {first later} hlt a ha b hb hsame => ?_
    have htarget := (TableStore.sameKey_iff.mp hsame).1
    rw [(mem_cellRows.mp ha).1, (mem_cellRows.mp hb).1] at htarget
    exact Entries.ne_of_lt hlt (congrArg TableName.table htarget)
  · refine store.keyspaces.ascending.imp fun {first later} hlt a ha b hb hsame => ?_
    have htarget := congrArg TableName.keyspace (TableStore.sameKey_iff.mp hsame).1
    rw [keyspace_of_mem ha, keyspace_of_mem hb] at htarget
    exact Entries.ne_of_lt hlt htarget

theorem nodup_contents_tables (store : NestedStore) : store.contents.tables.Nodup := by
  refine List.pairwise_flatMap.mpr ⟨fun entry _ => List.pairwise_map.mpr ?_, ?_⟩
  · refine entry.2.tables.ascending.imp fun hlt heq => ?_
    exact Entries.ne_of_lt hlt (congrArg TableName.table heq)
  · refine store.keyspaces.ascending.imp fun {first later} hlt a ha b hb heq => ?_
    obtain ⟨_, _, rfl⟩ := List.mem_map.mp ha
    obtain ⟨_, _, rfl⟩ := List.mem_map.mp hb
    exact Entries.ne_of_lt hlt (congrArg TableName.keyspace heq)

/-- The contents answer everything that the maps answer. -/
theorem mirrors_contents (store : NestedStore) : Mirrors store store.contents where
  nodes := rfl
  replication name := by
    rw [replication?, contents, Map.find?]
    generalize store.keyspaces.entries = entries
    induction entries with
    | nil => rfl
    | cons entry rest ih =>
        by_cases hname : entry.1 = name
        · simp [Entries.find?, hname]
        · have hcompare := Entries.compare_ne_eq (Ne.symm hname)
          simpa [Entries.find?, hname, hcompare] using ih
  named := List.pairwise_map.mpr (store.keyspaces.ascending.imp Entries.ne_of_lt)
  known target := mem_contents_tables
  distinct := nodup_contents_tables store
  cells target rowkey name := by
    refine Option.ext fun cell => ?_
    have hmaps : CellRow.mk target rowkey cell ∈ store.contents.cells ↔
      store.cell? target rowkey cell.name = some cell := mem_contents_cells
    have htables : CellRow.mk target rowkey cell ∈ store.contents.cells ↔
      TableStore.cellIn store.contents.cells target rowkey cell.name = some cell :=
      TableStore.mem_iff_cellIn (keyed_contents store)
    constructor
    · intro hcell
      obtain rfl := TableStore.cellIn_name hcell
      exact hmaps.mp (htables.mpr hcell)
    · intro hcell
      obtain rfl := cellOf_name hcell
      exact htables.mp (hmaps.mpr hcell)
  keyed := keyed_contents store

section SetRows

variable {rows after : Rows}

/-- Rows say nothing about keyspaces and tables. -/
theorem contents_setRows (hrows : store.rows? target = some rows) :
    (store.setRows target after).contents =
      { store.contents with cells := (store.setRows target after).contents.cells } := by
  obtain ⟨keyspace, hkeyspace, htable⟩ := Option.bind_eq_some_iff.mp hrows
  -- Both relations are walks over the entries, and neither of them notices.
  have hkeyspaces : (store.setRows target after).contents.keyspaces = store.contents.keyspaces := by
    simp only [setRows, hkeyspace, contents, List.map_eq_flatMap]
    refine Map.flatMap_entries_insert _ ?_
    rw [hkeyspace]
    rfl
  have htables : (store.setRows target after).contents.tables = store.contents.tables := by
    simp only [setRows, hkeyspace, contents, List.map_eq_flatMap]
    refine Map.flatMap_entries_insert _ ?_
    rw [hkeyspace]
    refine Map.flatMap_entries_insert _ ?_
    rw [htable]
    rfl
  exact TableStore.ext nodes_setRows hkeyspaces htables rfl

/-- A table with other rows that hold the same cells. -/
theorem contents_setRows_of_same (hrows : store.rows? target = some rows)
    (hsame : cellRows target after = cellRows target rows) :
    (store.setRows target after).contents = store.contents := by
  obtain ⟨keyspace, hkeyspace, htable⟩ := Option.bind_eq_some_iff.mp hrows
  have hcells : (store.setRows target after).contents.cells = store.contents.cells := by
    simp only [setRows, hkeyspace, contents]
    refine Map.flatMap_entries_insert _ ?_
    rw [hkeyspace]
    refine Map.flatMap_entries_insert _ ?_
    rw [htable]
    exact hsame
  rw [contents_setRows hrows, hcells]

end SetRows

/-- A row that is there only by now holds nothing. -/
theorem contents_updateRow_id (hrows : (store.rows? target).isSome) :
    (store.updateRow target rowkey id).contents = store.contents := by
  obtain ⟨rows, hrows⟩ := Option.isSome_iff_exists.mp hrows
  rw [updateRow, hrows, Option.getD_some]
  refine contents_setRows_of_same hrows (Map.flatMap_entries_insert _ ?_)
  rw [id, columnsOf]
  cases rows.find? rowkey <;> rfl

end NestedStore

/-! ## Updates that fail -/

/-- The update succeeds or leaves the contents as they were. -/
def Update.Atomic {σ : Type} (contents : σ → TableStore) (update : Update σ Unit) : Prop :=
  ∀ store, (update.exec store).1 = .ok () ∨ contents (update.exec store).2 = contents store

namespace NestedStore

theorem atomic_batchWrite (mutations : List Mutation) (level : Consistency) :
    (batchWrite mutations level).Atomic contents := by
  intro store
  rw [exec_batchWrite]
  cases store.checkAll level mutations with
  | error error => exact .inr rfl
  | ok _ => exact .inl rfl

/-- A counter that fails has added its row at most, which holds nothing. -/
theorem atomic_increment (now : Timestamp) (target : TableName) (rowkey name : Bytes)
    (delta : Int64) (level : Consistency) :
    (increment now target rowkey name delta level).Atomic contents := by
  intro store
  rw [exec_increment]
  cases hcheck : store.checkWrite target level with
  | error error => exact .inr rfl
  | ok _ =>
      dsimp only
      cases addToCounter name (store.counter? now target rowkey name) delta with
      | error error => exact .inr (contents_updateRow_id (rows_of_checkWrite hcheck))
      | ok value => exact .inl rfl

theorem atomic_createKeyspace (name : String) (replication : UInt32) :
    (createKeyspace name replication).Atomic contents := by
  intro store
  rw [exec_createKeyspace]
  split
  · exact .inr rfl
  · split
    · exact .inr rfl
    · exact .inl rfl

theorem atomic_createTable (target : TableName) : (createTable target).Atomic contents := by
  intro store
  rw [exec_createTable]
  split
  · split
    · exact .inr rfl
    · exact .inl rfl
  · exact .inr rfl

end NestedStore

namespace TableStore

theorem atomic_transaction (update : Update TableStore Unit) : (transaction update).Atomic id := by
  intro store
  rw [exec_transaction]
  split
  · exact .inl rfl
  · exact .inr rfl

theorem atomic_createKeyspace (name : String) (replication : UInt32) :
    (createKeyspace name replication).Atomic id := by
  intro store
  rw [exec_createKeyspace]
  split
  · exact .inr rfl
  · split
    · exact .inr rfl
    · exact .inl rfl

theorem atomic_createTable (target : TableName) : (createTable target).Atomic id := by
  intro store
  rw [exec_createTable]
  split
  · split
    · exact .inr rfl
    · exact .inl rfl
  · exact .inr rfl

end TableStore

namespace Storage

/-- Everything that a store of either form holds. -/
def contents : Storage → TableStore
  | nested store => store.contents
  | tables store => store

section Update

variable (update : {σ : Type} → [Store σ] → Update σ Unit)

theorem exec_update_nested (store : NestedStore) :
    (Storage.update update).exec (nested store) =
      ((update.exec store).1, nested (update.exec store).2) := by
  rw [Storage.update, Program.exec_bind_ok (Program.exec_get _)]
  dsimp only
  rw [Program.exec_bind_ok (Program.exec_set _ _), Update.exec_lift]

theorem exec_update_tables (store : TableStore) :
    (Storage.update update).exec (tables store) =
      ((update.exec store).1, tables (update.exec store).2) := by
  rw [Storage.update, Program.exec_bind_ok (Program.exec_get _)]
  dsimp only
  rw [Program.exec_bind_ok (Program.exec_set _ _), Update.exec_lift]

variable {update}

/-- An update is atomic on a store of either form if it is so on both. -/
theorem atomic_update (hnested : Update.Atomic NestedStore.contents update)
    (htables : Update.Atomic id (update : Update TableStore Unit)) :
    (Storage.update update).Atomic contents := by
  intro storage
  cases storage with
  | nested store =>
      rw [exec_update_nested]
      exact hnested store
  | tables store =>
      rw [exec_update_tables]
      exact htables store

end Update

theorem atomic_batchWrite (mutations : List Mutation) (level : Consistency) :
    (Store.batchWrite mutations level : Update Storage Unit).Atomic contents :=
  atomic_update (NestedStore.atomic_batchWrite mutations level) (TableStore.atomic_transaction _)

theorem atomic_increment (now : Timestamp) (target : TableName) (rowkey name : Bytes)
    (delta : Int64) (level : Consistency) :
    (Store.increment now target rowkey name delta level : Update Storage Unit).Atomic contents :=
  atomic_update (NestedStore.atomic_increment now target rowkey name delta level)
    (TableStore.atomic_transaction _)

theorem atomic_createKeyspace (name : String) (replication : UInt32) :
    (Store.createKeyspace name replication : Update Storage Unit).Atomic contents :=
  atomic_update (NestedStore.atomic_createKeyspace name replication)
    (TableStore.atomic_createKeyspace name replication)

theorem atomic_createTable (target : TableName) :
    (Store.createTable target : Update Storage Unit).Atomic contents :=
  atomic_update (NestedStore.atomic_createTable target) (TableStore.atomic_createTable target)

end Storage

end OperationChain
