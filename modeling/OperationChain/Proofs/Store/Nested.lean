import OperationChain.Proofs.Except
import OperationChain.Proofs.Ordered.Map
import OperationChain.Proofs.Program
import OperationChain.Store.Nested

/-! # What updates do to nested maps

A store of nested maps seen through three questions: which replication a keyspace
has, which rows a table has, and which cell a column holds. Every update is
described by what it changes of the answers.
-/

namespace OperationChain

/-- What a column holds after the write of a cell: that cell, unless it held a newer
one. -/
def Cell.over (cell : Cell) : Option Cell → Cell
  | none => cell
  | some existing => if existing.timestamp ≤ cell.timestamp then cell else existing

namespace NestedStore

/-! ## Three questions -/

/-- The replication of a keyspace. -/
def replication? (store : NestedStore) (name : String) : Option UInt32 :=
  (store.keyspaces.find? name).map (·.replication)

/-- The rows of a table. -/
def rows? (store : NestedStore) (target : TableName) : Option Rows :=
  (store.keyspaces.find? target.keyspace).bind fun keyspace => keyspace.tables.find? target.table

/-- The cell of a column of a row. -/
def cellOf (rows : Rows) (rowkey name : Bytes) : Option Cell :=
  ((columnsOf rows rowkey).find? name).map (toCell name)

/-- The cell of a column. -/
def cell? (store : NestedStore) (target : TableName) (rowkey name : Bytes) : Option Cell :=
  cellOf ((store.rows? target).getD ∅) rowkey name

variable {store : NestedStore} {target other : TableName} {rowkey name : Bytes}

theorem table_eq (store : NestedStore) (target : TableName) :
    store.table target =
      match store.replication? target.keyspace with
      | some replication =>
        match store.rows? target with
        | some rows => .ok (rows, replication)
        | none => .error (.store (.unknownTable target.keyspace target.table))
      | none => .error (.store (.unknownKeyspace target.keyspace)) := by
  unfold table keyspace replication? rows?
  cases store.keyspaces.find? target.keyspace with
  | none => rfl
  | some keyspace => rfl

theorem table_eq_ok_iff {rows : Rows} {replication : UInt32} :
    store.table target = .ok (rows, replication) ↔
      store.replication? target.keyspace = some replication ∧ store.rows? target = some rows := by
  rw [table_eq]
  cases store.replication? target.keyspace <;> cases store.rows? target <;> simp [and_comm]

theorem exists_replication (hrows : (store.rows? target).isSome) :
    ∃ replication, store.replication? target.keyspace = some replication := by
  unfold rows? at hrows
  unfold replication?
  cases hkeyspace : store.keyspaces.find? target.keyspace with
  | none =>
      rw [hkeyspace] at hrows
      cases hrows
  | some keyspace => exact ⟨keyspace.replication, rfl⟩

theorem cellOf_name {rows : Rows} {cell : Cell} (hcell : cellOf rows rowkey name = some cell) :
    cell.name = name := by
  obtain ⟨stored, _, rfl⟩ := Option.map_eq_some_iff.mp hcell
  rfl

theorem toCell_ofCell (cell : Cell) : toCell cell.name (ofCell cell) = cell := rfl

theorem rows?_eq_none (hkeyspace : store.replication? target.keyspace = none) :
    store.rows? target = none := by
  rw [rows?, Option.map_eq_none_iff.mp hkeyspace, Option.bind_none]

/-! ## Other rows in a table -/

section SetRows

variable {rows : Rows}

theorem replication?_setRows (keyspace : String) :
    (store.setRows target rows).replication? keyspace = store.replication? keyspace := by
  unfold setRows
  split
  · rfl
  next found hfound =>
    unfold replication?
    dsimp only
    by_cases hname : keyspace = target.keyspace
    · rw [hname, Map.find?_insert_self, hfound]
      rfl
    · rw [Map.find?_insert_of_ne hname]

theorem rows?_setRows_self {replication : UInt32}
    (hkeyspace : store.replication? target.keyspace = some replication) :
    (store.setRows target rows).rows? target = some rows := by
  obtain ⟨found, hfound, _⟩ := Option.map_eq_some_iff.mp hkeyspace
  simp only [setRows, rows?, hfound, Map.find?_insert_self, Option.bind_some]

theorem rows?_setRows_of_ne (hne : other ≠ target) :
    (store.setRows target rows).rows? other = store.rows? other := by
  unfold setRows
  split
  · rfl
  next found hfound =>
    unfold rows?
    dsimp only
    by_cases hkeyspace : other.keyspace = target.keyspace
    · have htable : other.table ≠ target.table := fun htable => hne (TableName.ext hkeyspace htable)
      rw [hkeyspace, Map.find?_insert_self, hfound, Option.bind_some, Option.bind_some,
        Map.find?_insert_of_ne htable]
    · rw [Map.find?_insert_of_ne hkeyspace]

theorem nodes_setRows : (store.setRows target rows).nodes = store.nodes := by
  unfold setRows
  split <;> rfl

end SetRows

/-! ## Other columns in a row -/

section UpdateRow

variable {change : Columns → Columns}

/-- The store with other columns in a row of a table that it has. -/
def updateRow (store : NestedStore) (target : TableName) (rowkey : Bytes)
    (change : Columns → Columns) : NestedStore :=
  let rows := (store.rows? target).getD ∅
  store.setRows target (rows.insert rowkey (change (columnsOf rows rowkey)))

theorem rows?_updateRow_self (hrows : (store.rows? target).isSome) :
    (store.updateRow target rowkey change).rows? target = some (((store.rows? target).getD ∅).insert
      rowkey (change (columnsOf ((store.rows? target).getD ∅) rowkey))) := by
  obtain ⟨replication, hreplication⟩ := exists_replication hrows
  exact rows?_setRows_self hreplication

theorem isSome_rows?_updateRow (hrows : (store.rows? target).isSome) :
    ((store.updateRow target rowkey change).rows? other).isSome = (store.rows? other).isSome := by
  by_cases hother : other = target
  · rw [hother, rows?_updateRow_self hrows, hrows, Option.isSome_some]
  · rw [updateRow, rows?_setRows_of_ne hother]

theorem cell?_updateRow_self (hrows : (store.rows? target).isSome) :
    (store.updateRow target rowkey change).cell? target rowkey name =
      ((change (columnsOf ((store.rows? target).getD ∅) rowkey)).find? name).map (toCell name) := by
  rw [cell?, rows?_updateRow_self hrows, Option.getD_some, cellOf]
  conv => lhs; rw [columnsOf, Map.find?_insert_self, Option.getD_some]

theorem cell?_updateRow_of_ne {key : Bytes} (hrows : (store.rows? target).isSome)
    (hne : ¬ (other = target ∧ key = rowkey)) :
    (store.updateRow target rowkey change).cell? other key name = store.cell? other key name := by
  unfold cell?
  by_cases hother : other = target
  · have hkey : key ≠ rowkey := fun hkey => hne ⟨hother, hkey⟩
    rw [hother, rows?_updateRow_self hrows, Option.getD_some, cellOf, columnsOf,
      Map.find?_insert_of_ne hkey]
    rfl
  · rw [updateRow, rows?_setRows_of_ne hother]

/-- A row whose columns stay the same, if only by now it is there. -/
theorem cell?_updateRow_id {key : Bytes} (hrows : (store.rows? target).isSome) :
    (store.updateRow target rowkey id).cell? other key name = store.cell? other key name := by
  by_cases hsame : other = target ∧ key = rowkey
  · obtain ⟨rfl, rfl⟩ := hsame
    rw [cell?_updateRow_self hrows]
    rfl
  · exact cell?_updateRow_of_ne hrows hsame

/-- A change of a row of a table that is there. -/
theorem exec_changeRow (hrows : (store.rows? target).isSome) :
    (changeRow target rowkey change).exec store =
      (.ok (), store.updateRow target rowkey change) := by
  obtain ⟨replication, hreplication⟩ := exists_replication hrows
  obtain ⟨rows, hrows⟩ := Option.isSome_iff_exists.mp hrows
  rw [changeRow, Program.exec_bind_ok (Program.exec_get store),
    table_eq_ok_iff.mpr ⟨hreplication, hrows⟩, Program.exec_bind_ok (Update.exec_lift _ store),
    updateRow, hrows]
  exact Program.exec_set _ store

end UpdateRow

/-! ## Batches -/

/-- The store after a write to a table that it has. -/
def applied (store : NestedStore) (mutation : Mutation) : NestedStore :=
  store.updateRow mutation.target mutation.rowkey fun columns => applyCell columns mutation.cell

section ApplyCell

variable {columns : Columns} {cell : Cell}

theorem find?_applyCell_self :
    ((applyCell columns cell).find? cell.name).map (toCell cell.name) =
      some (cell.over ((columns.find? cell.name).map (toCell cell.name))) := by
  unfold applyCell
  split
  next existing hexisting =>
    rw [hexisting, Option.map_some]
    change _ = some (if existing.timestamp ≤ cell.timestamp then cell
      else toCell cell.name existing)
    split
    · rw [Map.find?_insert_self, Option.map_some, toCell_ofCell]
    · rw [hexisting, Option.map_some]
  next hnone =>
    rw [Map.find?_insert_self, hnone, Option.map_some, toCell_ofCell]
    rfl

theorem find?_applyCell_of_ne (hne : name ≠ cell.name) :
    (applyCell columns cell).find? name = columns.find? name := by
  unfold applyCell
  split
  · split
    · exact Map.find?_insert_of_ne hne
    · rfl
  · exact Map.find?_insert_of_ne hne

end ApplyCell

/-- A write leaves its column with the newer of the two cells. -/
theorem cell?_applied_self {mutation : Mutation} (hrows : (store.rows? mutation.target).isSome) :
    (store.applied mutation).cell? mutation.target mutation.rowkey mutation.cell.name =
      some (mutation.cell.over
        (store.cell? mutation.target mutation.rowkey mutation.cell.name)) := by
  rw [applied, cell?_updateRow_self hrows, find?_applyCell_self]
  rfl

theorem cell?_applied_of_ne {mutation : Mutation} (hrows : (store.rows? mutation.target).isSome)
    (hne : ¬ (mutation.target = target ∧ mutation.rowkey = rowkey ∧ mutation.cell.name = name)) :
    (store.applied mutation).cell? target rowkey name = store.cell? target rowkey name := by
  by_cases hrow : target = mutation.target ∧ rowkey = mutation.rowkey
  · obtain ⟨rfl, rfl⟩ := hrow
    have hname : name ≠ mutation.cell.name := fun hname => hne ⟨rfl, rfl, hname.symm⟩
    rw [applied, cell?_updateRow_self hrows, find?_applyCell_of_ne hname]
    rfl
  · exact cell?_updateRow_of_ne hrows hrow

theorem rows_of_checkWrite {level : Consistency} (hcheck : store.checkWrite target level = .ok ()) :
    (store.rows? target).isSome := by
  obtain ⟨⟨rows, replication⟩, htable, _⟩ := Except.bind_eq_ok_iff.mp hcheck
  exact Option.isSome_of_mem (table_eq_ok_iff.mp htable).2

theorem rows_of_checkAll {level : Consistency} {mutations : List Mutation}
    (hcheck : store.checkAll level mutations = .ok ()) :
    ∀ mutation ∈ mutations, (store.rows? mutation.target).isSome := by
  induction mutations with
  | nil => nofun
  | cons mutation rest ih =>
      obtain ⟨_, hfirst, hrest⟩ := Except.bind_eq_ok_iff.mp hcheck
      intro found hfound
      rcases List.mem_cons.mp hfound with rfl | hfound
      · exact rows_of_checkWrite hfirst
      · exact ih hrest found hfound

theorem exec_writeAll {mutations : List Mutation}
    (hrows : ∀ mutation ∈ mutations, (store.rows? mutation.target).isSome) :
    (writeAll mutations).exec store = (.ok (), mutations.foldl applied store) := by
  induction mutations generalizing store with
  | nil => rfl
  | cons mutation rest ih =>
      rw [writeAll, Program.exec_bind_ok (exec_changeRow (hrows mutation List.mem_cons_self))]
      refine ih fun later hlater => ?_
      rw [isSome_rows?_updateRow (hrows mutation List.mem_cons_self)]
      exact hrows later (List.mem_cons_of_mem _ hlater)

/-- A batch is written where all its targets are there and allowed, and else nothing
is. -/
theorem exec_batchWrite (store : NestedStore) (mutations : List Mutation) (level : Consistency) :
    (batchWrite mutations level).exec store =
      match store.checkAll level mutations with
      | .error error => (.error error, store)
      | .ok () => (.ok (), mutations.foldl applied store) := by
  rw [batchWrite, Program.exec_bind_ok (Program.exec_get store)]
  cases hcheck : store.checkAll level mutations with
  | error error => rw [Program.exec_bind_error (Update.exec_lift _ store)]
  | ok _ =>
      rw [Program.exec_bind_ok (Update.exec_lift _ store)]
      exact exec_writeAll (rows_of_checkAll hcheck)

/-! ## Counters -/

/-- The value that a column counts from. -/
def counter? (store : NestedStore) (now : Timestamp) (target : TableName) (rowkey name : Bytes) :
    Option Bytes :=
  ((store.cell? target rowkey name).filter fun cell => cell.isLive now).map (·.value)

/-- A counter leaves its row behind even where it fails. -/
theorem exec_increment (store : NestedStore) (now : Timestamp) (target : TableName)
    (rowkey name : Bytes) (delta : Int64) (level : Consistency) :
    (increment now target rowkey name delta level).exec store =
      match store.checkWrite target level with
      | .error error => (.error error, store)
      | .ok () =>
        match addToCounter name (store.counter? now target rowkey name) delta with
        | .error error => (.error error, store.updateRow target rowkey id)
        | .ok value => (.ok (), (store.updateRow target rowkey id).updateRow target rowkey
            fun columns => columns.insert name ⟨value, now, none⟩) := by
  rw [increment, Program.exec_bind_ok (Program.exec_get store)]
  cases hcheck : store.checkWrite target level with
  | error error => rw [Program.exec_bind_error (Update.exec_lift _ store)]
  | ok _ =>
      have hrows := rows_of_checkWrite hcheck
      -- The row is added before the counter is read, and the counter reads the same
      -- there.
      have htouched : ((store.updateRow target rowkey id).rows? target).isSome := by
        rw [isSome_rows?_updateRow hrows]
        exact hrows
      rw [Program.exec_bind_ok (Update.exec_lift _ store),
        Program.exec_bind_ok (exec_changeRow hrows), Program.exec_bind_ok (Program.exec_get _)]
      obtain ⟨rows, htouched⟩ := Option.isSome_iff_exists.mp htouched
      obtain ⟨replication, hreplication⟩ := exists_replication (Option.isSome_of_mem htouched)
      have hcell : ((columnsOf rows rowkey).find? name).map (toCell name) =
          store.cell? target rowkey name := by
        rw [← cell?_updateRow_id hrows, cell?, htouched]
        rfl
      rw [table_eq_ok_iff.mpr ⟨hreplication, htouched⟩, Program.exec_bind_ok (Update.exec_lift _ _)]
      dsimp only
      rw [hcell, ← counter?]
      cases hvalue : addToCounter name (store.counter? now target rowkey name) delta with
      | error error => rw [Program.exec_bind_error (Update.exec_lift _ _)]
      | ok value =>
          rw [Program.exec_bind_ok (Update.exec_lift _ _)]
          exact exec_changeRow (by rw [htouched]; rfl)

/-! ## Keyspaces and tables -/

/-- The store with a keyspace more. -/
def addKeyspace (store : NestedStore) (name : String) (replication : UInt32) : NestedStore :=
  { store with keyspaces := store.keyspaces.insert name { replication } }

theorem exec_createKeyspace (store : NestedStore) (name : String) (replication : UInt32) :
    (createKeyspace name replication).exec store =
      if replication = 0 then (.error (.store .noReplicas), store)
      else if (store.replication? name).isSome then (.error (.store (.keyspaceExists name)), store)
      else (.ok (), store.addKeyspace name replication) := by
  have hcontains : store.keyspaces.contains name = (store.replication? name).isSome := by
    rw [replication?, Option.isSome_map]
    rfl
  unfold createKeyspace
  by_cases hzero : replication = 0
  · rw [if_pos hzero, if_pos hzero]
    rfl
  · rw [if_neg hzero, if_neg hzero]
    dsimp only
    rw [Program.exec_bind_ok (Program.exec_get store), hcontains]
    split <;> rfl

theorem exec_createTable (store : NestedStore) (target : TableName) :
    (createTable target).exec store =
      if (store.replication? target.keyspace).isSome then
        if (store.rows? target).isSome then
          (.error (.store (.tableExists target.keyspace target.table)), store)
        else (.ok (), store.setRows target ∅)
      else (.error (.store (.unknownKeyspace target.keyspace)), store) := by
  rw [createTable, Program.exec_bind_ok (Program.exec_get store)]
  unfold keyspace replication? rows?
  cases hkeyspace : store.keyspaces.find? target.keyspace with
  | none => rfl
  | some keyspace =>
      rw [Program.exec_bind_ok (Update.exec_lift _ store), Option.map_some, Option.bind_some]
      dsimp only
      rw [Map.contains, Option.isSome_some, if_pos rfl]
      split <;> rfl

section AddKeyspace

variable {keyspace : String} {replication : UInt32}

theorem replication?_addKeyspace_self :
    (store.addKeyspace keyspace replication).replication? keyspace = some replication := by
  rw [replication?, addKeyspace, Map.find?_insert_self]
  rfl

theorem replication?_addKeyspace_of_ne {name : String} (hne : name ≠ keyspace) :
    (store.addKeyspace keyspace replication).replication? name = store.replication? name := by
  rw [replication?, addKeyspace, Map.find?_insert_of_ne hne]
  rfl

theorem rows?_addKeyspace (hnew : store.replication? keyspace = none) :
    (store.addKeyspace keyspace replication).rows? other = store.rows? other := by
  by_cases hkeyspace : other.keyspace = keyspace
  · have hbefore : store.rows? other = none := rows?_eq_none (by rw [hkeyspace, hnew])
    rw [hbefore, rows?, addKeyspace, hkeyspace, Map.find?_insert_self]
    rfl
  · rw [rows?, addKeyspace, Map.find?_insert_of_ne hkeyspace]
    rfl

end AddKeyspace

end NestedStore

end OperationChain
