import OperationChain.Proofs.Store.Nested
import OperationChain.Store.Tables

/-! # What updates do to flat tables

The relation of cells has one row for each column, and every write keeps it so. A
transaction that fails leaves the relations as they were, so a batch either passes
all its checks and writes everything, or writes nothing.
-/

namespace OperationChain.TableStore

/-! ## Rows of cells by key -/

variable {row found : CellRow} {rows : List CellRow} {target : TableName} {rowkey name : Bytes}

theorem sameKey_iff {a b : CellRow} :
    CellRow.sameKey a b ↔
      a.target = b.target ∧ a.rowkey = b.rowkey ∧ a.cell.name = b.cell.name := by
  simp [CellRow.sameKey, and_assoc]

theorem sameKey_trans {a b c : CellRow} (hab : CellRow.sameKey a b) (hbc : CellRow.sameKey b c) :
    CellRow.sameKey a c := by
  obtain ⟨htarget, hrowkey, hname⟩ := sameKey_iff.mp hab
  obtain ⟨htarget', hrowkey', hname'⟩ := sameKey_iff.mp hbc
  exact sameKey_iff.mpr ⟨htarget.trans htarget', hrowkey.trans hrowkey', hname.trans hname'⟩

/-- No column has two rows. -/
def Keyed (rows : List CellRow) : Prop := rows.Pairwise fun a b => ¬ CellRow.sameKey a b

/-- The cell that the rows hold for a column. -/
def cellIn (rows : List CellRow) (target : TableName) (rowkey name : Bytes) : Option Cell :=
  (rows.find? fun row => row.target == target && row.rowkey == rowkey && row.cell.name == name).map
    (·.cell)

theorem find?_eq (store : TableStore) (target : TableName) (rowkey name : Bytes) :
    store.find? target rowkey name = cellIn store.cells target rowkey name := rfl

theorem cellIn_cons_self :
    cellIn (row :: rows) row.target row.rowkey row.cell.name = some row.cell := by
  simp [cellIn]

theorem cellIn_cons_of_ne
    (hne : ¬ (row.target = target ∧ row.rowkey = rowkey ∧ row.cell.name = name)) :
    cellIn (row :: rows) target rowkey name = cellIn rows target rowkey name := by
  rw [cellIn, List.find?_cons_of_neg]
  · rfl
  · simpa [and_assoc] using hne

theorem cellIn_name {cell : Cell} (hcell : cellIn rows target rowkey name = some cell) :
    cell.name = name := by
  obtain ⟨row, hrow, rfl⟩ := Option.map_eq_some_iff.mp hcell
  have := List.find?_some hrow
  simp only [Bool.and_eq_true, beq_iff_eq] at this
  exact this.2

/-- The rows are the columns that hold a cell. -/
theorem mem_iff_cellIn (hkeyed : Keyed rows) :
    row ∈ rows ↔ cellIn rows row.target row.rowkey row.cell.name = some row.cell := by
  induction rows with
  | nil => simp [cellIn]
  | cons head rest ih =>
      obtain ⟨hhead, hrest⟩ := List.pairwise_cons.mp hkeyed
      by_cases hsame : CellRow.sameKey head row
      · have hnot : row ∉ rest := fun hrow => hhead row hrow hsame
        obtain ⟨htarget, hrowkey, hname⟩ := sameKey_iff.mp hsame
        rw [List.mem_cons, ← htarget, ← hrowkey, ← hname, cellIn_cons_self, Option.some.injEq]
        constructor
        · rintro (rfl | hrow)
          · rfl
          · exact absurd hrow hnot
        · intro hcell
          refine .inl ?_
          cases row
          cases head
          cases htarget
          cases hrowkey
          cases hcell
          rfl
      · rw [cellIn_cons_of_ne (mt sameKey_iff.mpr hsame), ← ih hrest, List.mem_cons]
        constructor
        · rintro (rfl | hrow)
          · exact absurd (sameKey_iff.mpr ⟨rfl, rfl, rfl⟩) hsame
          · exact hrow
        · exact .inr

/-! ## Writing a row -/

/-- A write leaves its column with the newer of the two cells. -/
theorem cellIn_upsert_self :
    cellIn (upsert row rows) row.target row.rowkey row.cell.name =
      some (row.cell.over (cellIn rows row.target row.rowkey row.cell.name)) := by
  induction rows with
  | nil => exact cellIn_cons_self
  | cons head rest ih =>
      rw [upsert]
      split
      next hsame =>
        obtain ⟨htarget, hrowkey, hname⟩ := sameKey_iff.mp hsame
        have hhead : cellIn (head :: rest) row.target row.rowkey row.cell.name =
            some head.cell := by
          rw [← htarget, ← hrowkey, ← hname, cellIn_cons_self]
        rw [hhead, Cell.over]
        split
        · exact cellIn_cons_self
        · exact hhead
      next hother =>
        have hother := mt sameKey_iff.mpr hother
        rw [cellIn_cons_of_ne hother, cellIn_cons_of_ne hother, ih]

theorem cellIn_upsert_of_ne
    (hne : ¬ (row.target = target ∧ row.rowkey = rowkey ∧ row.cell.name = name)) :
    cellIn (upsert row rows) target rowkey name = cellIn rows target rowkey name := by
  induction rows with
  | nil => exact cellIn_cons_of_ne hne
  | cons head rest ih =>
      rw [upsert]
      split
      next hsame =>
        obtain ⟨htarget, hrowkey, hname⟩ := sameKey_iff.mp hsame
        have hhead : ¬ (head.target = target ∧ head.rowkey = rowkey ∧ head.cell.name = name) := by
          rwa [htarget, hrowkey, hname]
        rw [cellIn_cons_of_ne hhead]
        split
        · exact cellIn_cons_of_ne hne
        · exact cellIn_cons_of_ne hhead
      next hother =>
        by_cases hhead : head.target = target ∧ head.rowkey = rowkey ∧ head.cell.name = name
        · obtain ⟨rfl, rfl, rfl⟩ := hhead
          rw [cellIn_cons_self, cellIn_cons_self]
        · rw [cellIn_cons_of_ne hhead, cellIn_cons_of_ne hhead, ih]

theorem eq_or_mem_of_mem_upsert (hfound : found ∈ upsert row rows) :
    found = row ∨ found ∈ rows := by
  induction rows with
  | nil => exact .inl (List.mem_singleton.mp hfound)
  | cons head rest ih =>
      rw [upsert] at hfound
      split at hfound
      · rcases List.mem_cons.mp hfound with hfound | hfound
        · split at hfound
          · exact .inl hfound
          · exact .inr (hfound ▸ List.mem_cons_self)
        · exact .inr (List.mem_cons_of_mem _ hfound)
      · rcases List.mem_cons.mp hfound with rfl | hfound
        · exact .inr List.mem_cons_self
        · exact (ih hfound).imp id (List.mem_cons_of_mem _)

theorem Keyed.upsert (hkeyed : Keyed rows) : Keyed (TableStore.upsert row rows) := by
  induction rows with
  | nil => exact List.pairwise_singleton _ _
  | cons head rest ih =>
      obtain ⟨hhead, hrest⟩ := List.pairwise_cons.mp hkeyed
      rw [TableStore.upsert]
      split
      next hsame =>
        refine List.pairwise_cons.mpr ⟨fun later hlater hlast => ?_, hrest⟩
        split at hlast
        · exact hhead later hlater (sameKey_trans hsame hlast)
        · exact hhead later hlater hlast
      next hother =>
        refine List.pairwise_cons.mpr ⟨fun later hlater hlast => ?_, ih hrest⟩
        rcases eq_or_mem_of_mem_upsert hlater with rfl | hlater
        · exact hother hlast
        · exact hhead later hlater hlast

/-! ## Replacing a row -/

theorem mem_replace :
    found ∈ replace row rows ↔ found ∈ rows ∧ ¬ CellRow.sameKey found row ∨ found = row := by
  simp [replace]

theorem Keyed.replace (hkeyed : Keyed rows) : Keyed (TableStore.replace row rows) := by
  refine List.pairwise_append.mpr ⟨List.Pairwise.filter _ hkeyed, List.pairwise_singleton _ _, ?_⟩
  intro existing hexisting last hlast
  rw [List.mem_singleton.mp hlast]
  simpa using (List.mem_filter.mp hexisting).2

theorem cellIn_replace_self (hkeyed : Keyed rows) :
    cellIn (replace row rows) row.target row.rowkey row.cell.name = some row.cell :=
  (mem_iff_cellIn hkeyed.replace).mp (mem_replace.mpr (.inr rfl))

theorem cellIn_replace_of_ne
    (hne : ¬ (row.target = target ∧ row.rowkey = rowkey ∧ row.cell.name = name)) :
    cellIn (replace row rows) target rowkey name = cellIn rows target rowkey name := by
  rw [replace]
  induction rows with
  | nil => exact cellIn_cons_of_ne hne
  | cons head rest ih =>
      by_cases hhead : head.target = target ∧ head.rowkey = rowkey ∧ head.cell.name = name
      · have hkept : ¬ CellRow.sameKey head row := by
          intro hsame
          obtain ⟨htarget, hrowkey, hname⟩ := sameKey_iff.mp hsame
          rw [htarget, hrowkey, hname] at hhead
          exact hne hhead
        obtain ⟨rfl, rfl, rfl⟩ := hhead
        rw [List.filter_cons_of_pos (by simpa using hkept), List.cons_append, cellIn_cons_self,
          cellIn_cons_self]
      · rw [cellIn_cons_of_ne hhead, List.filter_cons]
        split
        · rw [List.cons_append, cellIn_cons_of_ne hhead, ih]
        · exact ih

/-! ## Transactions -/

variable {store : TableStore} {level : Consistency}

/-- A transaction either succeeds or leaves the store as it was. -/
theorem exec_transaction (update : Update TableStore Unit) (store : TableStore) :
    (transaction update).exec store =
      match update.exec store with
      | (.ok _, after) => (.ok (), after)
      | (.error error, _) => (.error error, store) := by
  rw [transaction, Program.exec_bind_ok (Program.exec_get store), Program.exec_tryCatch]
  rcases update.exec store with ⟨_ | _, after⟩ <;> rfl

/-- The store after a write to a table that it has. -/
def written (store : TableStore) (mutation : Mutation) : TableStore :=
  { store with cells := upsert ⟨mutation.target, mutation.rowkey, mutation.cell⟩ store.cells }

/-- Checks every target of a batch. -/
def checkAll (store : TableStore) (level : Consistency) : List Mutation → Except Error Unit
  | [] => .ok ()
  | mutation :: rest => do
    store.check mutation.target level false
    store.checkAll level rest

/-- Writing cells changes no check. -/
theorem checkAll_written (mutation : Mutation) (mutations : List Mutation) :
    (store.written mutation).checkAll level mutations = store.checkAll level mutations := by
  induction mutations with
  | nil => rfl
  | cons next rest ih =>
      rw [checkAll, checkAll, ih]
      rfl

theorem exec_writeAll (store : TableStore) (level : Consistency) (mutations : List Mutation) :
    match store.checkAll level mutations with
    | .ok _ => (writeAll level mutations).exec store = (.ok (), mutations.foldl written store)
    | .error error => ((writeAll level mutations).exec store).1 = .error error := by
  induction mutations generalizing store with
  | nil => rfl
  | cons mutation rest ih =>
      rw [checkAll, writeAll, Program.exec_bind_ok (Program.exec_get store)]
      cases hcheck : store.check mutation.target level false with
      | error error => rfl
      | ok _ =>
          -- The checks read no cells, so a write does not change those that follow
          -- it.
          rw [Except.ok_bind, ← checkAll_written mutation,
            Program.exec_bind_ok (Update.exec_lift _ store),
            Program.exec_bind_ok (Program.exec_modify _ store)]
          exact ih (store.written mutation)

/-- A batch is written where all its targets are there and allowed, and else nothing
is. -/
theorem exec_batchWrite (store : TableStore) (mutations : List Mutation) (level : Consistency) :
    (batchWrite mutations level).exec store =
      match store.checkAll level mutations with
      | .error error => (.error error, store)
      | .ok _ => (.ok (), mutations.foldl written store) := by
  have hwrites := exec_writeAll store level mutations
  rw [batchWrite, exec_transaction]
  cases hcheck : store.checkAll level mutations with
  | ok _ =>
      rw [hcheck] at hwrites
      rw [hwrites]
  | error error =>
      rw [hcheck] at hwrites
      generalize (writeAll level mutations).exec store = run at hwrites
      obtain ⟨result, after⟩ := run
      cases hwrites
      rfl

/-! ## Counters -/

/-- The value that a column counts from. -/
def counter? (store : TableStore) (now : Timestamp) (target : TableName) (rowkey name : Bytes) :
    Option Bytes :=
  ((store.find? target rowkey name).filter fun cell => cell.isLive now).map (·.value)

theorem exec_increment (store : TableStore) (now : Timestamp) (target : TableName)
    (rowkey name : Bytes) (delta : Int64) (level : Consistency) :
    (increment now target rowkey name delta level).exec store =
      match store.check target level false with
      | .error error => (.error error, store)
      | .ok _ =>
        match addToCounter name (store.counter? now target rowkey name) delta with
        | .error error => (.error error, store)
        | .ok value => (.ok (), { store with
            cells := replace ⟨target, rowkey, name, value, now, none⟩ store.cells }) := by
  rw [increment, exec_transaction, Program.exec_bind_ok (Program.exec_get store)]
  cases hcheck : store.check target level false with
  | error error => rw [Program.exec_bind_error (Update.exec_lift _ store)]
  | ok _ =>
      rw [Program.exec_bind_ok (Update.exec_lift _ store)]
      dsimp only
      rw [← counter?]
      cases hvalue : addToCounter name (store.counter? now target rowkey name) delta with
      | error error => rw [Program.exec_bind_error (Update.exec_lift _ store)]
      | ok value =>
          rw [Program.exec_bind_ok (Update.exec_lift _ store)]
          rfl

/-! ## Keyspaces and tables -/

theorem exec_createKeyspace (store : TableStore) (name : String) (replication : UInt32) :
    (createKeyspace name replication).exec store =
      if replication = 0 then (.error (.store .noReplicas), store)
      else if store.keyspaces.any fun row => row.keyspace == name then
        (.error (.store (.keyspaceExists name)), store)
      else (.ok (),
        { store with keyspaces := store.keyspaces ++ [KeyspaceRow.mk name replication] }) := by
  unfold createKeyspace
  by_cases hzero : replication = 0
  · rw [if_pos hzero, if_pos hzero]
    rfl
  · rw [if_neg hzero, if_neg hzero]
    dsimp only
    rw [Program.exec_bind_ok (Program.exec_get store)]
    split <;> rfl

theorem exec_createTable (store : TableStore) (target : TableName) :
    (createTable target).exec store =
      if store.keyspaces.any fun row => row.keyspace == target.keyspace then
        if store.tables.contains target then
          (.error (.store (.tableExists target.keyspace target.table)), store)
        else (.ok (), { store with tables := store.tables ++ [target] })
      else (.error (.store (.unknownKeyspace target.keyspace)), store) := by
  rw [createTable, Program.exec_bind_ok (Program.exec_get store), knownKeyspace]
  split
  · rw [Program.exec_bind_ok (Update.exec_lift _ store)]
    dsimp only
    split <;> rfl
  · rfl

end OperationChain.TableStore
