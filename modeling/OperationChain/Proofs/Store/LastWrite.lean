import OperationChain.Proofs.Store.Contents
import OperationChain.Proofs.Store.Newest

/-! # The last write wins

Each column of a store holds the newest of the cells that it has seen, however their
writes were put into calls. Writing the same cells again changes nothing, and where no
two cells of a column are equally new their order makes no difference.
-/

namespace OperationChain

/-! ## Writes to a column -/

/-- The cells that some writes have for a column, in their order. -/
def cellsFor (mutations : List Mutation) (target : TableName) (rowkey name : Bytes) : List Cell :=
  (mutations.filter fun mutation => mutation.target == target && mutation.rowkey == rowkey &&
    mutation.cell.name == name).map (·.cell)

section CellsFor

variable {mutation : Mutation} {mutations reordered : List Mutation} {target : TableName}
  {rowkey name : Bytes}

theorem cellsFor_cons_self :
    cellsFor (mutation :: mutations) mutation.target mutation.rowkey mutation.cell.name =
      mutation.cell :: cellsFor mutations mutation.target mutation.rowkey mutation.cell.name := by
  simp [cellsFor]

theorem cellsFor_cons_of_ne
    (hne : ¬ (mutation.target = target ∧ mutation.rowkey = rowkey ∧ mutation.cell.name = name)) :
    cellsFor (mutation :: mutations) target rowkey name =
      cellsFor mutations target rowkey name := by
  rw [cellsFor, List.filter_cons_of_neg]
  · rfl
  · simpa [and_assoc] using hne

theorem cellsFor_eq_nil
    (hother : ∀ mutation ∈ mutations, ¬ (mutation.target = target ∧ mutation.rowkey = rowkey ∧
      mutation.cell.name = name)) : cellsFor mutations target rowkey name = [] := by
  rw [cellsFor, List.map_eq_nil_iff, List.filter_eq_nil_iff]
  intro mutation hmutation
  simpa [and_assoc] using hother mutation hmutation

theorem perm_cellsFor (hperm : reordered.Perm mutations) :
    (cellsFor reordered target rowkey name).Perm (cellsFor mutations target rowkey name) :=
  (hperm.filter _).map _

end CellsFor

namespace Storage

variable {storage after : Storage} {mutation : Mutation} {mutations : List Mutation}
  {target : TableName} {rowkey name : Bytes}

/-- The cell of a column. -/
def cell? (storage : Storage) (target : TableName) (rowkey name : Bytes) : Option Cell :=
  storage.contents.find? target rowkey name

/-- The store after a write to a table that it has. -/
def applied : Storage → Mutation → Storage
  | nested store, mutation => nested (store.applied mutation)
  | tables store, mutation => tables (store.written mutation)

theorem cell?_nested (store : NestedStore) :
    (nested store).cell? target rowkey name = store.cell? target rowkey name :=
  store.mirrors_contents.cells target rowkey name

theorem contents_applied (hknown : mutation.target ∈ storage.contents.tables) :
    (storage.applied mutation).contents =
      { storage.contents with cells := (storage.applied mutation).contents.cells } := by
  cases storage with
  | nested store =>
      obtain ⟨rows, hrows⟩ :=
        Option.isSome_iff_exists.mp (NestedStore.mem_contents_tables.mp hknown)
      exact NestedStore.contents_setRows hrows
  | tables store => rfl

theorem cell?_applied_self (hknown : mutation.target ∈ storage.contents.tables) :
    (storage.applied mutation).cell? mutation.target mutation.rowkey mutation.cell.name =
      some (mutation.cell.over
        (storage.cell? mutation.target mutation.rowkey mutation.cell.name)) := by
  cases storage with
  | nested store =>
      rw [applied, cell?_nested, cell?_nested]
      exact NestedStore.cell?_applied_self (NestedStore.mem_contents_tables.mp hknown)
  | tables store =>
      let row : CellRow := ⟨mutation.target, mutation.rowkey, mutation.cell⟩
      have hself : TableStore.cellIn (TableStore.upsert row store.cells) row.target row.rowkey
          row.cell.name = _ := TableStore.cellIn_upsert_self
      exact hself

theorem cell?_applied_of_ne (hknown : mutation.target ∈ storage.contents.tables)
    (hne : ¬ (mutation.target = target ∧ mutation.rowkey = rowkey ∧ mutation.cell.name = name)) :
    (storage.applied mutation).cell? target rowkey name = storage.cell? target rowkey name := by
  cases storage with
  | nested store =>
      rw [applied, cell?_nested, cell?_nested]
      exact NestedStore.cell?_applied_of_ne (NestedStore.mem_contents_tables.mp hknown) hne
  | tables store => exact TableStore.cellIn_upsert_of_ne hne

theorem keyed_applied (hkeyed : TableStore.Keyed storage.contents.cells) :
    TableStore.Keyed (storage.applied mutation).contents.cells := by
  cases storage with
  | nested store => exact NestedStore.keyed_contents _
  | tables store => exact hkeyed.upsert

section AllApplied

variable (hknown : ∀ mutation ∈ mutations, mutation.target ∈ storage.contents.tables)
include hknown

theorem contents_foldl_applied :
    (mutations.foldl applied storage).contents =
      { storage.contents with cells := (mutations.foldl applied storage).contents.cells } := by
  induction mutations generalizing storage with
  | nil => rfl
  | cons mutation rest ih =>
      have hfirst := contents_applied (hknown mutation List.mem_cons_self)
      have hrest : ∀ later ∈ rest, later.target ∈ (storage.applied mutation).contents.tables := by
        rw [hfirst]
        exact fun later hlater => hknown later (List.mem_cons_of_mem _ hlater)
      rw [List.foldl_cons, ih hrest, hfirst]

/-- What a column holds after some writes. -/
theorem cell?_foldl_applied :
    (mutations.foldl applied storage).cell? target rowkey name =
      Cell.writtenOver (storage.cell? target rowkey name)
        (cellsFor mutations target rowkey name) := by
  induction mutations generalizing storage with
  | nil => rfl
  | cons mutation rest ih =>
      have hfirst := hknown mutation List.mem_cons_self
      have hrest : ∀ later ∈ rest, later.target ∈ (storage.applied mutation).contents.tables := by
        rw [contents_applied hfirst]
        exact fun later hlater => hknown later (List.mem_cons_of_mem _ hlater)
      rw [List.foldl_cons, ih hrest]
      by_cases hsame : mutation.target = target ∧ mutation.rowkey = rowkey ∧
        mutation.cell.name = name
      · obtain ⟨rfl, rfl, rfl⟩ := hsame
        rw [cell?_applied_self hfirst, cellsFor_cons_self]
        rfl
      · rw [cell?_applied_of_ne hfirst hsame, cellsFor_cons_of_ne hsame]

end AllApplied

theorem keyed_foldl_applied (hkeyed : TableStore.Keyed storage.contents.cells) :
    TableStore.Keyed (mutations.foldl applied storage).contents.cells := by
  induction mutations generalizing storage with
  | nil => exact hkeyed
  | cons mutation rest ih => exact ih (keyed_applied hkeyed)

end Storage

/-! ## Calls that write -/

/-- The second store is the first after calls that wrote these cells, in this order. -/
inductive Store.Wrote {σ : Type} [Store σ] : σ → List Mutation → σ → Prop where
  | done (store : σ) : Wrote store [] store
  | write {store next after : σ} {mutation : Mutation} {rest : List Mutation} {now : Timestamp}
      {level : Consistency}
      (hperform : perform store now (.write mutation level) = (.ok .done, next))
      (hrest : Wrote next rest after) : Wrote store (mutation :: rest) after
  | batchWrite {store next after : σ} {batch rest : List Mutation} {now : Timestamp}
      {level : Consistency}
      (hperform : perform store now (.batchWrite batch level) = (.ok .done, next))
      (hrest : Wrote next rest after) : Wrote store (batch ++ rest) after

theorem Store.perform_write {σ : Type} [Store σ] (store : σ) (now : Timestamp) (mutation : Mutation)
    (level : Consistency) :
    perform store now (.write mutation level) = perform store now (.batchWrite [mutation] level) :=
  rfl

theorem TableStore.checkAll_eq_ok_iff {store : TableStore} {level : Consistency}
    {mutations : List Mutation} :
    store.checkAll level mutations = .ok () ↔
      ∀ mutation ∈ mutations, store.check mutation.target level false = .ok () := by
  induction mutations with
  | nil => simp [checkAll]
  | cons mutation rest ih =>
      rw [checkAll, Except.bind_eq_ok_iff, List.forall_mem_cons, ← ih]
      constructor
      · rintro ⟨_, hfirst, hrest⟩
        exact ⟨hfirst, hrest⟩
      · rintro ⟨hfirst, hrest⟩
        exact ⟨(), hfirst, hrest⟩

theorem TableStore.mem_of_check {store : TableStore} {target : TableName} {level : Consistency}
    {reading : Bool} (hcheck : store.check target level reading = .ok ()) :
    target ∈ store.tables := by
  obtain ⟨replication, hreplication, _⟩ := Except.bind_eq_ok_iff.mp hcheck
  unfold TableStore.replication at hreplication
  split at hreplication
  · cases hreplication
  · split at hreplication
    next hcontains => simpa using hcontains
    · cases hreplication

namespace Storage

variable {storage after : Storage} {mutations batch : List Mutation}

theorem exec_batchWrite (storage : Storage) (mutations : List Mutation) (level : Consistency) :
    (Store.batchWrite mutations level : Update Storage Unit).exec storage =
      match storage.contents.checkAll level mutations with
      | .error error => (.error error, storage)
      | .ok _ => (.ok (), mutations.foldl applied storage) := by
  cases storage with
  | nested store =>
      have hfoldl : mutations.foldl applied (nested store) =
          nested (mutations.foldl NestedStore.applied store) :=
        List.foldl_hom nested fun _ _ => rfl
      have hexec := NestedStore.exec_batchWrite store mutations level
      refine (exec_update_nested _ store).trans ?_
      change (((NestedStore.batchWrite mutations level).exec store).1,
        nested ((NestedStore.batchWrite mutations level).exec store).2) = _
      rw [hexec, contents, store.mirrors_contents.checkAll_eq, hfoldl]
      cases store.checkAll level mutations <;> rfl
  | tables store =>
      have hfoldl : mutations.foldl applied (tables store) =
          tables (mutations.foldl TableStore.written store) :=
        List.foldl_hom tables fun _ _ => rfl
      have hexec := TableStore.exec_batchWrite store mutations level
      refine (exec_update_tables _ store).trans ?_
      change (((TableStore.batchWrite mutations level).exec store).1,
        tables ((TableStore.batchWrite mutations level).exec store).2) = _
      rw [hexec, contents, hfoldl]
      cases store.checkAll level mutations <;> rfl

theorem perform_batchWrite_eq_ok_iff {now : Timestamp} {level : Consistency} :
    Store.perform storage now (.batchWrite batch level) = (.ok .done, after) ↔
      (∀ mutation ∈ batch, storage.contents.check mutation.target level false = .ok ()) ∧
        after = batch.foldl applied storage := by
  rw [Store.perform, Store.performUpdate, exec_batchWrite, ← TableStore.checkAll_eq_ok_iff]
  cases storage.contents.checkAll level batch with
  | error error => simp [Except.map]
  | ok _ => simp [Except.map, eq_comm]

/-- Some level allows the write. -/
def Allows (storage : Storage) (mutation : Mutation) : Prop :=
  ∃ level, storage.contents.check mutation.target level false = .ok ()

theorem Allows.known {mutation : Mutation} (hallows : storage.Allows mutation) :
    mutation.target ∈ storage.contents.tables :=
  TableStore.mem_of_check hallows.choose_spec

/-- Whether a write is allowed does not depend on what was written before. -/
theorem allows_foldl_applied {mutation : Mutation}
    (hbatch : ∀ earlier ∈ batch, storage.Allows earlier) :
    (batch.foldl applied storage).Allows mutation ↔ storage.Allows mutation := by
  rw [Allows, contents_foldl_applied fun earlier hearlier => (hbatch earlier hearlier).known]
  rfl

/-- Writes in one call, and then others. -/
theorem allows_append_of_perform {next : Storage} {rest : List Mutation} {now : Timestamp}
    {level : Consistency}
    (hperform : Store.perform storage now (.batchWrite batch level) = (.ok .done, next))
    (hrest : (∀ mutation ∈ rest, next.Allows mutation) ∧ after = rest.foldl applied next) :
    (∀ mutation ∈ batch ++ rest, storage.Allows mutation) ∧
      after = (batch ++ rest).foldl applied storage := by
  obtain ⟨hcheck, rfl⟩ := perform_batchWrite_eq_ok_iff.mp hperform
  have hbatch : ∀ mutation ∈ batch, storage.Allows mutation :=
    fun mutation hmutation => ⟨level, hcheck mutation hmutation⟩
  refine ⟨fun mutation hmutation => ?_, by rw [List.foldl_append, hrest.2]⟩
  rcases List.mem_append.mp hmutation with hmutation | hmutation
  · exact hbatch mutation hmutation
  · exact (allows_foldl_applied hbatch).mp (hrest.1 mutation hmutation)

/-- How the writes were put into calls makes no difference. -/
theorem wrote_iff :
    Store.Wrote storage mutations after ↔
      (∀ mutation ∈ mutations, storage.Allows mutation) ∧
        after = mutations.foldl applied storage := by
  constructor
  · intro hwrote
    induction hwrote with
    | done store => exact ⟨by simp, rfl⟩
    | write hperform _ ih =>
        rw [Store.perform_write] at hperform
        exact allows_append_of_perform hperform ih
    | batchWrite hperform _ ih => exact allows_append_of_perform hperform ih
  · rintro ⟨hallows, rfl⟩
    induction mutations generalizing storage with
    | nil => exact .done _
    | cons mutation rest ih =>
        have hbatch : ∀ earlier ∈ [mutation], storage.Allows earlier := by
          simpa using hallows mutation List.mem_cons_self
        obtain ⟨level, hcheck⟩ := hallows mutation List.mem_cons_self
        have hperform : Store.perform storage 0 (.write mutation level) =
            (.ok .done, storage.applied mutation) := by
          rw [Store.perform_write]
          exact perform_batchWrite_eq_ok_iff.mpr ⟨by simpa using hcheck, rfl⟩
        refine .write hperform (ih fun later hlater => ?_)
        exact (allows_foldl_applied hbatch).mpr (hallows later (List.mem_cons_of_mem _ hlater))

end Storage

/-! ## One row for a column -/

/-- The update gives no column a second row. -/
def Update.KeepsKeys {σ : Type} (contents : σ → TableStore) (update : Update σ Unit) : Prop :=
  ∀ store, TableStore.Keyed (contents store).cells →
    TableStore.Keyed (contents (update.exec store).2).cells

namespace TableStore

theorem keepsKeys_batchWrite (mutations : List Mutation) (level : Consistency) :
    (batchWrite mutations level).KeepsKeys id := by
  intro store hkeyed
  rw [exec_batchWrite]
  split
  · exact hkeyed
  · have hwritten : Keyed (mutations.foldl Storage.applied (.tables store)).contents.cells :=
      Storage.keyed_foldl_applied hkeyed
    rwa [List.foldl_hom Storage.tables fun _ _ => rfl] at hwritten

theorem keepsKeys_increment (now : Timestamp) (target : TableName) (rowkey name : Bytes)
    (delta : Int64) (level : Consistency) :
    (increment now target rowkey name delta level).KeepsKeys id := by
  intro store hkeyed
  rw [exec_increment]
  split
  · exact hkeyed
  · split
    · exact hkeyed
    · exact hkeyed.replace

theorem keepsKeys_createKeyspace (name : String) (replication : UInt32) :
    (createKeyspace name replication).KeepsKeys id := by
  intro store hkeyed
  rw [exec_createKeyspace]
  split
  · exact hkeyed
  · split <;> exact hkeyed

theorem keepsKeys_createTable (target : TableName) : (createTable target).KeepsKeys id := by
  intro store hkeyed
  rw [exec_createTable]
  split
  · split <;> exact hkeyed
  · exact hkeyed

end TableStore

namespace Storage

theorem keepsKeys_update {update : {σ : Type} → [Store σ] → Update σ Unit}
    (htables : Update.KeepsKeys id (update : Update TableStore Unit)) :
    (Storage.update update).KeepsKeys contents := by
  intro storage hkeyed
  cases storage with
  | nested store =>
      rw [exec_update_nested]
      exact NestedStore.keyed_contents _
  | tables store =>
      rw [exec_update_tables]
      exact htables store hkeyed

theorem keepsKeys_batchWrite (mutations : List Mutation) (level : Consistency) :
    (Store.batchWrite mutations level : Update Storage Unit).KeepsKeys contents :=
  keepsKeys_update (TableStore.keepsKeys_batchWrite mutations level)

theorem keepsKeys_increment (now : Timestamp) (target : TableName) (rowkey name : Bytes)
    (delta : Int64) (level : Consistency) :
    (Store.increment now target rowkey name delta level : Update Storage Unit).KeepsKeys contents :=
  keepsKeys_update (TableStore.keepsKeys_increment now target rowkey name delta level)

theorem keepsKeys_createKeyspace (name : String) (replication : UInt32) :
    (Store.createKeyspace name replication : Update Storage Unit).KeepsKeys contents :=
  keepsKeys_update (TableStore.keepsKeys_createKeyspace name replication)

theorem keepsKeys_createTable (target : TableName) :
    (Store.createTable target : Update Storage Unit).KeepsKeys contents :=
  keepsKeys_update (TableStore.keepsKeys_createTable target)

/-- Neither does any call. -/
theorem keyed_perform {storage : Storage} (hkeyed : TableStore.Keyed storage.contents.cells)
    (now : Timestamp) (call : Store.Call) :
    TableStore.Keyed (Store.perform storage now call).2.contents.cells := by
  cases call with
  | read target rowkey names level => exact hkeyed
  | readSlice target rowkey range level => exact hkeyed
  | write mutation level => exact keepsKeys_batchWrite [mutation] level storage hkeyed
  | batchWrite mutations level => exact keepsKeys_batchWrite mutations level storage hkeyed
  | increment target rowkey name delta level =>
      exact keepsKeys_increment now target rowkey name delta level storage hkeyed
  | createKeyspace name replication =>
      exact keepsKeys_createKeyspace name replication storage hkeyed
  | createTable target => exact keepsKeys_createTable target storage hkeyed
  | listKeyspaces => exact hkeyed
  | listTables keyspace => exact hkeyed
  | query keyspace statement version level => exact hkeyed

end Storage

/-! ## Stores that hold the same -/

/-- The relations have the same rows; the order of cells is of no account. -/
structure TableStore.SameAs (a b : TableStore) : Prop where
  nodes : a.nodes = b.nodes
  keyspaces : a.keyspaces = b.keyspaces
  tables : a.tables = b.tables
  cells : a.cells.Perm b.cells

/-- Relations with one row for a column are told apart by what columns hold. -/
theorem TableStore.perm_of_cellIn_eq {rows others : List CellRow} (hrows : Keyed rows)
    (hothers : Keyed others)
    (heq : ∀ target rowkey name,
      cellIn rows target rowkey name = cellIn others target rowkey name) :
    rows.Perm others := by
  have hnodup {rows : List CellRow} (hkeyed : Keyed rows) : rows.Nodup := by
    refine hkeyed.imp fun {a b} hother hab => hother ?_
    exact sameKey_iff.mpr ⟨by rw [hab], by rw [hab], by rw [hab]⟩
  refine (List.perm_ext_iff_of_nodup (hnodup hrows) (hnodup hothers)).mpr fun row => ?_
  rw [mem_iff_cellIn hrows, mem_iff_cellIn hothers, heq]

namespace Storage

variable {storage after other : Storage} {mutations reordered : List Mutation} {target : TableName}
  {rowkey name : Bytes}

/-- What a column held and then was given. -/
def history (storage : Storage) (mutations : List Mutation) (target : TableName)
    (rowkey name : Bytes) : List Cell :=
  (storage.cell? target rowkey name).toList ++ cellsFor mutations target rowkey name

theorem cell?_of_wrote (hwrote : Store.Wrote storage mutations after) :
    after.cell? target rowkey name =
      Cell.writtenOver (storage.cell? target rowkey name)
        (cellsFor mutations target rowkey name) := by
  obtain ⟨hallows, rfl⟩ := wrote_iff.mp hwrote
  exact cell?_foldl_applied fun mutation hmutation => (hallows mutation hmutation).known

theorem contents_of_wrote (hwrote : Store.Wrote storage mutations after) :
    after.contents = { storage.contents with cells := after.contents.cells } := by
  obtain ⟨hallows, rfl⟩ := wrote_iff.mp hwrote
  exact contents_foldl_applied fun mutation hmutation => (hallows mutation hmutation).known

theorem keyed_of_wrote (hkeyed : TableStore.Keyed storage.contents.cells)
    (hwrote : Store.Wrote storage mutations after) : TableStore.Keyed after.contents.cells := by
  obtain ⟨_, rfl⟩ := wrote_iff.mp hwrote
  exact keyed_foldl_applied hkeyed

theorem exists_wrote_of_perm (hperm : reordered.Perm mutations)
    (hwrote : Store.Wrote storage mutations after) :
    ∃ other, Store.Wrote storage reordered other := by
  obtain ⟨hallows, _⟩ := wrote_iff.mp hwrote
  have hreordered : ∀ mutation ∈ reordered, storage.Allows mutation :=
    fun mutation hmutation => hallows mutation (hperm.mem_iff.mp hmutation)
  exact ⟨_, wrote_iff.mpr ⟨hreordered, rfl⟩⟩

theorem exists_wrote_again (hwrote : Store.Wrote storage mutations after) :
    ∃ again, Store.Wrote after mutations again := by
  obtain ⟨hallows, rfl⟩ := wrote_iff.mp hwrote
  have hagain : ∀ mutation ∈ mutations, (mutations.foldl applied storage).Allows mutation :=
    fun mutation hmutation => (allows_foldl_applied hallows).mpr (hallows mutation hmutation)
  exact ⟨_, wrote_iff.mpr ⟨hagain, rfl⟩⟩

/-- Two stores that came from one by writes hold the same if their columns do. -/
theorem sameAs_of_cell?_eq (hafter : TableStore.Keyed after.contents.cells)
    (hother : TableStore.Keyed other.contents.cells)
    (hrest : other.contents = { after.contents with cells := other.contents.cells })
    (hcells : ∀ target rowkey name,
      other.cell? target rowkey name = after.cell? target rowkey name) :
    other.contents.SameAs after.contents where
  nodes := by rw [hrest]
  keyspaces := by rw [hrest]
  tables := by rw [hrest]
  cells := TableStore.perm_of_cellIn_eq hother hafter hcells

theorem sameAs_of_wrote_again {again : Storage}
    (hkeyed : TableStore.Keyed storage.contents.cells)
    (hwrote : Store.Wrote storage mutations after) (hagain : Store.Wrote after mutations again) :
    again.contents.SameAs after.contents := by
  have hafter := keyed_of_wrote hkeyed hwrote
  refine sameAs_of_cell?_eq hafter (keyed_of_wrote hafter hagain) (contents_of_wrote hagain) ?_
  intro target rowkey name
  rw [cell?_of_wrote hagain, cell?_of_wrote hwrote, Cell.writtenOver_again]

theorem sameAs_of_wrote_reordered (hkeyed : TableStore.Keyed storage.contents.cells)
    (hwrote : Store.Wrote storage mutations after) (hperm : reordered.Perm mutations)
    (hapart : ∀ target rowkey name, (storage.history mutations target rowkey name).Pairwise
      fun a b => a.timestamp ≠ b.timestamp)
    (hother : Store.Wrote storage reordered other) : other.contents.SameAs after.contents := by
  have hrest : other.contents = { after.contents with cells := other.contents.cells } := by
    rw [contents_of_wrote hother, contents_of_wrote hwrote]
  refine sameAs_of_cell?_eq (keyed_of_wrote hkeyed hwrote) (keyed_of_wrote hkeyed hother) hrest ?_
  intro target rowkey name
  rw [cell?_of_wrote hother, cell?_of_wrote hwrote]
  exact Cell.writtenOver_of_perm (perm_cellsFor hperm) (hapart target rowkey name)

/-- After some writes each column holds the newest of what it held and was given, and
where it was given nothing it holds what it held. Writing everything once more changes
nothing. Neither does another order, where what a column sees is never equally new. -/
theorem newest_of_wrote (hkeyed : TableStore.Keyed storage.contents.cells)
    (hwrote : Store.Wrote storage mutations after) :
    (∀ target rowkey name, storage.history mutations target rowkey name ≠ [] →
      ∃ cell, after.cell? target rowkey name = some cell ∧
        cell.IsNewest (storage.history mutations target rowkey name)) ∧
    (∀ target rowkey name,
      (∀ mutation ∈ mutations, ¬ (mutation.target = target ∧ mutation.rowkey = rowkey ∧
        mutation.cell.name = name)) →
      after.cell? target rowkey name = storage.cell? target rowkey name) ∧
    after.contents = { storage.contents with cells := after.contents.cells } ∧
    ((∃ again, Store.Wrote after mutations again) ∧
      ∀ again, Store.Wrote after mutations again → again.contents.SameAs after.contents) ∧
    ∀ reordered : List Mutation, reordered.Perm mutations →
      (∀ target rowkey name, (storage.history mutations target rowkey name).Pairwise
        fun a b => a.timestamp ≠ b.timestamp) →
      (∃ other, Store.Wrote storage reordered other) ∧
        ∀ other, Store.Wrote storage reordered other →
          other.contents.SameAs after.contents := by
  refine ⟨fun target rowkey name hhistory => ?_, fun target rowkey name hother => ?_,
    contents_of_wrote hwrote, ⟨exists_wrote_again hwrote, fun again hagain => ?_⟩,
    fun reordered hperm hapart => ⟨exists_wrote_of_perm hperm hwrote, fun other hother => ?_⟩⟩
  · obtain ⟨cell, hcell⟩ := Option.isSome_iff_exists.mp (Cell.isSome_writtenOver.mpr hhistory)
    exact ⟨cell, (cell?_of_wrote hwrote).trans hcell, Cell.isNewest_of_writtenOver hcell⟩
  · rw [cell?_of_wrote hwrote, cellsFor_eq_nil hother]
    rfl
  · exact sameAs_of_wrote_again hkeyed hwrote hagain
  · exact sameAs_of_wrote_reordered hkeyed hwrote hperm hapart hother

/-- An older cell that comes after a newer one is passed over, and comes to the same
if it is written before. -/
theorem newest_of_wrote_older :
    let target : TableName := ⟨"ks", "t"⟩
    let storage : Storage := .tables { keyspaces := [⟨"ks", 1⟩], tables := [target] }
    let newer : Mutation := ⟨target, [1], ⟨[2], [3], 7, none⟩⟩
    let older : Mutation := ⟨target, [1], ⟨[2], [4], 6, some 1⟩⟩
    let after := [newer, older].foldl applied storage
    (∃ cell, after.cell? target [1] [2] = some cell ∧ cell.IsNewest [newer.cell, older.cell]) ∧
      ∀ other, Store.Wrote storage [older, newer] other →
        other.contents.SameAs after.contents := by
  intro target storage newer older after
  have hperform : Store.perform storage 0 (.batchWrite [newer, older] .one) =
      (.ok .done, after) := rfl
  have hkeyed : TableStore.Keyed storage.contents.cells := .nil
  obtain ⟨hnewest, _, _, _, hreordered⟩ :=
    newest_of_wrote hkeyed (.batchWrite hperform (.done after))
  refine ⟨hnewest target [1] [2] (List.cons_ne_nil _ _), ?_⟩
  refine (hreordered [older, newer] (.swap _ _ _) fun target rowkey name => ?_).2
  exact .sublist (List.filter_sublist.map Mutation.cell) (by decide)

end Storage

end OperationChain
