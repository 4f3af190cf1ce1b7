import OperationChain.Proofs.Store.Reading

/-! # Both stores answer alike

A store of flat tables mirrors a store of nested maps if both give the same answers
to three questions: which replication a keyspace has, which tables there are, and
which cell a column holds. Every call then gives the same reply on both and leaves
stores that mirror each other again, so from empty stores on no sequence of calls
tells them apart.
-/

namespace OperationChain

/-- The tables hold what the nested maps hold, with one row for each thing they hold. -/
structure Mirrors (nested : NestedStore) (tables : TableStore) : Prop where
  nodes : tables.nodes = nested.nodes
  replication : ∀ name, ((tables.keyspaces.find? fun row => row.keyspace == name).map
    (·.replication)) = nested.replication? name
  named : tables.keyspaces.Pairwise fun a b => a.keyspace ≠ b.keyspace
  known : ∀ target, target ∈ tables.tables ↔ (nested.rows? target).isSome
  distinct : tables.tables.Nodup
  cells : ∀ target rowkey name,
    TableStore.cellIn tables.cells target rowkey name = nested.cell? target rowkey name
  keyed : TableStore.Keyed tables.cells

namespace Mirrors

variable {nested : NestedStore} {tables : TableStore}

theorem empty (nodes : UInt32) : Mirrors { nodes } { nodes } where
  nodes := rfl
  replication _ := rfl
  named := .nil
  known _ := by simp [NestedStore.rows?, Map.find?_empty]
  distinct := .nil
  cells _ _ _ := rfl
  keyed := .nil

/-! ## Checks -/

theorem any_keyspace (hmirrors : Mirrors nested tables) (name : String) :
    (tables.keyspaces.any fun row => row.keyspace == name) = (nested.replication? name).isSome := by
  rw [← hmirrors.replication, Option.isSome_map, Bool.eq_iff_iff, List.any_eq_true,
    List.find?_isSome]

theorem contains_table (hmirrors : Mirrors nested tables) (target : TableName) :
    tables.tables.contains target = (nested.rows? target).isSome := by
  rw [Bool.eq_iff_iff, List.contains_iff_mem, hmirrors.known]

theorem replication_eq (hmirrors : Mirrors nested tables) (target : TableName) :
    tables.replication target = (nested.table target).map (·.2) := by
  rw [NestedStore.table_eq, TableStore.replication, ← hmirrors.replication, hmirrors.contains_table]
  cases tables.keyspaces.find? fun row => row.keyspace == target.keyspace with
  | none => rfl
  | some row => cases nested.rows? target <;> rfl

theorem check_eq (hmirrors : Mirrors nested tables) (target : TableName) (level : Consistency)
    (reading : Bool) :
    tables.check target level reading =
      (nested.table target).bind fun table =>
        checkConsistency level table.2 nested.nodes reading := by
  rw [TableStore.check, hmirrors.replication_eq, hmirrors.nodes]
  cases nested.table target <;> rfl

theorem checkWrite_eq (hmirrors : Mirrors nested tables) (target : TableName)
    (level : Consistency) :
    tables.check target level false = nested.checkWrite target level :=
  hmirrors.check_eq target level false

theorem checkAll_eq (hmirrors : Mirrors nested tables) (level : Consistency)
    (mutations : List Mutation) :
    tables.checkAll level mutations = nested.checkAll level mutations := by
  induction mutations with
  | nil => rfl
  | cons mutation rest ih =>
      rw [TableStore.checkAll, NestedStore.checkAll, hmirrors.checkWrite_eq, ih]

theorem readable_eq (hmirrors : Mirrors nested tables) (target : TableName) (level : Consistency) :
    nested.readable target level =
      (tables.check target level true).map fun _ => (nested.rows? target).getD ∅ := by
  rw [hmirrors.check_eq, NestedStore.readable]
  cases htable : nested.table target with
  | error error => rfl
  | ok table =>
      obtain ⟨rows, replication⟩ := table
      obtain ⟨_, hrows⟩ := NestedStore.table_eq_ok_iff.mp htable
      rw [hrows]
      change (checkConsistency level replication nested.nodes true >>= fun _ => pure rows) =
        (checkConsistency level replication nested.nodes true).map fun _ => rows
      cases checkConsistency level replication nested.nodes true <;> rfl

/-! ## Reads -/

theorem read_eq (hmirrors : Mirrors nested tables) (now : Timestamp) (target : TableName)
    (rowkey : Bytes) (names : List Bytes) (level : Consistency) :
    nested.read now target rowkey names level = tables.read now target rowkey names level := by
  rw [NestedStore.read, hmirrors.readable_eq, TableStore.read]
  cases tables.check target level true with
  | error error => rfl
  | ok _ =>
      change Except.ok (names.filterMap fun name =>
          (nested.cell? target rowkey name).filter fun cell => cell.isLive now) =
        Except.ok (names.filterMap fun name =>
          (TableStore.cellIn tables.cells target rowkey name).filter fun cell => cell.isLive now)
      simp only [hmirrors.cells]

theorem mem_cells_iff (hmirrors : Mirrors nested tables) {row : CellRow} :
    row ∈ tables.cells ↔ nested.cell? row.target row.rowkey row.cell.name = some row.cell := by
  rw [TableStore.mem_iff_cellIn hmirrors.keyed, hmirrors.cells]

/-- The cells of a row that a range takes, sorted by name. -/
theorem sortByName_eq (hmirrors : Mirrors nested tables) (target : TableName) (rowkey : Bytes)
    (range : SliceRange) :
    TableStore.sortByName ((tables.cells.filter fun row =>
        row.target == target && row.rowkey == rowkey &&
          range.contains row.cell.name).map (·.cell)) =
      (NestedStore.cells (NestedStore.columnsOf ((nested.rows? target).getD ∅) rowkey)).filter
        fun cell => range.contains cell.name := by
  refine mergeSort_eq_of_mem_iff (compareOn Cell.name) ?_ ?_ ?_
  · refine List.pairwise_map.mpr ((hmirrors.keyed.filter _).imp_of_mem ?_)
    intro a b ha hb hother heq
    have ha := (List.mem_filter.mp ha).2
    have hb := (List.mem_filter.mp hb).2
    simp only [Bool.and_eq_true, beq_iff_eq] at ha hb
    -- Within one row the name is the whole key.
    refine hother (TableStore.sameKey_iff.mpr ⟨?_, ?_, Std.LawfulEqCmp.eq_of_compare heq⟩)
    · rw [ha.1.1, hb.1.1]
    · rw [ha.1.2, hb.1.2]
  · exact (NestedStore.pairwise_cells _).filter _
  · intro cell
    rw [List.mem_filter, NestedStore.mem_cells, List.mem_map]
    constructor
    · rintro ⟨row, hrow, rfl⟩
      obtain ⟨hmem, hchosen⟩ := List.mem_filter.mp hrow
      simp only [Bool.and_eq_true, beq_iff_eq] at hchosen
      obtain ⟨⟨rfl, rfl⟩, hrange⟩ := hchosen
      exact ⟨hmirrors.mem_cells_iff.mp hmem, hrange⟩
    · rintro ⟨hcell, hrange⟩
      refine ⟨⟨target, rowkey, cell⟩, List.mem_filter.mpr ⟨?_, ?_⟩, rfl⟩
      · exact hmirrors.mem_cells_iff.mpr hcell
      · simpa using hrange

theorem readSlice_eq (hmirrors : Mirrors nested tables) (now : Timestamp) (target : TableName)
    (rowkey : Bytes) (range : SliceRange) (level : Consistency) :
    nested.readSlice now target rowkey range level =
      tables.readSlice now target rowkey range level := by
  rw [NestedStore.readSlice, hmirrors.readable_eq, TableStore.readSlice]
  cases tables.check target level true with
  | error error => rfl
  | ok _ =>
      rw [Except.ok_bind]
      dsimp only
      rw [hmirrors.sortByName_eq, List.filter_filter]
      change Except.ok (List.take range.limit (List.filter _ _)) = Except.ok _
      simp only [Bool.and_comm]

/-- The cells of a table, sorted by row key and name. -/
theorem sortByKey_eq (hmirrors : Mirrors nested tables) (target : TableName) :
    TableStore.sortByKey (tables.cells.filter fun row => row.target == target) =
      NestedStore.cellRows target ((nested.rows? target).getD ∅) := by
  refine mergeSort_eq_of_mem_iff NestedStore.keyOrder ?_ ?_ ?_
  · refine (hmirrors.keyed.filter _).imp_of_mem fun {a b} ha hb hother heq => hother ?_
    have ha := (List.mem_filter.mp ha).2
    have hb := (List.mem_filter.mp hb).2
    rw [beq_iff_eq] at ha hb
    obtain ⟨hrowkey, hname⟩ := Ordering.then_eq_eq.mp heq
    exact TableStore.sameKey_iff.mpr ⟨ha.trans hb.symm, Std.LawfulEqCmp.eq_of_compare hrowkey,
      Std.LawfulEqCmp.eq_of_compare hname⟩
  · exact NestedStore.pairwise_cellRows target _
  · intro row
    rw [List.mem_filter, hmirrors.mem_cells_iff, NestedStore.mem_cellRows, beq_iff_eq]
    constructor
    · rintro ⟨hcell, rfl⟩
      exact ⟨rfl, hcell⟩
    · rintro ⟨rfl, hcell⟩
      exact ⟨hcell, rfl⟩

theorem query_eq (hmirrors : Mirrors nested tables) (now : Timestamp) (given : Option String)
    (statement version : String) (level : Consistency) :
    nested.query now given statement version level =
      tables.query now given statement version level := by
  unfold NestedStore.query TableStore.query
  cases Select.parse statement version with
  | error error => rfl
  | ok select =>
      rw [Except.ok_bind, Except.ok_bind]
      cases select.keyspaceOr given statement with
      | error error => rfl
      | ok keyspace =>
          rw [Except.ok_bind, Except.ok_bind, hmirrors.readable_eq]
          dsimp only
          cases tables.check ⟨keyspace, select.table⟩ level true with
          | error error => rfl
          | ok _ =>
              rw [Except.ok_bind, hmirrors.sortByKey_eq, NestedStore.groups_cellRows]
              rfl

theorem listKeyspaces_eq (hmirrors : Mirrors nested tables) :
    TableStore.sortNames (tables.keyspaces.map (·.keyspace)) = nested.keyspaces.keys := by
  refine mergeSort_eq_of_mem_iff compare ?_ (Map.pairwise_keys _) ?_
  · exact List.pairwise_map.mpr (hmirrors.named.imp Entries.compare_ne_eq)
  · intro name
    rw [Map.mem_keys_iff, ← Option.isSome_map, ← NestedStore.replication?, ← hmirrors.any_keyspace,
      List.any_eq_true, List.mem_map]
    simp only [beq_iff_eq]

theorem listTables_eq (hmirrors : Mirrors nested tables) (name : String) :
    nested.listTables name = tables.listTables name := by
  rw [NestedStore.listTables, NestedStore.keyspace, TableStore.listTables, TableStore.knownKeyspace,
    hmirrors.any_keyspace, NestedStore.replication?, Option.isSome_map]
  cases hkeyspace : nested.keyspaces.find? name with
  | none => rfl
  | some keyspace =>
      refine congrArg Except.ok (mergeSort_eq_of_mem_iff compare ?_ (Map.pairwise_keys _) ?_).symm
      · refine List.pairwise_map.mpr ((hmirrors.distinct.filter _).imp_of_mem fun ha hb hne => ?_)
        have ha := (List.mem_filter.mp ha).2
        have hb := (List.mem_filter.mp hb).2
        rw [beq_iff_eq] at ha hb
        exact Entries.compare_ne_eq fun heq => hne (TableName.ext (ha.trans hb.symm) heq)
      · intro table
        have hrows : (nested.rows? ⟨name, table⟩).isSome =
            (keyspace.tables.find? table).isSome := by
          rw [NestedStore.rows?, hkeyspace, Option.bind_some]
        rw [Map.mem_keys_iff, ← hrows, ← hmirrors.known, List.mem_map]
        constructor
        · rintro ⟨found, hfound, rfl⟩
          obtain ⟨hmem, hname⟩ := List.mem_filter.mp hfound
          rw [← beq_iff_eq.mp hname]
          exact hmem
        · intro hmem
          exact ⟨⟨name, table⟩, List.mem_filter.mpr ⟨hmem, beq_iff_eq.mpr rfl⟩, rfl⟩

/-! ## Writes -/

/-- Other columns in a row, and the cells that hold them. -/
theorem updateRow (hmirrors : Mirrors nested tables) {target : TableName} {rowkey : Bytes}
    {change : Columns → Columns} {cells : List CellRow} (hrows : (nested.rows? target).isSome)
    (hcells : ∀ other key name, TableStore.cellIn cells other key name =
      (nested.updateRow target rowkey change).cell? other key name)
    (hkeyed : TableStore.Keyed cells) :
    Mirrors (nested.updateRow target rowkey change) { tables with cells } where
  nodes := hmirrors.nodes.trans NestedStore.nodes_setRows.symm
  replication name := (hmirrors.replication name).trans (NestedStore.replication?_setRows name).symm
  named := hmirrors.named
  known other := by rw [NestedStore.isSome_rows?_updateRow hrows, hmirrors.known]
  distinct := hmirrors.distinct
  cells := hcells
  keyed := hkeyed

theorem applied (hmirrors : Mirrors nested tables) {mutation : Mutation}
    (hrows : (nested.rows? mutation.target).isSome) :
    Mirrors (nested.applied mutation) (tables.written mutation) := by
  refine hmirrors.updateRow hrows (fun target rowkey name => ?_) hmirrors.keyed.upsert
  change _ = (nested.applied mutation).cell? target rowkey name
  by_cases hsame : mutation.target = target ∧ mutation.rowkey = rowkey ∧ mutation.cell.name = name
  · obtain ⟨rfl, rfl, rfl⟩ := hsame
    rw [NestedStore.cell?_applied_self hrows, ← hmirrors.cells]
    exact TableStore.cellIn_upsert_self
  · rw [NestedStore.cell?_applied_of_ne hrows hsame, ← hmirrors.cells]
    exact TableStore.cellIn_upsert_of_ne hsame

theorem allApplied (hmirrors : Mirrors nested tables) {mutations : List Mutation}
    (hrows : ∀ mutation ∈ mutations, (nested.rows? mutation.target).isSome) :
    Mirrors (mutations.foldl NestedStore.applied nested)
      (mutations.foldl TableStore.written tables) := by
  induction mutations generalizing nested tables with
  | nil => exact hmirrors
  | cons mutation rest ih =>
      have hfirst := hrows mutation List.mem_cons_self
      refine ih (hmirrors.applied hfirst) fun later hlater => ?_
      rw [NestedStore.applied, NestedStore.isSome_rows?_updateRow hfirst]
      exact hrows later (List.mem_cons_of_mem _ hlater)

/-- A row that is there only by now holds nothing. -/
theorem touched (hmirrors : Mirrors nested tables) {target : TableName} (rowkey : Bytes)
    (hrows : (nested.rows? target).isSome) :
    Mirrors (nested.updateRow target rowkey id) tables := by
  refine hmirrors.updateRow hrows (fun other key name => ?_) hmirrors.keyed
  rw [NestedStore.cell?_updateRow_id hrows, hmirrors.cells]

theorem replaced (hmirrors : Mirrors nested tables) {target : TableName} {rowkey : Bytes}
    (cell : Cell) (hrows : (nested.rows? target).isSome) :
    Mirrors (nested.updateRow target rowkey fun columns =>
        columns.insert cell.name (NestedStore.ofCell cell))
      { tables with cells := TableStore.replace ⟨target, rowkey, cell⟩ tables.cells } := by
  refine hmirrors.updateRow hrows (fun other key name => ?_) hmirrors.keyed.replace
  by_cases hsame : target = other ∧ rowkey = key ∧ cell.name = name
  · obtain ⟨rfl, rfl, rfl⟩ := hsame
    rw [NestedStore.cell?_updateRow_self hrows, Map.find?_insert_self, Option.map_some,
      NestedStore.toCell_ofCell]
    exact TableStore.cellIn_replace_self hmirrors.keyed
  · rw [TableStore.cellIn_replace_of_ne hsame, hmirrors.cells]
    by_cases hrow : other = target ∧ key = rowkey
    · obtain ⟨rfl, rfl⟩ := hrow
      have hname : name ≠ cell.name := fun hname => hsame ⟨rfl, rfl, hname.symm⟩
      rw [NestedStore.cell?_updateRow_self hrows, Map.find?_insert_of_ne hname]
      rfl
    · rw [NestedStore.cell?_updateRow_of_ne hrows hrow]

/-! ## Keyspaces and tables -/

theorem addKeyspace (hmirrors : Mirrors nested tables) {name : String} (replication : UInt32)
    (hnew : nested.replication? name = none) :
    Mirrors (nested.addKeyspace name replication)
      { tables with keyspaces := tables.keyspaces ++ [⟨name, replication⟩] } where
  nodes := hmirrors.nodes
  replication other := by
    rw [List.find?_append, Option.map_or, hmirrors.replication]
    by_cases hother : other = name
    · rw [hother, hnew, NestedStore.replication?_addKeyspace_self]
      simp
    · rw [NestedStore.replication?_addKeyspace_of_ne hother]
      simp [Ne.symm hother]
  named := by
    refine List.pairwise_append.mpr ⟨hmirrors.named, List.pairwise_singleton _ _, ?_⟩
    intro row hrow added hadded heq
    rw [List.mem_singleton.mp hadded] at heq
    have hany := hmirrors.any_keyspace name
    rw [hnew, Option.isSome_none, List.any_eq_false] at hany
    exact hany row hrow (beq_iff_eq.mpr heq)
  known target := by rw [NestedStore.rows?_addKeyspace hnew, hmirrors.known]
  distinct := hmirrors.distinct
  cells target rowkey column := by
    rw [NestedStore.cell?, NestedStore.rows?_addKeyspace hnew, hmirrors.cells]
    rfl
  keyed := hmirrors.keyed

theorem addTable (hmirrors : Mirrors nested tables) {target : TableName} {replication : UInt32}
    (hkeyspace : nested.replication? target.keyspace = some replication)
    (hnew : nested.rows? target = none) :
    Mirrors (nested.setRows target ∅) { tables with tables := tables.tables ++ [target] } where
  nodes := hmirrors.nodes.trans NestedStore.nodes_setRows.symm
  replication name := (hmirrors.replication name).trans (NestedStore.replication?_setRows name).symm
  named := hmirrors.named
  known other := by
    rw [List.mem_append, hmirrors.known, List.mem_singleton]
    by_cases hother : other = target
    · simp [hother, NestedStore.rows?_setRows_self hkeyspace]
    · simp [hother, NestedStore.rows?_setRows_of_ne hother]
  distinct := by
    refine List.nodup_append.mpr ⟨hmirrors.distinct, List.pairwise_singleton _ _, ?_⟩
    intro found hfound added hadded heq
    rw [heq, List.mem_singleton.mp hadded, hmirrors.known, hnew] at hfound
    cases hfound
  cells other key name := by
    rw [hmirrors.cells]
    by_cases hother : other = target
    · rw [hother, NestedStore.cell?, NestedStore.cell?,
        NestedStore.rows?_setRows_self hkeyspace, hnew]
      rfl
    · rw [NestedStore.cell?, NestedStore.cell?, NestedStore.rows?_setRows_of_ne hother]
  keyed := hmirrors.keyed

/-! ## Calls -/

section Updates

variable (hmirrors : Mirrors nested tables)
include hmirrors

/-- An update ends alike on both stores, and they mirror each other afterwards. -/
def Agree (nested : NestedStore) (tables : TableStore) (first : Update NestedStore Unit)
    (second : Update TableStore Unit) : Prop :=
  (first.exec nested).1 = (second.exec tables).1 ∧
    Mirrors (first.exec nested).2 (second.exec tables).2

theorem agree_batchWrite (mutations : List Mutation) (level : Consistency) :
    Agree nested tables (NestedStore.batchWrite mutations level)
      (TableStore.batchWrite mutations level) := by
  rw [Agree, NestedStore.exec_batchWrite, TableStore.exec_batchWrite, hmirrors.checkAll_eq]
  cases hcheck : nested.checkAll level mutations with
  | error error => exact ⟨rfl, hmirrors⟩
  | ok _ => exact ⟨rfl, hmirrors.allApplied (NestedStore.rows_of_checkAll hcheck)⟩

theorem agree_increment (now : Timestamp) (target : TableName) (rowkey name : Bytes) (delta : Int64)
    (level : Consistency) :
    Agree nested tables (NestedStore.increment now target rowkey name delta level)
      (TableStore.increment now target rowkey name delta level) := by
  have hcounter : tables.counter? now target rowkey name =
      nested.counter? now target rowkey name := by
    rw [TableStore.counter?, TableStore.find?_eq, hmirrors.cells]
    rfl
  rw [Agree, NestedStore.exec_increment, TableStore.exec_increment, hmirrors.checkWrite_eq,
    hcounter]
  cases hcheck : nested.checkWrite target level with
  | error error => exact ⟨rfl, hmirrors⟩
  | ok _ =>
      have hrows := NestedStore.rows_of_checkWrite hcheck
      have htouched := hmirrors.touched rowkey hrows
      dsimp only
      cases addToCounter name (nested.counter? now target rowkey name) delta with
      | error error => exact ⟨rfl, htouched⟩
      | ok value =>
          refine ⟨rfl, htouched.replaced ⟨name, value, now, none⟩ ?_⟩
          rw [NestedStore.isSome_rows?_updateRow hrows]
          exact hrows

theorem agree_createKeyspace (name : String) (replication : UInt32) :
    Agree nested tables (NestedStore.createKeyspace name replication)
      (TableStore.createKeyspace name replication) := by
  rw [Agree, NestedStore.exec_createKeyspace, TableStore.exec_createKeyspace, hmirrors.any_keyspace]
  split
  · exact ⟨rfl, hmirrors⟩
  · split
    · exact ⟨rfl, hmirrors⟩
    next hnew =>
      exact ⟨rfl, hmirrors.addKeyspace replication (Option.not_isSome_iff_eq_none.mp hnew)⟩

theorem agree_createTable (target : TableName) :
    Agree nested tables (NestedStore.createTable target) (TableStore.createTable target) := by
  rw [Agree, NestedStore.exec_createTable, TableStore.exec_createTable, hmirrors.any_keyspace,
    hmirrors.contains_table]
  split
  next hkeyspace =>
    obtain ⟨replication, hreplication⟩ := Option.isSome_iff_exists.mp hkeyspace
    split
    · exact ⟨rfl, hmirrors⟩
    next hnew => exact ⟨rfl, hmirrors.addTable hreplication (Option.not_isSome_iff_eq_none.mp hnew)⟩
  · exact ⟨rfl, hmirrors⟩

/-- Every call gives the same reply on both stores, and they mirror each other
afterwards. -/
theorem perform (now : Timestamp) (call : Store.Call) :
    (Store.perform nested now call).1 = (Store.perform tables now call).1 ∧
      Mirrors (Store.perform nested now call).2 (Store.perform tables now call).2 := by
  have hupdate {first : Update NestedStore Unit} {second : Update TableStore Unit}
      (hagree : Agree nested tables first second) :
      (Store.performUpdate nested first).1 = (Store.performUpdate tables second).1 ∧
        Mirrors (Store.performUpdate nested first).2 (Store.performUpdate tables second).2 :=
    ⟨congrArg (Except.map fun _ => Store.Reply.done) hagree.1, hagree.2⟩
  cases call with
  | read target rowkey names level =>
      have hread := hmirrors.read_eq now target rowkey names level
      exact ⟨congrArg (Except.map Store.Reply.cells) hread, hmirrors⟩
  | readSlice target rowkey range level =>
      have hslice := hmirrors.readSlice_eq now target rowkey range level
      exact ⟨congrArg (Except.map Store.Reply.cells) hslice, hmirrors⟩
  | write mutation level => exact hupdate (hmirrors.agree_batchWrite [mutation] level)
  | batchWrite mutations level => exact hupdate (hmirrors.agree_batchWrite mutations level)
  | increment target rowkey name delta level =>
      exact hupdate (hmirrors.agree_increment now target rowkey name delta level)
  | createKeyspace name replication =>
      exact hupdate (hmirrors.agree_createKeyspace name replication)
  | createTable target => exact hupdate (hmirrors.agree_createTable target)
  | listKeyspaces =>
      refine ⟨?_, hmirrors⟩
      change Except.ok (Store.Reply.names nested.keyspaces.keys) =
        Except.ok (.names (TableStore.sortNames (tables.keyspaces.map (·.keyspace))))
      rw [hmirrors.listKeyspaces_eq]
  | listTables keyspace =>
      exact ⟨congrArg (Except.map Store.Reply.names) (hmirrors.listTables_eq keyspace), hmirrors⟩
  | query keyspace statement version level =>
      have hquery := hmirrors.query_eq now keyspace statement version level
      exact ⟨congrArg (Except.map Store.Reply.cells) hquery, hmirrors⟩

end Updates

end Mirrors

namespace Store

/-- What a store replies to calls that are made one after the other, each with its
reading of the clock. -/
def replies {σ : Type} [Store σ] (store : σ) : List (Timestamp × Call) → List (Except Error Reply)
  | [] => []
  | (now, call) :: rest => (perform store now call).1 :: replies (perform store now call).2 rest

end Store

theorem Mirrors.replies {nested : NestedStore} {tables : TableStore}
    (hmirrors : Mirrors nested tables) (calls : List (Timestamp × Store.Call)) :
    Store.replies nested calls = Store.replies tables calls := by
  induction calls generalizing nested tables with
  | nil => rfl
  | cons call rest ih =>
      obtain ⟨hreply, hafter⟩ := hmirrors.perform call.1 call.2
      rw [Store.replies, Store.replies, hreply, ih hafter]

/-- From empty stores on, no sequence of calls tells the two kinds of store apart. -/
theorem Store.replies_nested_eq_tables (nodes : UInt32) (calls : List (Timestamp × Store.Call)) :
    replies ({ nodes } : NestedStore) calls = replies ({ nodes } : TableStore) calls :=
  (Mirrors.empty nodes).replies calls

end OperationChain
