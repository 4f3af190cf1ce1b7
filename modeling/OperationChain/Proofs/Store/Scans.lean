import OperationChain.Proofs.Store.Counters
import Mathlib.Data.List.Basic

/-! # Point reads, slices and scans

A store has three ways to read a table: columns by their names, a slice of a row, and
a query that goes over all rows. They are three views of the same columns, those that
are live by the clock, and a query lists them as the slices of the rows do.
-/

namespace OperationChain

/-! ## The cell before a row -/

/-- The cell stands for a row key before the live columns under it, and is as new as
the newest of them. -/
structure Cell.Heads (head : Cell) (rowkey : Bytes) (live : List Cell) : Prop where
  name : head.name = Utf8.encode "key"
  value : head.value = rowkey
  ttl : head.ttl = none
  attained : ∃ cell ∈ live, cell.timestamp = head.timestamp
  newest : ∀ cell ∈ live, cell.timestamp ≤ head.timestamp

theorem max_timestamp_cases (a b : Timestamp) :
    (a ≤ b ∧ max a b = b) ∨ (b ≤ a ∧ max a b = a) := by
  by_cases hle : a ≤ b
  · exact .inl ⟨hle, if_pos hle⟩
  · exact .inr ⟨Int64.le_of_lt (Int64.not_le.mp hle), if_neg hle⟩

/-- The newest of a timestamp and those of some cells. -/
theorem foldl_max_timestamp (cells : List Cell) (first : Timestamp) :
    let newest := cells.foldl (fun newest cell => max newest cell.timestamp) first
    (newest = first ∨ ∃ cell ∈ cells, cell.timestamp = newest) ∧
      first ≤ newest ∧ ∀ cell ∈ cells, cell.timestamp ≤ newest := by
  induction cells generalizing first with
  | nil => exact ⟨.inl rfl, Int64.le_refl _, by simp⟩
  | cons cell rest ih =>
      dsimp only
      rw [List.forall_mem_cons, List.foldl_cons]
      rcases max_timestamp_cases first cell.timestamp with ⟨hle, hmax⟩ | ⟨hle, hmax⟩
      · obtain ⟨hattained, hfirst, hrest⟩ := ih cell.timestamp
        rw [hmax]
        refine ⟨.inr ?_, Int64.le_trans hle hfirst, hfirst, hrest⟩
        rcases hattained with heq | ⟨other, hother, heq⟩
        · exact ⟨cell, List.mem_cons_self, heq.symm⟩
        · exact ⟨other, List.mem_cons_of_mem _ hother, heq⟩
      · obtain ⟨hattained, hfirst, hrest⟩ := ih first
        rw [hmax]
        refine ⟨hattained.imp_right ?_, hfirst, Int64.le_trans hle hfirst, hrest⟩
        rintro ⟨other, hother, heq⟩
        exact ⟨other, List.mem_cons_of_mem _ hother, heq⟩

theorem heads_keyCell (rowkey : Bytes) {live : List Cell} (hlive : live ≠ []) :
    (keyCell rowkey live).Heads rowkey live where
  name := rfl
  value := rfl
  ttl := rfl
  attained := by
    obtain ⟨first, rest, rfl⟩ := List.exists_cons_of_ne_nil hlive
    rcases (foldl_max_timestamp (first :: rest) first.timestamp).1 with hnewest | hnewest
    · exact ⟨first, List.mem_cons_self, hnewest.symm⟩
    · exact hnewest
  newest := (foldl_max_timestamp live _).2.2

theorem isLive_keyCell (rowkey : Bytes) (live : List Cell) (now : Timestamp) :
    (keyCell rowkey live).isLive now = true := rfl

/-! ## Statements -/

/-- The statement asks for a table, under the keyspace that it names or that is given,
and for so many rows at most. -/
def Select.Asks (statement version : String) (given : Option String) (target : TableName)
    (limit : Option Nat) : Prop :=
  ∃ select keyspace, parse statement version = .ok select ∧
    select.keyspaceOr given statement = .ok keyspace ∧ target = ⟨keyspace, select.table⟩ ∧
    limit = select.limit

/-! ## Reads of nested maps -/

namespace NestedStore

variable {store : NestedStore} {rows : Rows} {target : TableName} {rowkey : Bytes}
  {now : Timestamp} {level : Consistency} {cell : Cell}

theorem mem_liveCells :
    cell ∈ liveCells (columnsOf rows rowkey) now ↔
      cellOf rows rowkey cell.name = some cell ∧ cell.isLive now = true := by
  rw [liveCells, List.mem_filter, mem_cells, cellOf]

theorem pairwise_liveCells (columns : Columns) (now : Timestamp) :
    (liveCells columns now).Pairwise fun a b => compare a.name b.name = .lt :=
  (pairwise_cells columns).filter _

/-- The keys of the rows of a table that have a live column, in their order. -/
def liveKeys (rows : Rows) (now : Timestamp) : List Bytes := (liveRows rows now).map (·.1)

theorem columns_of_mem_liveRows {row : Bytes × List Cell} (hrow : row ∈ liveRows rows now) :
    row.2 = liveCells (columnsOf rows row.1) now ∧ row.2 ≠ [] := by
  obtain ⟨hrow, hlive⟩ := List.mem_filter.mp hrow
  obtain ⟨⟨rowkey, columns⟩, hentry, rfl⟩ := List.mem_map.mp hrow
  refine ⟨?_, by simpa using hlive⟩
  dsimp only
  rw [columnsOf, Map.mem_entries_iff.mp hentry, Option.getD_some]

/-- The live rows are the slices under their keys. -/
theorem liveRows_eq (rows : Rows) (now : Timestamp) :
    liveRows rows now =
      (liveKeys rows now).map fun rowkey => (rowkey, liveCells (columnsOf rows rowkey) now) := by
  rw [liveKeys, List.map_map]
  refine (List.map_id _).symm.trans (List.map_congr_left fun row hrow => ?_)
  exact Prod.ext rfl (columns_of_mem_liveRows hrow).1

theorem mem_liveKeys :
    rowkey ∈ liveKeys rows now ↔ liveCells (columnsOf rows rowkey) now ≠ [] := by
  rw [liveKeys, List.mem_map]
  constructor
  · rintro ⟨row, hrow, rfl⟩
    obtain ⟨hcells, hlive⟩ := columns_of_mem_liveRows hrow
    rw [← hcells]
    exact hlive
  · intro hlive
    cases hcolumns : rows.find? rowkey with
    | none =>
        rw [columnsOf, hcolumns] at hlive
        exact absurd rfl hlive
    | some columns =>
        rw [columnsOf, hcolumns, Option.getD_some] at hlive
        refine ⟨(rowkey, liveCells columns now), ?_, rfl⟩
        refine List.mem_filter.mpr ⟨?_, by simpa using hlive⟩
        exact List.mem_map.mpr ⟨(rowkey, columns), Map.mem_entries_iff.mpr hcolumns, rfl⟩

theorem pairwise_liveKeys (rows : Rows) (now : Timestamp) :
    (liveKeys rows now).Pairwise fun a b => compare a b = .lt := by
  refine List.pairwise_map.mpr (List.Pairwise.filter _ (List.pairwise_map.mpr ?_))
  exact rows.ascending.imp fun hlt => hlt

section Readable

variable (hrows : store.readable target level = .ok rows)
include hrows

theorem read_of_readable (now : Timestamp) (rowkey : Bytes) (names : List Bytes) :
    store.read now target rowkey names level =
      .ok (names.filterMap fun name =>
        (cellOf rows rowkey name).filter fun cell => cell.isLive now) := by
  rw [read, hrows]
  rfl

theorem readSlice_of_readable (now : Timestamp) (rowkey : Bytes) (range : SliceRange) :
    store.readSlice now target rowkey range level =
      .ok (((liveCells (columnsOf rows rowkey) now).filter fun cell =>
        range.contains cell.name).take range.limit) := by
  rw [readSlice, hrows, liveCells, List.filter_filter]
  rfl

/-- A slice of a whole row. -/
theorem readSlice_open (now : Timestamp) (rowkey : Bytes) {limit : Nat}
    (hlimit : (liveCells (columnsOf rows rowkey) now).length ≤ limit) :
    store.readSlice now target rowkey ⟨[], [], limit⟩ level =
      .ok (liveCells (columnsOf rows rowkey) now) := by
  have hall : ∀ cell ∈ liveCells (columnsOf rows rowkey) now,
      SliceRange.contains ⟨[], [], limit⟩ cell.name = true := fun cell _ => rfl
  rw [readSlice_of_readable hrows, List.filter_eq_self.mpr hall, List.take_of_length_le hlimit]

/-- The columns of a row by the names that its slice has. -/
theorem read_names (now : Timestamp) (rowkey : Bytes) :
    store.read now target rowkey ((liveCells (columnsOf rows rowkey) now).map (·.name)) level =
      .ok (liveCells (columnsOf rows rowkey) now) := by
  rw [read_of_readable hrows, List.filterMap_map]
  refine congrArg Except.ok ((List.filterMap_congr fun cell hcell => ?_).trans List.filterMap_some)
  obtain ⟨hheld, hlive⟩ := mem_liveCells.mp hcell
  exact (congrArg (Option.filter _) hheld).trans (Option.filter_some_pos hlive)

/-- A query lists the slices of the rows that have a live column. -/
theorem query_of_asks (now : Timestamp) {statement version : String} {given : Option String}
    {limit : Option Nat} (hasks : Select.Asks statement version given target limit) :
    store.query now given statement version level =
      .ok ((limit.elim (liveKeys rows now) (liveKeys rows now).take).flatMap fun rowkey =>
        keyCell rowkey (liveCells (columnsOf rows rowkey) now) ::
          liveCells (columnsOf rows rowkey) now) := by
  obtain ⟨select, keyspace, hparse, hkeyspace, rfl, rfl⟩ := hasks
  rw [query, hparse, Except.ok_bind, hkeyspace, Except.ok_bind, hrows, Except.ok_bind]
  refine congrArg Except.ok ?_
  rw [queryCells, liveRows_eq]
  cases select.limit with
  | none => exact List.flatMap_map _ _ _
  | some n =>
      rw [Option.elim_some, Option.elim_some, ← List.map_take]
      exact List.flatMap_map _ _ _

end Readable

/-- Nothing that has expired is read. -/
theorem isLive_of_read {names : List Bytes} {cells : List Cell}
    (hread : store.read now target rowkey names level = .ok cells) (hcell : cell ∈ cells) :
    cell.isLive now = true := by
  obtain ⟨rows, hrows, _⟩ := Except.bind_eq_ok_iff.mp hread
  rw [read_of_readable hrows] at hread
  cases hread
  obtain ⟨name, _, hfound⟩ := List.mem_filterMap.mp hcell
  exact (Option.filter_eq_some_iff.mp hfound).2

theorem isLive_of_readSlice {range : SliceRange} {cells : List Cell}
    (hslice : store.readSlice now target rowkey range level = .ok cells) (hcell : cell ∈ cells) :
    cell.isLive now = true := by
  obtain ⟨rows, hrows, _⟩ := Except.bind_eq_ok_iff.mp hslice
  rw [readSlice_of_readable hrows] at hslice
  cases hslice
  exact (mem_liveCells.mp (List.mem_filter.mp (List.mem_of_mem_take hcell)).1).2

theorem isLive_of_query {given : Option String} {statement version : String} {cells : List Cell}
    (hquery : store.query now given statement version level = .ok cells) (hcell : cell ∈ cells) :
    cell.isLive now = true := by
  obtain ⟨select, _, hquery⟩ := Except.bind_eq_ok_iff.mp hquery
  obtain ⟨keyspace, _, hquery⟩ := Except.bind_eq_ok_iff.mp hquery
  obtain ⟨rows, _, hquery⟩ := Except.bind_eq_ok_iff.mp hquery
  cases hquery
  obtain ⟨row, hrow, hcell⟩ := List.mem_flatMap.mp hcell
  have hrow : row ∈ liveRows rows now := by
    cases hlimit : select.limit with
    | none =>
        rw [hlimit] at hrow
        exact hrow
    | some n =>
        rw [hlimit] at hrow
        exact List.mem_of_mem_take hrow
  rcases List.mem_cons.mp hcell with rfl | hcell
  · exact isLive_keyCell _ _ _
  · rw [(columns_of_mem_liveRows hrow).1] at hcell
    exact (mem_liveCells.mp hcell).2

end NestedStore

/-! ## Reads of a store of either form -/

theorem Mirrors.performed {nested : NestedStore} {tables : TableStore}
    (hmirrors : Mirrors nested tables) (calls : List (Timestamp × Store.Call)) :
    Mirrors (Store.performed nested calls) (Store.performed tables calls) := by
  induction calls generalizing nested tables with
  | nil => exact hmirrors
  | cons call rest ih => exact ih (hmirrors.perform call.1 call.2).2

namespace Storage

theorem performed_nested (store : NestedStore) (calls : List (Timestamp × Store.Call)) :
    Store.performed (nested store) calls = nested (Store.performed store calls) :=
  List.foldl_hom nested fun store call =>
    congrArg Prod.snd (perform_nested store call.1 call.2)

theorem performed_tables (store : TableStore) (calls : List (Timestamp × Store.Call)) :
    Store.performed (tables store) calls = tables (Store.performed store calls) :=
  List.foldl_hom tables fun store call =>
    congrArg Prod.snd (perform_tables store call.1 call.2)

/-- Nested maps hold what a store holds and answer every read as it does. -/
structure ReadsAs (storage : Storage) (nested : NestedStore) : Prop where
  cell? : ∀ target rowkey name, storage.cell? target rowkey name = nested.cell? target rowkey name
  readable : ∀ target level, nested.readable target level =
    (storage.contents.check target level true).map fun _ => (nested.rows? target).getD ∅
  read : ∀ now target rowkey names level,
    Store.read storage now target rowkey names level = nested.read now target rowkey names level
  readSlice : ∀ now target rowkey range level,
    Store.readSlice storage now target rowkey range level =
      nested.readSlice now target rowkey range level
  query : ∀ now given statement version level,
    Store.query storage now given statement version level =
      nested.query now given statement version level

/-- Every store that calls lead to reads as nested maps do. -/
theorem exists_readsAs (mode : StorageMode) (nodes : UInt32)
    (calls : List (Timestamp × Store.Call)) :
    ∃ maps, (Store.performed (Storage.empty mode nodes) calls).ReadsAs maps := by
  cases mode with
  | nested =>
      refine ⟨Store.performed { nodes } calls, ?_⟩
      rw [empty, performed_nested]
      exact {
        cell? := fun _ _ _ => cell?_nested _
        readable := (NestedStore.mirrors_contents _).readable_eq
        read := fun _ _ _ _ _ => rfl
        readSlice := fun _ _ _ _ _ => rfl
        query := fun _ _ _ _ _ => rfl }
  | tables =>
      refine ⟨Store.performed { nodes } calls, ?_⟩
      rw [empty, performed_tables]
      have hmirrors := (Mirrors.empty nodes).performed calls
      exact {
        cell? := hmirrors.cells
        readable := hmirrors.readable_eq
        read := fun now target rowkey names level =>
          (hmirrors.read_eq now target rowkey names level).symm
        readSlice := fun now target rowkey range level =>
          (hmirrors.readSlice_eq now target rowkey range level).symm
        query := fun now given statement version level =>
          (hmirrors.query_eq now given statement version level).symm }

/-- What a table holds that is live: the row keys that have a live column, and the
live columns under each row key, both in order and each once. -/
structure LiveIn (storage : Storage) (target : TableName) (now : Timestamp)
    (rowkeys : List Bytes) (slices : Bytes → List Cell) : Prop where
  ascending : rowkeys.Pairwise fun a b => compare a b = .lt
  rowkey_iff : ∀ rowkey, rowkey ∈ rowkeys ↔
    ∃ name cell, storage.cell? target rowkey name = some cell ∧ cell.isLive now = true
  sorted : ∀ rowkey, (slices rowkey).Pairwise fun a b => compare a.name b.name = .lt
  cell_iff : ∀ rowkey cell, cell ∈ slices rowkey ↔
    storage.cell? target rowkey cell.name = some cell ∧ cell.isLive now = true

theorem ReadsAs.liveIn {storage : Storage} {maps : NestedStore} (hreads : storage.ReadsAs maps)
    (target : TableName) (now : Timestamp) :
    let rows := (maps.rows? target).getD ∅
    storage.LiveIn target now (NestedStore.liveKeys rows now) fun rowkey =>
      NestedStore.liveCells (NestedStore.columnsOf rows rowkey) now := by
  intro rows
  have hcell (rowkey : Bytes) (cell : Cell) :
      cell ∈ NestedStore.liveCells (NestedStore.columnsOf rows rowkey) now ↔
        storage.cell? target rowkey cell.name = some cell ∧ cell.isLive now = true := by
    rw [hreads.cell?]
    exact NestedStore.mem_liveCells
  refine ⟨NestedStore.pairwise_liveKeys rows now, fun rowkey => ?_,
    fun rowkey => NestedStore.pairwise_liveCells _ _, hcell⟩
  rw [NestedStore.mem_liveKeys]
  constructor
  · intro hlive
    obtain ⟨cell, hmem⟩ := List.exists_mem_of_ne_nil _ hlive
    exact ⟨cell.name, cell, (hcell rowkey cell).mp hmem⟩
  · rintro ⟨name, cell, hheld, hlive⟩
    obtain rfl : cell.name = name :=
      NestedStore.cellOf_name ((hreads.cell? target rowkey name).symm.trans hheld)
    exact List.ne_nil_of_mem ((hcell rowkey cell).mpr ⟨hheld, hlive⟩)

/-- Nothing that has expired is in any reply. -/
theorem ReadsAs.isLive_of_perform {storage : Storage} {maps : NestedStore}
    (hreads : storage.ReadsAs maps) {now : Timestamp} {call : Store.Call} {cells : List Cell}
    (hperform : (Store.perform storage now call).1 = .ok (.cells cells)) :
    ∀ cell ∈ cells, cell.isLive now = true := by
  intro cell hcell
  have hnotUpdate (update : Update Storage Unit) :
      (Store.performUpdate storage update).1 ≠ .ok (.cells cells) := by
    intro heq
    obtain ⟨_, _, hdone⟩ := Except.map_eq_ok_iff.mp heq
    cases hdone
  cases call with
  | read target rowkey names level =>
      obtain ⟨_, hread, hcells⟩ := Except.map_eq_ok_iff.mp hperform
      cases hcells
      rw [hreads.read] at hread
      exact NestedStore.isLive_of_read hread hcell
  | readSlice target rowkey range level =>
      obtain ⟨_, hslice, hcells⟩ := Except.map_eq_ok_iff.mp hperform
      cases hcells
      rw [hreads.readSlice] at hslice
      exact NestedStore.isLive_of_readSlice hslice hcell
  | query given statement version level =>
      obtain ⟨_, hquery, hcells⟩ := Except.map_eq_ok_iff.mp hperform
      cases hcells
      rw [hreads.query] at hquery
      exact NestedStore.isLive_of_query hquery hcell
  | write mutation level => exact absurd hperform (hnotUpdate _)
  | batchWrite mutations level => exact absurd hperform (hnotUpdate _)
  | increment target rowkey name delta level => exact absurd hperform (hnotUpdate _)
  | createKeyspace name replication => exact absurd hperform (hnotUpdate _)
  | createTable target => exact absurd hperform (hnotUpdate _)
  | listKeyspaces =>
      obtain ⟨_, _, hnames⟩ := Except.map_eq_ok_iff.mp hperform
      cases hnames
  | listTables keyspace =>
      obtain ⟨_, _, hnames⟩ := Except.map_eq_ok_iff.mp hperform
      cases hnames

/-- All reads of a table fail alike. -/
structure Unreadable (storage : Storage) (now : Timestamp) (target : TableName)
    (level : Consistency) (error : Error) : Prop where
  read : ∀ rowkey names, Store.read storage now target rowkey names level = .error error
  readSlice : ∀ rowkey range, Store.readSlice storage now target rowkey range level = .error error
  query : ∀ statement version given limit, Select.Asks statement version given target limit →
    Store.query storage now given statement version level = .error error

/-- All reads of a table show the same columns: a slice of a whole row, a read of the
names in it, and a query, which puts its own cell before each row. -/
structure Shows (storage : Storage) (now : Timestamp) (target : TableName) (level : Consistency)
    (rowkeys : List Bytes) (slices : Bytes → List Cell) (heads : Bytes → Cell) : Prop where
  readSlice : ∀ rowkey limit, (slices rowkey).length ≤ limit →
    Store.readSlice storage now target rowkey ⟨[], [], limit⟩ level = .ok (slices rowkey)
  read : ∀ rowkey,
    Store.read storage now target rowkey ((slices rowkey).map (·.name)) level = .ok (slices rowkey)
  query : ∀ statement version given limit, Select.Asks statement version given target limit →
    Store.query storage now given statement version level =
      .ok ((limit.elim rowkeys rowkeys.take).flatMap fun rowkey => heads rowkey :: slices rowkey)

theorem ReadsAs.unreadable {storage : Storage} {maps : NestedStore} (hreads : storage.ReadsAs maps)
    {target : TableName} {level : Consistency} {error : Error}
    (hcheck : storage.contents.check target level true = .error error) (now : Timestamp) :
    storage.Unreadable now target level error := by
  have hreadable := hreads.readable target level
  rw [hcheck] at hreadable
  refine ⟨fun rowkey names => ?_, fun rowkey range => ?_, ?_⟩
  · rw [hreads.read, NestedStore.read, hreadable]
    rfl
  · rw [hreads.readSlice, NestedStore.readSlice, hreadable]
    rfl
  · rintro statement version given limit ⟨select, keyspace, hparse, hkeyspace, rfl, rfl⟩
    rw [hreads.query, NestedStore.query, hparse, Except.ok_bind, hkeyspace, Except.ok_bind,
      hreadable]
    rfl

theorem ReadsAs.shows {storage : Storage} {maps : NestedStore} (hreads : storage.ReadsAs maps)
    {target : TableName} {level : Consistency}
    (hcheck : storage.contents.check target level true = .ok ()) (now : Timestamp) :
    let rows := (maps.rows? target).getD ∅
    let slices := fun rowkey => NestedStore.liveCells (NestedStore.columnsOf rows rowkey) now
    storage.Shows now target level (NestedStore.liveKeys rows now) slices
      fun rowkey => keyCell rowkey (slices rowkey) := by
  intro rows slices
  have hrows : maps.readable target level = .ok rows := by
    rw [hreads.readable, hcheck]
    rfl
  refine ⟨fun rowkey limit hlimit => ?_, fun rowkey => ?_,
    fun statement version given limit hasks => ?_⟩
  · rw [hreads.readSlice]
    exact NestedStore.readSlice_open hrows now rowkey hlimit
  · rw [hreads.read]
    exact NestedStore.read_names hrows now rowkey
  · rw [hreads.query]
    exact NestedStore.query_of_asks hrows now hasks

/-- Whatever calls have been made of a store, and whatever the clock says, the reads of
a table agree. Either all of them fail with the error of the check, or they show the
columns of the table that are live: a slice of a whole row those under its row key, a
read of the names in that slice the same, and a query, over the row keys in their
order up to its limit, those under each row key behind one cell for the key. No cell
that has expired is in the reply of any call. -/
theorem reads_agree_of_performed (mode : StorageMode) (nodes : UInt32)
    (calls : List (Timestamp × Store.Call)) (now : Timestamp) :
    let storage := Store.performed (Storage.empty mode nodes) calls
    (∀ target level,
      (∃ error, storage.contents.check target level true = .error error ∧
          storage.Unreadable now target level error) ∨
        (storage.contents.check target level true = .ok () ∧
          ∃ rowkeys slices heads, storage.LiveIn target now rowkeys slices ∧
            (∀ rowkey ∈ rowkeys, (heads rowkey).Heads rowkey (slices rowkey)) ∧
            storage.Shows now target level rowkeys slices heads)) ∧
      ∀ call cells, (Store.perform storage now call).1 = .ok (.cells cells) →
        ∀ cell ∈ cells, cell.isLive now = true := by
  intro storage
  obtain ⟨maps, hreads⟩ : ∃ maps, storage.ReadsAs maps := exists_readsAs mode nodes calls
  refine ⟨fun target level => ?_, fun call cells => hreads.isLive_of_perform⟩
  cases hcheck : storage.contents.check target level true with
  | error error => exact .inl ⟨error, rfl, hreads.unreadable hcheck now⟩
  | ok _ =>
      refine .inr ⟨rfl, _, _, _, hreads.liveIn target now, fun rowkey hrowkey => ?_,
        hreads.shows hcheck now⟩
      exact heads_keyCell rowkey (NestedStore.mem_liveKeys.mp hrowkey)

/-- Of three rows one has expired and one in part; the other two are listed. -/
theorem reads_agree_of_performed_partly_expired :
    let target : TableName := ⟨"ks", "t"⟩
    let calls : List (Timestamp × Store.Call) :=
      [(0, .createKeyspace "ks" 1), (0, .createTable target),
        (0, .batchWrite [⟨target, [2], ⟨[8], [], 7, none⟩⟩, ⟨target, [1], ⟨[9], [], 3, some 1⟩⟩,
          ⟨target, [1], ⟨[8], [], 5, some 4⟩⟩, ⟨target, [3], ⟨[8], [], 6, some 0⟩⟩] .one)]
    let storage := Store.performed (Storage.empty .nested 1) calls
    let cells : List Cell :=
      [⟨Utf8.encode "key", [1], 5, none⟩, ⟨[8], [], 5, some 4⟩,
        ⟨Utf8.encode "key", [2], 7, none⟩, ⟨[8], [], 7, none⟩]
    (∃ rowkeys slices heads, storage.LiveIn target 2000000 rowkeys slices ∧
        storage.Shows 2000000 target .one rowkeys slices heads) ∧
      (Store.perform storage 2000000 (.query none "select * from ks.t" "3" .one)).1 =
          .ok (.cells cells) ∧
        ∀ cell ∈ cells, cell.isLive 2000000 = true := by
  intro target calls storage cells
  obtain ⟨htables, hlive⟩ := reads_agree_of_performed .nested 1 calls 2000000
  have hquery : (Store.perform storage 2000000 (.query none "select * from ks.t" "3" .one)).1 =
      .ok (.cells cells) := by decide +zetaReduce
  refine ⟨?_, hquery, hlive _ cells hquery⟩
  rcases htables target .one with ⟨error, hcheck, _⟩ | ⟨_, rowkeys, slices, heads, hin, _, hshows⟩
  · have hok : storage.contents.check target .one true = .ok () := by
      decide +zetaReduce
    cases hok.symm.trans hcheck
  · exact ⟨rowkeys, slices, heads, hin, hshows⟩

end Storage

end OperationChain
