import OperationChain.Ordered.Map
import OperationChain.Store.Basic
import OperationChain.Store.Statement

/-! # A store of nested maps

Keyspaces by name hold tables by name, tables hold rows by key, and rows hold
columns by name. Expired columns stay where they are and are passed over by every
read.
-/

namespace OperationChain

/-- A column without its name. -/
structure StoredCell where
  value : Bytes
  timestamp : Timestamp
  ttl : Option UInt32
  deriving DecidableEq, Repr

/-- The columns of a row, by name. -/
abbrev Columns := Map Bytes StoredCell

/-- The rows of a table, by key. -/
abbrev Rows := Map Bytes Columns

/-- A keyspace: its replication and its tables by name. -/
structure Keyspace where
  replication : UInt32
  tables : Map String Rows := ∅

/-- A store that keeps everything in maps, with a number of live replicas. -/
structure NestedStore where
  nodes : UInt32 := 1
  keyspaces : Map String Keyspace := ∅

namespace NestedStore

/-- A column with its name. -/
def toCell (name : Bytes) (stored : StoredCell) : Cell :=
  ⟨name, stored.value, stored.timestamp, stored.ttl⟩

/-- A column without its name. -/
def ofCell (cell : Cell) : StoredCell := ⟨cell.value, cell.timestamp, cell.ttl⟩

/-- All columns of a row, in the order of their names. -/
def cells (columns : Columns) : List Cell :=
  columns.entries.map fun (name, stored) => toCell name stored

/-- The live columns of a row, in the order of their names. -/
def liveCells (columns : Columns) (now : Timestamp) : List Cell :=
  (cells columns).filter fun cell => cell.isLive now

/-- The columns of a row, none if it is not there. -/
def columnsOf (rows : Rows) (rowkey : Bytes) : Columns := (rows.find? rowkey).getD ∅

def keyspace (store : NestedStore) (name : String) : Except Error Keyspace :=
  match store.keyspaces.find? name with
  | some keyspace => .ok keyspace
  | none => .error (.store (.unknownKeyspace name))

/-- The rows of a table and the replication of its keyspace. -/
def table (store : NestedStore) (target : TableName) : Except Error (Rows × UInt32) := do
  let keyspace ← store.keyspace target.keyspace
  match keyspace.tables.find? target.table with
  | some rows => .ok (rows, keyspace.replication)
  | none => .error (.store (.unknownTable target.keyspace target.table))

/-- The rows of a table that a level allows to be read. -/
def readable (store : NestedStore) (target : TableName) (level : Consistency) :
    Except Error Rows := do
  let (rows, replication) ← store.table target
  checkConsistency level replication store.nodes true
  return rows

/-- Fails where a table is missing or a level does not allow it to be written. -/
def checkWrite (store : NestedStore) (target : TableName) (level : Consistency) :
    Except Error Unit := do
  let (_, replication) ← store.table target
  checkConsistency level replication store.nodes false

/-- Columns after a write to one of them, which counts unless the column is newer. -/
def applyCell (columns : Columns) (cell : Cell) : Columns :=
  match columns.find? cell.name with
  | some existing =>
    if existing.timestamp ≤ cell.timestamp then columns.insert cell.name (ofCell cell) else columns
  | none => columns.insert cell.name (ofCell cell)

/-- The store with these rows in a table of a keyspace that it has. -/
def setRows (store : NestedStore) (target : TableName) (rows : Rows) : NestedStore :=
  match store.keyspaces.find? target.keyspace with
  | none => store
  | some keyspace =>
    let tables := keyspace.tables.insert target.table rows
    { store with keyspaces := store.keyspaces.insert target.keyspace { keyspace with tables } }

/-- Changes the columns of a row, which is there from then on. Its table has to be
there before. -/
def changeRow (target : TableName) (rowkey : Bytes) (change : Columns → Columns) :
    Update NestedStore Unit := do
  let store ← get
  let (rows, _) ← Update.lift (store.table target)
  set (store.setRows target (rows.insert rowkey (change (columnsOf rows rowkey))))

/-- Applies writes one after the other. -/
def writeAll : List Mutation → Update NestedStore Unit
  | [] => return
  | mutation :: rest => do
    changeRow mutation.target mutation.rowkey fun columns => applyCell columns mutation.cell
    writeAll rest

/-- Checks every target of a batch before anything is written. -/
def checkAll (store : NestedStore) (level : Consistency) : List Mutation → Except Error Unit
  | [] => .ok ()
  | mutation :: rest => do
    store.checkWrite mutation.target level
    store.checkAll level rest

/-- The rows of a table that have a live column, with their live columns, in the
order of their keys. -/
def liveRows (rows : Rows) (now : Timestamp) : List (Bytes × List Cell) :=
  (rows.entries.map fun (rowkey, columns) => (rowkey, liveCells columns now)).filter fun row =>
    !row.2.isEmpty

def read (store : NestedStore) (now : Timestamp) (target : TableName) (rowkey : Bytes)
    (names : List Bytes) (level : Consistency) : Except Error (List Cell) := do
  let columns := columnsOf (← store.readable target level) rowkey
  return names.filterMap fun name =>
    ((columns.find? name).map (toCell name)).filter fun cell => cell.isLive now

def readSlice (store : NestedStore) (now : Timestamp) (target : TableName) (rowkey : Bytes)
    (range : SliceRange) (level : Consistency) : Except Error (List Cell) := do
  let columns := columnsOf (← store.readable target level) rowkey
  let live := (cells columns).filter fun cell => range.contains cell.name && cell.isLive now
  return live.take range.limit

def batchWrite (mutations : List Mutation) (level : Consistency) : Update NestedStore Unit := do
  Update.lift ((← get).checkAll level mutations)
  writeAll mutations

/-- The row of the counter is there even if the column turns out to hold none. -/
def increment (now : Timestamp) (target : TableName) (rowkey name : Bytes) (delta : Int64)
    (level : Consistency) : Update NestedStore Unit := do
  Update.lift ((← get).checkWrite target level)
  changeRow target rowkey id
  let (rows, _) ← Update.lift ((← get).table target)
  let columns := columnsOf rows rowkey
  let current := ((columns.find? name).map (toCell name)).filter fun cell => cell.isLive now
  let value ← Update.lift (addToCounter name (current.map (·.value)) delta)
  changeRow target rowkey fun columns => columns.insert name ⟨value, now, none⟩

def createKeyspace (name : String) (replication : UInt32) : Update NestedStore Unit := do
  if replication = 0 then throw (.store .noReplicas)
  let store ← get
  if store.keyspaces.contains name then throw (.store (.keyspaceExists name))
  set { store with keyspaces := store.keyspaces.insert name { replication } }

def createTable (target : TableName) : Update NestedStore Unit := do
  let store ← get
  let keyspace ← Update.lift (store.keyspace target.keyspace)
  if keyspace.tables.contains target.table then
    throw (.store (.tableExists target.keyspace target.table))
  set (store.setRows target ∅)

def listTables (store : NestedStore) (name : String) : Except Error (List String) :=
  (store.keyspace name).map fun keyspace => keyspace.tables.keys

def query (store : NestedStore) (now : Timestamp) (given : Option String)
    (statement version : String) (level : Consistency) : Except Error (List Cell) := do
  let select ← Select.parse statement version
  let keyspace ← select.keyspaceOr given statement
  let rows ← store.readable ⟨keyspace, select.table⟩ level
  return queryCells select.limit (liveRows rows now)

instance : Store NestedStore where
  read := read
  readSlice := readSlice
  batchWrite := batchWrite
  increment := increment
  createKeyspace := createKeyspace
  createTable := createTable
  listKeyspaces store := .ok store.keyspaces.keys
  listTables := listTables
  query := query

end NestedStore

end OperationChain
