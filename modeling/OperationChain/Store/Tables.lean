import OperationChain.Store.Basic
import OperationChain.Store.Statement

/-! # A store of flat tables

Three relations without any order: keyspaces, tables and cells, where each cell
carries the whole key of its column. Reads choose rows of a relation by their key
and sort what they found. A batch checks and writes one mutation after the other,
and what it wrote is dropped if a later one fails.
-/

namespace OperationChain

/-- A row of the relation of keyspaces. -/
structure KeyspaceRow where
  keyspace : String
  replication : UInt32
  deriving DecidableEq, Repr

/-- A row of the relation of cells. -/
structure CellRow where
  target : TableName
  rowkey : Bytes
  cell : Cell
  deriving DecidableEq, Repr

/-- A store that keeps everything in flat relations, with a number of live replicas. -/
@[ext]
structure TableStore where
  nodes : UInt32 := 1
  keyspaces : List KeyspaceRow := []
  tables : List TableName := []
  cells : List CellRow := []

namespace TableStore

/-- Whether two rows hold the same column. -/
def CellRow.sameKey (a b : CellRow) : Bool :=
  a.target == b.target && a.rowkey == b.rowkey && a.cell.name == b.cell.name

/-- The replication of a keyspace that has the wanted table. -/
def replication (store : TableStore) (target : TableName) : Except Error UInt32 :=
  match store.keyspaces.find? fun row => row.keyspace == target.keyspace with
  | none => .error (.store (.unknownKeyspace target.keyspace))
  | some row =>
    if store.tables.contains target then .ok row.replication
    else .error (.store (.unknownTable target.keyspace target.table))

def knownKeyspace (store : TableStore) (keyspace : String) : Except Error Unit :=
  if store.keyspaces.any fun row => row.keyspace == keyspace then .ok ()
  else .error (.store (.unknownKeyspace keyspace))

/-- Fails where a table is missing or a level does not allow the access. -/
def check (store : TableStore) (target : TableName) (level : Consistency) (reading : Bool) :
    Except Error Unit := do
  checkConsistency level (← store.replication target) store.nodes reading

/-- The cell of a column. -/
def find? (store : TableStore) (target : TableName) (rowkey name : Bytes) : Option Cell :=
  (store.cells.find? fun row =>
    row.target == target && row.rowkey == rowkey && row.cell.name == name).map (·.cell)

/-- Rows after one is written: in place of the row of its column, unless that row is
newer, or else as another row. -/
def upsert (row : CellRow) : List CellRow → List CellRow
  | [] => [row]
  | existing :: rest =>
    if CellRow.sameKey existing row then
      (if existing.cell.timestamp ≤ row.cell.timestamp then row else existing) :: rest
    else existing :: upsert row rest

/-- Rows after one is written in place of any row of its column. -/
def replace (row : CellRow) (rows : List CellRow) : List CellRow :=
  (rows.filter fun existing => !CellRow.sameKey existing row) ++ [row]

/-- Cells in the order of their names. -/
def sortByName (cells : List Cell) : List Cell :=
  cells.mergeSort fun a b => (compare a.name b.name).isLE

/-- Rows of cells in the order of their row keys, and of their names within one row
key. -/
def sortByKey (rows : List CellRow) : List CellRow :=
  rows.mergeSort fun a b =>
    ((compare a.rowkey b.rowkey).then (compare a.cell.name b.cell.name)).isLE

/-- Puts a row before groups of rows; it joins the first group if they share their
row key. -/
def group (row : CellRow) : List (Bytes × List Cell) → List (Bytes × List Cell)
  | [] => [(row.rowkey, [row.cell])]
  | (rowkey, cells) :: rest =>
    if row.rowkey = rowkey then (rowkey, row.cell :: cells) :: rest
    else (row.rowkey, [row.cell]) :: (rowkey, cells) :: rest

/-- Rows that follow each other under one row key, together. -/
def groups (rows : List CellRow) : List (Bytes × List Cell) := rows.foldr group []

def read (store : TableStore) (now : Timestamp) (target : TableName) (rowkey : Bytes)
    (names : List Bytes) (level : Consistency) : Except Error (List Cell) := do
  store.check target level true
  return names.filterMap fun name =>
    (store.find? target rowkey name).filter fun cell => cell.isLive now

def readSlice (store : TableStore) (now : Timestamp) (target : TableName) (rowkey : Bytes)
    (range : SliceRange) (level : Consistency) : Except Error (List Cell) := do
  store.check target level true
  let found := store.cells.filter fun row =>
    row.target == target && row.rowkey == rowkey && range.contains row.cell.name
  return ((sortByName (found.map (·.cell))).filter fun cell => cell.isLive now).take range.limit

/-- Goes back to the store from before, if an update of it fails. -/
def transaction (update : Update TableStore Unit) : Update TableStore Unit := do
  let store ← get
  try update
  catch error =>
    set store
    throw error

/-- Writes of a batch, each after its own check. -/
def writeAll (level : Consistency) : List Mutation → Update TableStore Unit
  | [] => return
  | mutation :: rest => do
    Update.lift ((← get).check mutation.target level false)
    let row : CellRow := ⟨mutation.target, mutation.rowkey, mutation.cell⟩
    modify fun store => { store with cells := upsert row store.cells }
    writeAll level rest

def batchWrite (mutations : List Mutation) (level : Consistency) : Update TableStore Unit :=
  transaction (writeAll level mutations)

def increment (now : Timestamp) (target : TableName) (rowkey name : Bytes) (delta : Int64)
    (level : Consistency) : Update TableStore Unit := transaction do
  let store ← get
  Update.lift (store.check target level false)
  let current := (store.find? target rowkey name).filter fun cell => cell.isLive now
  let value ← Update.lift (addToCounter name (current.map (·.value)) delta)
  set { store with cells := replace ⟨target, rowkey, name, value, now, none⟩ store.cells }

def createKeyspace (name : String) (replication : UInt32) : Update TableStore Unit := do
  if replication = 0 then throw (.store .noReplicas)
  let store ← get
  if store.keyspaces.any fun row => row.keyspace == name then throw (.store (.keyspaceExists name))
  set { store with keyspaces := store.keyspaces ++ [KeyspaceRow.mk name replication] }

def createTable (target : TableName) : Update TableStore Unit := do
  let store ← get
  Update.lift (store.knownKeyspace target.keyspace)
  if store.tables.contains target then
    throw (.store (.tableExists target.keyspace target.table))
  set { store with tables := store.tables ++ [target] }

/-- Names in ascending order. -/
def sortNames (names : List String) : List String :=
  names.mergeSort fun a b => (compare a b).isLE

def listKeyspaces (store : TableStore) : Except Error (List String) :=
  .ok (sortNames (store.keyspaces.map (·.keyspace)))

def listTables (store : TableStore) (keyspace : String) : Except Error (List String) := do
  store.knownKeyspace keyspace
  return sortNames ((store.tables.filter fun name => name.keyspace == keyspace).map (·.table))

def query (store : TableStore) (now : Timestamp) (given : Option String)
    (statement version : String) (level : Consistency) : Except Error (List Cell) := do
  let select ← Select.parse statement version
  let keyspace ← select.keyspaceOr given statement
  let target : TableName := ⟨keyspace, select.table⟩
  store.check target level true
  let rows := sortByKey (store.cells.filter fun row => row.target == target)
  return queryCells select.limit (groups (rows.filter fun row => row.cell.isLive now))

instance : Store TableStore where
  read := read
  readSlice := readSlice
  batchWrite := batchWrite
  increment := increment
  createKeyspace := createKeyspace
  createTable := createTable
  listKeyspaces := listKeyspaces
  listTables := listTables
  query := query

end TableStore

end OperationChain
