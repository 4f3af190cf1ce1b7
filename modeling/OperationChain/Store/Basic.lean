import OperationChain.DataType.Codec
import OperationChain.Program
import OperationChain.Store.Cell

/-! # Stores

What a chain asks of a store. Every call that depends on time is given the reading
of the clock at which it happens. A read leaves the store as it is; a write is a
program over the store.
-/

namespace OperationChain

/-- A change of a store, or of something else, which may fail on its way. -/
abbrev Update (σ : Type) := Program Error σ

/-- A result or an error that depends on nothing else. -/
def Update.lift {σ α : Type} (result : Except Error α) : Update σ α :=
  match result with
  | .ok a => pure a
  | .error e => throw e

/-- A wide-column store: keyspaces hold tables, tables hold rows by key, rows hold
columns by name. -/
class Store (σ : Type) where
  /-- The live columns of a row with these names, in the order of the names. -/
  read : σ → (now : Timestamp) → TableName → (rowkey : Bytes) → (names : List Bytes) → Consistency →
    Except Error (List Cell)
  /-- The first live columns of a row whose names lie in a range, in the order of
  their names. -/
  readSlice : σ → (now : Timestamp) → TableName → (rowkey : Bytes) → SliceRange → Consistency →
    Except Error (List Cell)
  /-- Applies all writes in order, or none of them. The later timestamp wins, and
  the later write where two are the same. -/
  batchWrite : List Mutation → Consistency → Update σ Unit
  /-- Adds to the counter that a column holds; a column that is not live counts from
  zero. -/
  increment : (now : Timestamp) → TableName → (rowkey : Bytes) → (name : Bytes) → (delta : Int64) →
    Consistency → Update σ Unit
  createKeyspace : (name : String) → (replication : UInt32) → Update σ Unit
  createTable : TableName → Update σ Unit
  listKeyspaces : σ → Except Error (List String)
  listTables : σ → (keyspace : String) → Except Error (List String)
  /-- Answers a statement: for each row with a live column, one cell with the row
  key and then its live columns. -/
  query : σ → (now : Timestamp) → (keyspace : Option String) → (statement version : String) →
    Consistency → Except Error (List Cell)

/-- A call of a store. -/
inductive Store.Call where
  | read (target : TableName) (rowkey : Bytes) (names : List Bytes) (level : Consistency)
  | readSlice (target : TableName) (rowkey : Bytes) (range : SliceRange) (level : Consistency)
  | write (mutation : Mutation) (level : Consistency)
  | batchWrite (mutations : List Mutation) (level : Consistency)
  | increment (target : TableName) (rowkey name : Bytes) (delta : Int64) (level : Consistency)
  | createKeyspace (name : String) (replication : UInt32)
  | createTable (target : TableName)
  | listKeyspaces
  | listTables (keyspace : String)
  | query (keyspace : Option String) (statement version : String) (level : Consistency)

/-- What a call of a store answers. -/
inductive Store.Reply where
  | done
  | names (names : List String)
  | cells (cells : List Cell)
  deriving DecidableEq

namespace Store

variable {σ : Type} [Store σ]

/-- Writes one column. -/
def write (mutation : Mutation) (level : Consistency) : Update σ Unit := batchWrite [mutation] level

/-- Makes a call that updates a store. -/
def performUpdate (store : σ) (update : Update σ Unit) : Except Error Reply × σ :=
  let (result, after) := update.exec store
  (result.map fun _ => .done, after)

/-- Makes a call: its answer, and the store after it. -/
def perform (store : σ) (now : Timestamp) : Call → Except Error Reply × σ
  | .read target rowkey names level =>
    ((read store now target rowkey names level).map .cells, store)
  | .readSlice target rowkey range level =>
    ((readSlice store now target rowkey range level).map .cells, store)
  | .write mutation level => performUpdate store (write mutation level)
  | .batchWrite mutations level => performUpdate store (batchWrite mutations level)
  | .increment target rowkey name delta level =>
    performUpdate store (increment now target rowkey name delta level)
  | .createKeyspace name replication => performUpdate store (createKeyspace name replication)
  | .createTable target => performUpdate store (createTable target)
  | .listKeyspaces => ((listKeyspaces store).map .names, store)
  | .listTables keyspace => ((listTables store keyspace).map .names, store)
  | .query keyspace statement version level =>
    ((query store now keyspace statement version level).map .cells, store)

end Store

/-- The value of a counter after an addition, from the value of its live column.
Counters are words of 64 bits and do not wrap. -/
def addToCounter (column : Bytes) (current : Option Bytes) (delta : Int64) : Except Error Bytes :=
  match current.elim (some 0) Bytes.toInt64? with
  | none => .error (.store (.notCounter (Utf8.decodeLossy column)))
  | some n =>
    match Numeral.toInt64? (n.toInt + delta.toInt) with
    | some total => .ok (Bytes.ofInt64 total)
    | none => .error (.store .counterOverflow)

/-- The cell that a query puts before the live columns of a row: the row key, under
the newest of their timestamps. -/
def keyCell (rowkey : Bytes) (live : List Cell) : Cell where
  name := Utf8.encode "key"
  value := rowkey
  timestamp := live.foldl (fun newest cell => max newest cell.timestamp)
    ((live.head?.map (·.timestamp)).getD 0)
  ttl := none

/-- What a query answers for rows with live columns: at most `limit` rows, each with
its key first. -/
def queryCells (limit : Option Nat) (rows : List (Bytes × List Cell)) : List Cell :=
  ((limit.elim rows rows.take).flatMap fun row => keyCell row.1 row.2 :: row.2)

end OperationChain
