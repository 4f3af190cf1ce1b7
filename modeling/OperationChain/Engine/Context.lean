import OperationChain.Arguments
import OperationChain.Engine.Basic

/-! # What an operation works with

The settings that hold for one operation, and what its arguments mean under them:
the writes it makes, the range it reads, and the rows that the cells it read become.
-/

namespace OperationChain

/-- The settings of one operation: its own, and for those it does not name the ones
of the session. -/
structure Context where
  keyspace? : Option String
  table? : Option String
  consistency : Consistency
  timeout : UInt64
  ttl : Option UInt32

namespace Context

/-- The settings of an operation in a session. -/
def of (session : Session) (operation : Operation) (timeout : UInt64) : Context where
  keyspace? := operation.overrides.keyspace.or session.defaults.keyspace
  table? := operation.overrides.table.or session.defaults.table
  consistency := operation.overrides.consistency.getD session.defaults.consistency
  timeout := operation.overrides.timeout.getD timeout
  ttl := operation.overrides.ttl

def keyspace (ctx : Context) : Except Error String :=
  match ctx.keyspace? with
  | some keyspace => .ok keyspace
  | none => .error (.validation .noKeyspace)

def table (ctx : Context) : Except Error String :=
  match ctx.table? with
  | some table => .ok table
  | none => .error (.validation .noTable)

/-- The table that an operation works on. -/
def target (ctx : Context) : Except Error TableName := do
  return ⟨← ctx.keyspace, ← ctx.table⟩

/-- The table that the arguments name, or else the one of the settings. -/
def tableOf (ctx : Context) (args : Arguments) : Except Error String := do
  match ← args.table? with
  | some table => return table
  | none => ctx.table

/-- The keyspace that the arguments name, or else the one of the settings. -/
def keyspaceOf (ctx : Context) (args : Arguments) : Except Error String := do
  match ← args.text? "keyspace" with
  | some keyspace => return keyspace
  | none => ctx.keyspace

end Context

namespace Session

/-- A column name as it is stored. -/
def encodeName (session : Session) (target : TableName) (name : Value) : Except Error Bytes :=
  encode name (session.assumed target.keyspace target.table .name)

/-- A value as it is stored. -/
def encodeValue (session : Session) (target : TableName) (value : Value) : Except Error Bytes :=
  encode value (session.assumed target.keyspace target.table .value)

/-- The timestamp of a write: the one that is given, or else the reading of the
clock if the session takes it. -/
def timestamp (session : Session) (given : Option Int64) (now : Timestamp) :
    Except Error Timestamp :=
  match given with
  | some timestamp => .ok timestamp
  | none =>
    if session.defaults.autoTimestamp then .ok now
    else .error (.validation .timestampRequired)

/-- The row of a cell, read under the types that the session assumes. -/
def decodeCell (session : Session) (target : TableName) (cell : Cell) : Except Error Row := do
  return {
    name := some (← decode cell.name (session.assumed target.keyspace target.table .name))
    value := some (← decode cell.value (session.assumed target.keyspace target.table .value))
    timestamp := some cell.timestamp
    ttl := cell.ttl }

end Session

/-- The time to live of a write, in seconds: the one that is given, or else that of
the settings. -/
def Context.ttlOf (ctx : Context) (given : Option Int64) : Except Error (Option UInt32) :=
  match given with
  | none => .ok ctx.ttl
  | some seconds =>
    match Numeral.toUInt32? seconds.toInt with
    | some ttl => .ok (some ttl)
    | none => .error (.validation (.invalidTtl seconds.toInt))

/-- The write of a `set`. -/
def setMutation (ctx : Context) (args : Arguments) (session : Session) (now : Timestamp) :
    Except Error Mutation := do
  let target ← ctx.target
  let rowkey ← encodeNatural (← args.required "rowkey")
  let name ← session.encodeName target (← args.required "name")
  let value ← session.encodeValue target (← args.required "value")
  let timestamp ← session.timestamp (← args.integer? "timestamp") now
  let ttl ← ctx.ttlOf (← args.integer? "ttl")
  return ⟨target, rowkey, name, value, timestamp, ttl⟩

namespace BatchRow

/-- A field of a row of a batch, unless it is null. -/
def field? (fields : List (String × Value)) (key : String) : Option Value :=
  (Entries.find? key fields).filter fun value => !value.isNull

def required (fields : List (String × Value)) (key : String) : Except Error Value :=
  match field? fields key with
  | some value => .ok value
  | none => .error (.validation (.batchRowMissing key))

def text? (fields : List (String × Value)) (key : String) : Except Error (Option String) :=
  match field? fields key with
  | none => .ok none
  | some (.text s) => .ok (some s)
  | some other => .error (.validation (.batchRowNotText key other.shape))

def integer? (fields : List (String × Value)) (key : String) : Except Error (Option Int64) :=
  match field? fields key with
  | none => .ok none
  | some value =>
    match value.int? with
    | some n => .ok (some n)
    | none => .error (.validation (.batchRowNotInteger key value.shape))

end BatchRow

/-- The write of one row of a batch. What the row does not name is taken from the
settings. -/
def batchMutation (ctx : Context) (session : Session) (now : Timestamp) (row : Value) :
    Except Error Mutation := do
  let fields ← match row with
    | .map entries => .ok entries
    | other => .error (.validation (.batchRowNotMap other.shape))
  let keyspace ← match ← BatchRow.text? fields "keyspace" with
    | some keyspace => pure keyspace
    | none => ctx.keyspace
  let table? ← BatchRow.text? fields "table"
  let columnfamily? ← BatchRow.text? fields "columnfamily"
  let table ← match table?.or columnfamily? with
    | some table => pure table
    | none => ctx.table
  let target : TableName := ⟨keyspace, table⟩
  let rowkey ← encodeNatural (← BatchRow.required fields "rowkey")
  let name ← session.encodeName target (← BatchRow.required fields "name")
  let value ← session.encodeValue target (← BatchRow.required fields "value")
  let timestamp ← session.timestamp (← BatchRow.integer? fields "timestamp") now
  let ttl ← ctx.ttlOf (← BatchRow.integer? fields "ttl")
  return ⟨target, rowkey, name, value, timestamp, ttl⟩

/-- How many columns a slice takes at most, if it does not say so. -/
def defaultSliceLimit : Int64 := 100

/-- A bound of a slice, open where it is absent or empty text. -/
def sliceBound (args : Arguments) (session : Session) (target : TableName) (key : String) :
    Except Error Bytes :=
  match args.get? key with
  | none => .ok []
  | some (.text "") => .ok []
  | some value => session.encodeName target value

/-- The range of a `slice`. -/
def sliceRange (args : Arguments) (session : Session) (target : TableName) :
    Except Error SliceRange := do
  let limit := ((← args.integer? "limit").getD defaultSliceLimit).toInt
  let start ← sliceBound args session target "start"
  let finish ← sliceBound args session target "end"
  if 0 ≤ limit then return ⟨start, finish, limit.toNat⟩
  else throw (.validation (.invalidLimit limit))

/-- The rows that the filter of a session accepts, if the session has one. -/
def Session.filterRows (session : Session) (registry : Registry) (rows : List Row) :
    Except Error (List Row) :=
  match session.filter with
  | none => .ok rows
  | some name => do
    let filter ← registry.filter name
    match filter.apply rows with
    | some accepted => return accepted
    | none => throw (.extension (.panicked .filter name))

/-- The rows cut to the components that a session selects, if it selects some. -/
def Session.selectComponents (session : Session) (rows : List Row) : List Row :=
  match session.components with
  | none => rows
  | some keep => rows.map fun row => row.select keep

/-- What a read answers: its cells as rows, filtered and then cut as the session
wants it. -/
def Session.finish (session : Session) (registry : Registry) (target : TableName)
    (cells : List Cell) : Except Error Record := do
  let rows ← cells.mapM (session.decodeCell target)
  let accepted ← session.filterRows registry rows
  return .rows (session.selectComponents accepted)

/-- How long the filter of a session takes for the rows of cells, in milliseconds. It
sees none of them where one cannot be decoded. -/
def Session.filterTime (session : Session) (registry : Registry) (target : TableName)
    (cells : List Cell) : Nat :=
  let filter := session.filter.bind fun name => (registry.filter name).toOption
  match filter, cells.mapM (session.decodeCell target) with
  | some filter, .ok rows => filter.millis rows
  | _, _ => 0

/-- The captured rows of an operation. -/
def Session.capturedRows (session : Session) (index : Int64) : Except Error (List Row) := do
  match ← session.results.get index.toInt with
  | .rows list => return list
  | _ => throw (.reference (.notRows index.toInt))

end OperationChain
