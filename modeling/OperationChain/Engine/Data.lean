import OperationChain.Engine.Context

/-! # Operations on the store

Reads, writes, the administration of keyspaces and tables, and queries.
-/

namespace OperationChain

variable {σ : Type}

/-- The protocol version of a query that names none. -/
def defaultProtocol : String := "3.0.0"

/-- A list of names as a result. -/
def Record.ofNames (names : List String) : Record := .scalar (.list (names.map .text))

/-- Answers a read with the cells that were found, when the filter has seen them. -/
def runFinish (session : Session) (deadlines : Deadlines) (target : TableName)
    (cells : List Cell) : Run σ Record := do
  let registry := (← Run.engine).registry
  Run.wait (session.filterTime registry target cells) deadlines
  Run.lift (session.finish registry target cells)

variable [Store σ]

/-- Answers a read with the columns of these names. -/
def readNames (ctx : Context) (session : Session) (deadlines : Deadlines) (target : TableName)
    (rowkey : Bytes) (names : List Bytes) : Run σ Record := do
  let now ← Run.now
  let cells ← Run.ask deadlines fun store =>
    Store.read store now target rowkey names ctx.consistency
  runFinish session deadlines target cells

def runSet (ctx : Context) (args : Arguments) (session : Session) (deadlines : Deadlines) :
    Run σ Record := do
  let mutation ← Run.lift (setMutation ctx args session (← Run.now))
  Run.update deadlines (Store.write mutation ctx.consistency)
  return .ok

def runGet (ctx : Context) (args : Arguments) (session : Session) (deadlines : Deadlines) :
    Run σ Record := do
  let (target, rowkey, name) ← Run.lift do
    let target ← ctx.target
    let rowkey ← encodeNatural (← args.required "rowkey")
    let name ← session.encodeName target (← args.required "name")
    return (target, rowkey, name)
  readNames ctx session deadlines target rowkey [name]

def runSlice (ctx : Context) (args : Arguments) (session : Session) (deadlines : Deadlines) :
    Run σ Record := do
  let (target, range, rowkey) ← Run.lift do
    let target ← ctx.target
    let range ← sliceRange args session target
    let rowkey ← encodeNatural (← args.required "rowkey")
    return (target, range, rowkey)
  let now ← Run.now
  let cells ← Run.ask deadlines fun store =>
    Store.readSlice store now target rowkey range ctx.consistency
  runFinish session deadlines target cells

def runSliceByNames (ctx : Context) (args : Arguments) (session : Session)
    (deadlines : Deadlines) : Run σ Record := do
  let (target, names, rowkey) ← Run.lift do
    let target ← ctx.target
    let names ← (← args.list "names").mapM (session.encodeName target)
    let rowkey ← encodeNatural (← args.required "rowkey")
    return (target, names, rowkey)
  readNames ctx session deadlines target rowkey names

/-- The writes of a batch, each row with a reading of the clock of its own. -/
def batchMutations (ctx : Context) (session : Session) : List Value → Run σ (List Mutation)
  | [] => return []
  | row :: rest => do
    let mutation ← Run.lift (batchMutation ctx session (← Run.now) row)
    return mutation :: (← batchMutations ctx session rest)

def runBatchSet (ctx : Context) (args : Arguments) (session : Session) (deadlines : Deadlines) :
    Run σ Record := do
  let mutations ← batchMutations ctx session (← Run.lift (args.list "rows"))
  Run.update deadlines (Store.batchWrite mutations ctx.consistency)
  return .ok

def runCounter (ctx : Context) (args : Arguments) (session : Session) (deadlines : Deadlines) :
    Run σ Record := do
  let (target, rowkey, name, delta) ← Run.lift do
    let target ← ctx.target
    let rowkey ← encodeNatural (← args.required "rowkey")
    let name ← session.encodeName target (← args.required "name")
    return (target, rowkey, name, (← args.integer? "delta").getD 1)
  let now ← Run.now
  Run.update deadlines (Store.increment now target rowkey name delta ctx.consistency)
  return .ok

def runCreateKeyspace (args : Arguments) (deadlines : Deadlines) : Run σ Record := do
  let (name, replication) ← Run.lift do
    let name ← match ← args.text? "name" with
      | some name => pure name
      | none => args.text "keyspace"
    let replication := ((← args.integer? "replication").getD 1).toInt
    match Numeral.toUInt32? replication with
    | some word => return (name, word)
    | none => throw (.validation (.invalidReplication replication))
  Run.update deadlines (Store.createKeyspace name replication)
  return .ok

def runCreateTable (ctx : Context) (args : Arguments) (deadlines : Deadlines) :
    Run σ Record := do
  let target ← Run.lift do
    let table ← match ← args.text? "name" with
      | some table => pure table
      | none =>
        match ← args.table? with
        | some table => pure table
        | none => throw (.validation (.missingParameter .createTable "name"))
    return (⟨← ctx.keyspaceOf args, table⟩ : TableName)
  Run.update deadlines (Store.createTable target)
  return .ok

def runListKeyspaces (deadlines : Deadlines) : Run σ Record := do
  return .ofNames (← Run.ask deadlines fun store => Store.listKeyspaces store)

def runListTables (ctx : Context) (args : Arguments) (deadlines : Deadlines) :
    Run σ Record := do
  let keyspace ← Run.lift (ctx.keyspaceOf args)
  return .ofNames (← Run.ask deadlines fun store => Store.listTables store keyspace)

/-- A cell that a query returned as a row, its bytes as they are or in their UTF-8
reading. -/
def queryRow (convert : Bool) (cell : Cell) : Row :=
  let component (raw : Bytes) : Value :=
    if convert then .text (Utf8.decodeLossy raw) else .bytes raw
  { name := some (component cell.name)
    value := some (component cell.value)
    timestamp := some cell.timestamp
    ttl := cell.ttl }

def runQuery (ctx : Context) (args : Arguments) (deadlines : Deadlines) : Run σ Record := do
  let (statement, version, convert) ← Run.lift do
    let statement ← args.text "statement"
    let version := (← args.text? "version").getD defaultProtocol
    let convert := (← args.boolean? "convert").getD false
    return (statement, version, convert)
  let now ← Run.now
  let cells ← Run.ask deadlines fun store =>
    Store.query store now ctx.keyspace? statement version ctx.consistency
  return .rows (cells.map (queryRow convert))

/-- The run of an operation on the store; `none` for the other kinds. -/
def dataRun? (ctx : Context) (args : Arguments) (session : Session) :
    Option (Deadlines → Run σ Record) :=
  match args.kind with
  | .set => some (runSet ctx args session)
  | .get => some (runGet ctx args session)
  | .slice => some (runSlice ctx args session)
  | .sliceByNames => some (runSliceByNames ctx args session)
  | .batchSet => some (runBatchSet ctx args session)
  | .counter => some (runCounter ctx args session)
  | .createKeyspace => some (runCreateKeyspace args)
  | .createTable => some (runCreateTable ctx args)
  | .listKeyspaces => some runListKeyspaces
  | .listTables => some (runListTables ctx args)
  | .query => some (runQuery ctx args)
  | _ => none

end OperationChain
