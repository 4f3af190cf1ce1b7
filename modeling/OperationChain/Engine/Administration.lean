import OperationChain.Engine.Context

/-! # Operations on the session and the registry

Operations that touch no store. Each of them reads its arguments first and then
changes one thing.
-/

namespace OperationChain

/-- The components that a selection names; an empty one goes back to full rows. -/
def selectedComponents (names : List Value) : Except Error (Option (List Component)) := do
  let components ← names.mapM fun name =>
    match name with
    | .text s => Component.parse s
    | other => .error (.validation (.notComponentName other.shape))
  return if components.isEmpty then none else some components

/-- The change of the session by an operation that changes nothing else; `none` for
the other kinds. -/
def administer? (registry : Registry) (ctx : Context) (args : Arguments) :
    Option (Update Session Unit) :=
  match args.kind with
  | .setKeyspace => some do
    let keyspace ← Update.lift (args.text "keyspace")
    modify fun session => { session with defaults.keyspace := some keyspace }
  | .setTable => some do
    match ← Update.lift args.table? with
    | some table => modify fun session => { session with defaults.table := some table }
    | none => throw (.validation (.missingParameter .setTable "table"))
  | .setConsistency => some do
    let level ← Update.lift (args.text "level" >>= Consistency.parse)
    modify fun session => { session with defaults.consistency := level }
  | .setAutoTimestamp => some do
    let enabled ← Update.lift (args.boolean? "enabled")
    modify fun session => { session with defaults.autoTimestamp := enabled.getD true }
  | .assume => some do
    let keyspace ← Update.lift (ctx.keyspaceOf args)
    let table ← Update.lift (ctx.tableOf args)
    let role ← Update.lift (args.text "role" >>= Role.parse)
    let type ← Update.lift (args.text "type" >>= DataType.parse)
    modify fun session => session.assume keyspace table role type
  | .filterMode => some do
    if (← Update.lift (args.boolean? "enabled")).getD true then
      let name ← Update.lift (args.text "name")
      let _ ← Update.lift (registry.filter name)
      modify fun session => { session with filter := some name }
    else modify fun session => { session with filter := none }
  | .componentSelect => some do
    let components ← Update.lift (args.list "components" >>= selectedComponents)
    modify fun session => { session with components }
  | .clear => some do
    let index ← Update.lift (args.integer "index")
    let results ← Update.lift ((← get).results.clear index.toInt)
    modify fun session => { session with results }
  | _ => none

/-- The shape of capability that a kind registers. -/
def registeredShape? : OperationKind → Option Shape
  | .createFilter => some .filter
  | .createProcessor => some .processor
  | .createMultiProcessor => some .multiProcessor
  | .createServiceProcess => some .serviceProcess
  | _ => none

/-- The loader of a registration that names none. -/
def defaultLoader : Shape → String
  | .filter | .processor => "expr"
  | .multiProcessor | .serviceProcess => "native"

/-- The registry after a registration. -/
def registerCapability (registry : Registry) (shape : Shape) (args : Arguments) :
    Except Error Registry := do
  let name ← args.text "name"
  let loader := (← args.text? "loader").getD (defaultLoader shape)
  let source ← args.text "source"
  return (← registry.register shape name loader source).2

end OperationChain
