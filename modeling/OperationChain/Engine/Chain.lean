import OperationChain.Engine.Administration
import OperationChain.Engine.Data
import OperationChain.Operation.Request

/-! # Running chains

A chain runs its operations in order, each in the session that those before it left
behind, with its references resolved against their results. The first operation that
fails ends the chain, and so does a `prepare`, which keeps the operations after it
as a template. Prepared statements and service processes run chains of their own
inside an operation; how deep such chains may nest is an argument of every run.
-/

namespace OperationChain

variable {σ : Type} [Store σ]

/-- Runs a chain inside an operation: under these deadlines, in this session, with
these values bound. -/
abbrev Nested (σ : Type) := Deadlines → List Operation → Session → Option Binds → Run σ Response

/-- The values that are bound to the positions of a template: a list by place, or a
map by number. -/
def bindsOf : Option Value → Except Error Binds
  | none => .ok ∅
  | some (.list values) =>
    .ok (Map.ofList (values.zipIdx.map fun (value, i) => (UInt32.ofNat i, value)))
  | some (.map entries) => do
    let bound ← entries.mapM fun (position, value) =>
      match (Numeral.unsigned? (Text.trimChars position.toList)).bind
        fun n => Numeral.toUInt32? n with
      | some n => Except.ok (n, value)
      | none => .error (.validation (.bindPosition position))
    return Map.ofList bound
  | some other => .error (.validation (.bindsShape other.shape))

/-- What a chain that ran to its end leaves as its result. -/
def Response.lastRecord (response : Response) : Record :=
  (response.results.getLast?.map (·.2)).getD .ok

/-- What a capability answers, or the error that its end is reported as. -/
def settleFault {α : Type} (shape : Shape) (name : String) : Except Fault α → Except Error α
  | .ok a => .ok a
  | .error .panicked => .error (.extension (.panicked shape name))
  | .error (.failed e) => .error (e.withinExtension s!"{shape.name} '{name}'")

def runExecutePrepared (nested : Nested σ) (deadlines : Deadlines) (args : Arguments)
    (session : Session) : Run σ Record := do
  let prepared := (← Run.engine).prepared
  let (template, binds) ← Run.lift do
    let template ← prepared.get (← args.handle "id")
    return (template, ← bindsOf (args.get? "binds"))
  let response ← nested deadlines template (session.fork template.length) (some binds)
  match response.failure with
  | some failure => throw (.failed failure.error)
  | none => return response.lastRecord

def runProcess (deadlines : Deadlines) (args : Arguments) (session : Session) : Run σ Record := do
  let registry := (← Run.engine).registry
  let (name, rows, processor) ← Run.lift do
    let name ← args.text "name"
    let rows ← session.capturedRows (← args.integer "input")
    return (name, rows, ← registry.processor name)
  Run.wait processor.delay deadlines
  return .rows (← Run.lift (settleFault .processor name (processor.process rows)))

/-- The inputs of a combiner by the texts of their indices: those that are listed,
or else every captured list of rows. -/
def combinerInputs (args : Arguments) (session : Session) :
    Except Error (List (String × List Row)) := do
  match args.get? "inputs" with
  | none =>
    return (Map.ofList (session.results.rowLists.map fun (index, rows) =>
      (Numeral.ofInt index, rows)) : Map String (List Row)).entries
  | some _ =>
    let inputs ← (← args.list "inputs").mapM fun value =>
      match value.int? with
      | some index => do return (Numeral.ofInt index.toInt, ← session.capturedRows index)
      | none => .error (.validation (.inputNotIndex value.display))
    return (Map.ofList inputs : Map String (List Row)).entries

def runMultiProcess (deadlines : Deadlines) (args : Arguments) (session : Session) :
    Run σ Record := do
  let registry := (← Run.engine).registry
  let (name, params, inputs, combiner) ← Run.lift do
    let name ← args.text "name"
    let params ← args.map "params"
    let inputs ← combinerInputs args session
    return (name, params, inputs, ← registry.multiProcessor name)
  Run.wait combiner.delay deadlines
  return .rows (← Run.lift (settleFault .multiProcessor name (combiner.combine inputs params)))

def runServiceProcess (nested : Nested σ) (deadlines : Deadlines) (args : Arguments)
    (session : Session) : Run σ Record := do
  let registry := (← Run.engine).registry
  let (name, operations) ← Run.lift do
    let name ← args.text "name"
    let params ← args.map "params"
    let process ← registry.serviceProcess name
    return (name, ← settleFault .serviceProcess name (process.build params))
  let response ← nested deadlines operations (session.fork operations.length) none
  match response.failure with
  | some failure => throw (.failed (.failedStep name failure.index failure.error))
  | none => return response.lastRecord

/-- The run of an operation that has a budget of time; `none` for the other kinds. -/
def timedRun? (nested : Nested σ) (ctx : Context) (args : Arguments) (session : Session) :
    Option (Deadlines → Run σ Record) :=
  match args.kind with
  | .executePrepared => some fun deadlines => runExecutePrepared nested deadlines args session
  | .process => some fun deadlines => runProcess deadlines args session
  | .multiProcess => some fun deadlines => runMultiProcess deadlines args session
  | .serviceProcess => some fun deadlines => runServiceProcess nested deadlines args session
  | _ => dataRun? ctx args session

/-- How a chain goes on after an operation. -/
inductive Step where
  | next (record : Record) (session : Session)
  | halt (record : Record)
  /-- The operation failed in the midst of changing the session. -/
  | failed (error : Error) (session : Session)

/-- The step that a change of the session was. -/
def Step.ofChange : Except Error Unit × Session → Step
  | (.ok _, session) => .next .ok session
  | (.error error, session) => .failed error session

/-- A handle as a result. -/
def Record.ofHandle (handle : Handle) : Record := .scalar (.int (Int64.ofInt handle))

/-- Keeps the operations after a `prepare` as a template. -/
def runPrepare (rest : List Operation) : Run σ Step := do
  let engine ← Run.engine
  let (handle, prepared) := engine.prepared.keep rest
  Run.setEngine { engine with prepared }
  return .halt (.ofHandle handle)

/-- Keeps the defaults of the session. -/
def runSaveState (session : Session) : Run σ Step := do
  let engine ← Run.engine
  let (handle, states) := engine.states.keep session.defaults
  Run.setEngine { engine with states }
  return .next (.ofHandle handle) session

/-- Goes back to the defaults of a saved state. -/
def runRestoreState (args : Arguments) (session : Session) : Run σ Step := do
  let engine ← Run.engine
  let snapshot ← Run.lift do engine.states.get (← args.handle "id")
  return .next .ok (session.restore snapshot)

/-- Registers a capability. -/
def runRegister (shape : Shape) (args : Arguments) (session : Session) : Run σ Step := do
  let engine ← Run.engine
  let registry ← Run.lift (registerCapability engine.registry shape args)
  Run.setEngine { engine with registry }
  return .next .ok session

/-- Runs an operation whose parameters are resolved. -/
def runResolved (nested : Nested σ) (deadlines : Deadlines) (ctx : Context) (args : Arguments)
    (rest : List Operation) (session : Session) : Run σ Step :=
  match args.kind with
  | .unknown name => throw (.failed (.validation (.unknownOperation name)))
  | .prepare => runPrepare rest
  | .saveState => runSaveState session
  | .restoreState => runRestoreState args session
  | kind =>
    match registeredShape? kind with
    | some shape => runRegister shape args session
    | none => do
      match administer? (← Run.engine).registry ctx args with
      | some change => return .ofChange (change.exec session)
      | none =>
        match timedRun? nested ctx args session with
        | some run => return .next (← Run.within ctx.timeout deadlines run) session
        | none => throw (.failed (.validation (.unknownOperation kind.name)))

/-- Runs one operation, which is followed by `rest` in its chain. -/
def runOperation (nested : Nested σ) (deadlines : Deadlines) (operation : Operation)
    (rest : List Operation) (session : Session) (binds : Option Binds) : Run σ Step := do
  let engine ← Run.engine
  let args ← Run.lift (operation.resolve session.results binds)
  runResolved nested deadlines (Context.of session operation engine.timeout) args rest session

/-- Runs the operations of a chain from the one with number `index` on. -/
def runFrom (nested : Nested σ) (deadlines : Deadlines) (binds : Option Binds) (index : Nat) :
    List Operation → Session → Run σ Response
  | [], session => return ⟨session.results.answers, none⟩
  | operation :: rest, session => do
    match ← Run.outcome (runOperation nested deadlines operation rest session binds) with
    | .ok (.next record after) =>
      let captured := { after with results := after.results.capture index record }
      runFrom nested deadlines binds (index + 1) rest captured
    | .ok (.halt record) => return ⟨(session.results.capture index record).answers, none⟩
    | .ok (.failed error after) => return ⟨after.results.answers, some ⟨index, error⟩⟩
    | .error (.failed error) => return ⟨session.results.answers, some ⟨index, error⟩⟩
    | .error stop => throw stop

/-- Runs a chain in which chains nest at most `depth` deep. -/
def runChain : (depth : Nat) → Nested σ
  | 0 => fun _ _ _ _ => throw .unfinished
  | depth + 1 => fun deadlines operations session binds =>
    runFrom (runChain depth) deadlines binds 0 operations session

namespace Engine

/-- The session that a request starts from, or the error of its hint. -/
def startSession (engine : Engine σ) (request : Request) : Except Error Session :=
  let consistency := request.consistency.getD engine.consistency
  let session := Session.start consistency request.operations.length
  match request.restore with
  | none => .ok session
  | some handle =>
    (engine.states.get handle.toNat).map fun snapshot =>
      session.restore { snapshot with
        consistency := request.consistency.getD snapshot.consistency }

/-- Executes a request whose chains nest at most `depth` deep: its answer, and the
engine and the clock after it. There is no answer where that depth is not enough. -/
def execute (engine : Engine σ) (clock : Clock) (depth : Nat) (request : Request) :
    Option (Response × World σ) :=
  match engine.startSession request with
  | .error error => some (⟨[], some ⟨0, error⟩⟩, ⟨engine, clock⟩)
  | .ok session =>
    match (runChain depth [] request.operations session none).exec ⟨engine, clock⟩ with
    | (.ok response, world) => some (response, world)
    | (.error _, _) => none

/-- Lets go of a saved state. -/
def releaseState (engine : Engine σ) (handle : Handle) : Except Error (Engine σ) :=
  (engine.states.release handle).map fun states => { engine with states }

/-- Lets go of a prepared statement. -/
def releasePrepared (engine : Engine σ) (handle : Handle) : Except Error (Engine σ) :=
  (engine.prepared.release handle).map fun prepared => { engine with prepared }

end Engine

end OperationChain
