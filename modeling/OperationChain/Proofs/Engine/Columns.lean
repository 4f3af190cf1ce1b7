import OperationChain.Proofs.DataType.Codec
import OperationChain.Proofs.Engine.Lateness
import OperationChain.Proofs.Engine.Trace
import OperationChain.Proofs.Store.Calls

/-! # Writing and reading one column

What a `set` and a `get` come to. Both name a column under their settings; the one puts a
cell there, if the table takes it, and the other answers the live cell that it finds. How long
that takes is not known here: both can be late, and a `set` that is late has put its cell there.
-/

namespace OperationChain

/-- A column of a row. -/
structure Column where
  target : TableName
  rowkey : Bytes
  name : Bytes
  deriving DecidableEq

/-- The column that a write is for. -/
def Mutation.column (mutation : Mutation) : Column :=
  ⟨mutation.target, mutation.rowkey, mutation.cell.name⟩

/-! ## The store -/

namespace Storage

variable {storage : Storage} {mutation : Mutation} {column : Column} {level : Consistency}

/-- What a column holds. -/
def held (storage : Storage) (column : Column) : Option Cell :=
  storage.cell? column.target column.rowkey column.name

theorem read_eq (storage : Storage) (now : Timestamp) (target : TableName) (rowkey : Bytes)
    (names : List Bytes) (level : Consistency) :
    Store.read storage now target rowkey names level =
      storage.contents.read now target rowkey names level := by
  cases storage with
  | nested store => exact (store.mirrors_contents.read_eq now target rowkey names level)
  | tables store => rfl

/-- A read of one column answers its live cell, if the table can be read. -/
theorem read_column (storage : Storage) (now : Timestamp) (column : Column)
    (level : Consistency) :
    Store.read storage now column.target column.rowkey [column.name] level =
      (storage.contents.check column.target level true).map fun _ =>
        ((storage.held column).filter fun cell => cell.isLive now).toList := by
  have hfound (found : Bytes → Option Cell) :
      [column.name].filterMap found = (found column.name).toList := by
    cases hcell : found column.name <;> simp [hcell]
  rw [read_eq, TableStore.read, hfound]
  cases storage.contents.check column.target level true <;> rfl

theorem exec_write (storage : Storage) (mutation : Mutation) (level : Consistency) :
    (Store.write mutation level : Update Storage Unit).exec storage =
      match storage.contents.check mutation.target level false with
      | .error error => (.error error, storage)
      | .ok _ => (.ok (), storage.applied mutation) := by
  rw [Store.write, exec_batchWrite, TableStore.checkAll]
  cases storage.contents.check mutation.target level false <;> rfl

section Applied

variable (hknown : mutation.target ∈ storage.contents.tables)
include hknown

/-- A write changes no check. -/
theorem check_applied (target : TableName) (level : Consistency) (reading : Bool) :
    (storage.applied mutation).contents.check target level reading =
      storage.contents.check target level reading := by
  rw [contents_applied hknown]
  rfl

theorem held_applied_self :
    (storage.applied mutation).held mutation.column =
      some (mutation.cell.over (storage.held mutation.column)) := cell?_applied_self hknown

theorem held_applied_of_ne (hne : column ≠ mutation.column) :
    (storage.applied mutation).held column = storage.held column := by
  refine cell?_applied_of_ne hknown fun hsame => hne ?_
  obtain ⟨htarget, hrowkey, hname⟩ := hsame
  cases column
  cases htarget
  cases hrowkey
  cases hname
  rfl

end Applied

end Storage

/-! ## What operations on a column come to -/

/-- The reading that a clock gives next. -/
def Clock.next (clock : Clock) : Timestamp := clock.readings clock.taken

/-- The column that arguments name. -/
def Arguments.column (args : Arguments) (ctx : Context) (session : Session) :
    Except Error Column := do
  let target ← ctx.target
  let rowkey ← encodeNatural (← args.required "rowkey")
  let name ← session.encodeName target (← args.required "name")
  return ⟨target, rowkey, name⟩

/-- What a read of a column answers at a reading of the clock. -/
def Engine.answer (engine : Engine Storage) (level : Consistency) (session : Session)
    (now : Timestamp) (column : Column) : Except Error Record := do
  engine.store.contents.check column.target level true
  session.finish engine.registry column.target
    ((engine.store.held column).filter fun cell => cell.isLive now).toList

/-- What a write to a column comes to, if the table takes it. -/
def Engine.accept (engine : Engine Storage) (level : Consistency) (mutation : Mutation) :
    Except Error Mutation := do
  engine.store.contents.check mutation.target level false
  return mutation

section Runs

variable {ctx : Context} {args : Arguments} {session : Session}

theorem exec_runFinish {σ : Type} (session : Session) (deadlines : Deadlines) (target : TableName)
    (cells : List Cell) (world : World σ) :
    (runFinish session deadlines target cells).exec world =
      (Run.wait (session.filterTime world.engine.registry target cells) deadlines >>= fun _ =>
        Run.lift (session.finish world.engine.registry target cells)).exec world :=
  Program.exec_bind_ok (Run.exec_engine world)

theorem comesTo_runFinish {σ : Type} (deadlines : Deadlines) (target : TableName)
    (cells : List Cell) (world : World σ) :
    (runFinish session deadlines target cells).ComesTo world
      (session.finish world.engine.registry target cells) world.engine :=
  .of_bind_ok (Run.exec_engine world) (.idle_bind (Run.idle_wait _ deadlines) fun _ => .lift _ _)

theorem comesTo_readNames (deadlines : Deadlines) (column : Column) (world : World Storage) :
    (readNames ctx session deadlines column.target column.rowkey [column.name]).ComesTo world
      (world.engine.answer ctx.consistency session world.clock.next column) world.engine := by
  have hanswer : world.engine.answer ctx.consistency session world.clock.next column =
      Store.read world.engine.store world.clock.next column.target column.rowkey [column.name]
        ctx.consistency >>= session.finish world.engine.registry column.target := by
    rw [Storage.read_column, Engine.answer]
    cases world.engine.store.contents.check column.target ctx.consistency true <;> rfl
  rw [hanswer]
  refine .of_bind_ok (Run.exec_now world) (.bind (.ask deadlines _ _) fun cells clock => ?_)
  exact comesTo_runFinish deadlines column.target cells ⟨world.engine, clock⟩

/-- A `get` names its column and reads it. -/
theorem runGet_eq {σ : Type} [Store σ] (ctx : Context) (args : Arguments) (session : Session)
    (deadlines : Deadlines) :
    (runGet ctx args session deadlines : Run σ Record) = (do
      let column ← Run.lift (args.column ctx session)
      readNames ctx session deadlines column.target column.rowkey [column.name]) := by
  have hnamed : (do
      let target ← ctx.target
      let rowkey ← encodeNatural (← args.required "rowkey")
      let name ← session.encodeName target (← args.required "name")
      return (target, rowkey, name) : Except Error (TableName × Bytes × Bytes)) =
      (fun column => (column.target, column.rowkey, column.name)) <$> args.column ctx session := by
    simp only [Arguments.column, map_bind, map_pure]
  rw [runGet, hnamed]
  cases args.column ctx session <;> rfl

theorem comesTo_runGet (deadlines : Deadlines) (world : World Storage) :
    (runGet ctx args session deadlines).ComesTo world
      (args.column ctx session >>=
        world.engine.answer ctx.consistency session world.clock.next) world.engine := by
  rw [runGet_eq]
  cases args.column ctx session with
  | error error => exact .lift (.error error) world
  | ok column =>
      exact .of_bind_ok (Run.exec_lift_ok column world) (comesTo_readNames deadlines column world)

/-- A `get` runs alike on engines where it finds the same. -/
theorem sameOn_runGet {engine other : Engine Storage} (hregistry : other.registry = engine.registry)
    (hread : ∀ column, args.column ctx session = .ok column → ∀ now,
      Store.read other.store now column.target column.rowkey [column.name] ctx.consistency =
        Store.read engine.store now column.target column.rowkey [column.name] ctx.consistency)
    (deadlines : Deadlines) :
    Run.SameOn engine other (runGet ctx args session deadlines) := by
  rw [runGet_eq]
  cases hcolumn : args.column ctx session with
  | error error => exact .lift (.error error)
  | ok column =>
      rw [Run.lift_ok_bind]
      refine .bind .now fun now => .bind (.ask deadlines (hread column hcolumn now)) fun cells => ?_
      exact .engine_bind (by rw [hregistry]) (.bind (.wait _ deadlines) fun _ => .lift _)

theorem comesTo_runSet (deadlines : Deadlines) (world : World Storage) :
    let written := setMutation ctx args session world.clock.next >>=
      world.engine.accept ctx.consistency
    (runSet ctx args session deadlines).ComesTo world (written.map fun _ => .ok)
      { world.engine with
        store := written.toOption.elim world.engine.store world.engine.store.applied } := by
  refine .of_bind_ok (Run.exec_now world) ?_
  change (Run.lift (setMutation ctx args session world.clock.next) >>= _).ComesTo _ _ _
  cases setMutation ctx args session world.clock.next with
  | error error => exact .lift (.error error) _
  | ok mutation =>
      refine .of_bind_ok (Run.exec_lift_ok mutation _) ?_
      have hupdate := (Run.ComesTo.update deadlines (Store.write mutation ctx.consistency)
        ({ world with clock.taken := world.clock.taken + 1 } : World Storage)).bind_pure
          fun _ => Record.ok
      rw [Storage.exec_write] at hupdate
      rw [Except.ok_bind, Engine.accept]
      cases hcheck : world.engine.store.contents.check mutation.target ctx.consistency false with
      | error error =>
          rw [hcheck] at hupdate
          exact hupdate
      | ok _ =>
          rw [hcheck] at hupdate
          exact hupdate

end Runs

namespace Attempt

/-- The settings of the operation. -/
def context {σ : Type} (attempt : Attempt σ) : Context :=
  Context.of attempt.session attempt.operation attempt.before.engine.timeout

/-- The arguments of the operation. -/
def args {σ : Type} (attempt : Attempt σ) : Except Error Arguments :=
  attempt.operation.resolve attempt.session.results attempt.binds

/-- The column that the operation names. -/
def column {σ : Type} (attempt : Attempt σ) : Except Error Column := do
  (← attempt.args).column attempt.context attempt.session

/-- The write that a `set` stands for. -/
def mutation {σ : Type} (attempt : Attempt σ) : Except Error Mutation := do
  setMutation attempt.context (← attempt.args) attempt.session attempt.before.clock.next

/-- The operation was not late. -/
def InTime {σ : Type} (attempt : Attempt σ) : Prop :=
  ∀ stop, attempt.ending = .error stop → ¬ stop.Late

/-- The operation ended with this result, if it was not late. -/
def Ends {σ : Type} (attempt : Attempt σ) (result : Except Error Record) : Prop :=
  attempt.InTime → attempt.ending =
    (result.mapError .failed).map fun record => .next record attempt.session

section

variable {σ : Type} {attempt : Attempt σ} {result : Except Error Record}

theorem inTime_of_ok {step : Step} (hending : attempt.ending = .ok step) : attempt.InTime := by
  intro stop hstop
  rw [hending] at hstop
  cases hstop

theorem inTime_of_record (hdone : attempt.record?.isSome) : attempt.InTime := by
  obtain ⟨record, hrecord⟩ := Option.isSome_iff_exists.mp hdone
  rcases ending_of_record hrecord with ⟨next, hending⟩ | hending
  · exact inTime_of_ok hending
  · exact inTime_of_ok hending

theorem Ends.next_iff (hends : attempt.Ends result) {record : Record} {after : Session} :
    attempt.ending = .ok (.next record after) ↔
      attempt.InTime ∧ after = attempt.session ∧ result = .ok record := by
  constructor
  · intro hending
    have hintime := inTime_of_ok hending
    rw [hends hintime] at hending
    obtain ⟨found, hfound, hstep⟩ := Except.map_eq_ok_iff.mp hending
    cases hstep
    exact ⟨hintime, rfl, Except.mapError_eq_ok_iff.mp hfound⟩
  · rintro ⟨hintime, rfl, rfl⟩
    exact hends hintime

theorem Ends.record?_isSome_iff (hends : attempt.Ends result) :
    attempt.record?.isSome ↔ attempt.InTime ∧ ∃ record, result = .ok record := by
  constructor
  · intro hdone
    have hintime := inTime_of_record hdone
    cases result with
    | ok found => exact ⟨hintime, found, rfl⟩
    | error error =>
        rw [record?_error (hends hintime)] at hdone
        cases hdone
  · rintro ⟨hintime, record, rfl⟩
    rw [record?_next (hends hintime)]
    rfl

theorem Ends.record?_eq_none {error : Error} (hends : attempt.Ends (.error error)) :
    attempt.record? = none := by
  rw [← Option.not_isSome_iff_eq_none, hends.record?_isSome_iff]
  rintro ⟨_, record, hrecord⟩
  cases hrecord

end

section Run

variable {σ : Type} [Store σ] {nested : Nested σ} {deadlines : Deadlines} {binds : Option Binds}
  {operation : Operation} {rest : List Operation} {session : Session} {world : World σ}
  {attempt : Attempt σ}
  (hattempt : attempt = attemptOf nested deadlines binds operation rest session world)
include hattempt

theorem run_of_unresolved {error : Error} (hargs : attempt.args = .error error) :
    attempt.ending = .error (.failed error) ∧ attempt.after = attempt.before := by
  rcases attempt.run_cases hattempt with ⟨cause, hcause, hrun⟩ | ⟨found, hfound, _⟩
  · rw [args, hcause] at hargs
    cases hargs
    exact hrun
  · rw [args, hfound] at hargs
    cases hargs

theorem run_of_timedRun {arguments : Arguments} {body : Deadlines → Run σ Record}
    (hargs : attempt.args = .ok arguments)
    (hbody : timedRun? nested attempt.context arguments attempt.session = some body) :
    let run := (Run.within attempt.context.timeout deadlines body).exec attempt.before
    attempt.ending = run.1.map (fun record => .next record attempt.session) ∧
      attempt.after = run.2 := by
  rcases attempt.run_cases hattempt with ⟨error, herror, _⟩ | ⟨found, hfound, _, hresolved⟩
  · rw [args, herror] at hargs
    cases hargs
  · rw [args, hfound] at hargs
    cases hargs
    rw [← context, runResolved_of_timedRun hbody,
      Program.exec_bind_ok (Run.exec_engine attempt.before), Program.exec_bind_pure] at hresolved
    exact ⟨(congrArg Prod.fst hresolved).symm, (congrArg Prod.snd hresolved).symm⟩

theorem run_of_resolved {arguments : Arguments} {run : Deadlines → Run σ Record}
    {result : Except Error Record} {engine : Engine σ} (hargs : attempt.args = .ok arguments)
    (hbody : timedRun? nested attempt.context arguments attempt.session = some run)
    (hrun : ∀ deadlines, (run deadlines).ComesTo attempt.before result engine) :
    attempt.Ends result ∧ attempt.after.engine = engine := by
  obtain ⟨hending, hafter⟩ := attempt.run_of_timedRun hattempt hargs hbody
  obtain ⟨hengine, hends⟩ := Run.ComesTo.within hrun attempt.context.timeout deadlines
  refine ⟨fun hintime => ?_, by rw [hafter, hengine]⟩
  rcases hends with hresult | ⟨stop, hstop, hlate⟩
  · rw [hending, hresult]
  · rw [hstop] at hending
    exact absurd hlate (hintime stop hending)

end Run

/-- A chain that was not late began with an operation that was not late. -/
theorem inTime_of_exec_runFrom {σ : Type} [Store σ] {nested : Nested σ} {deadlines : Deadlines}
    {binds : Option Binds} {operation : Operation} {rest : List Operation} {session : Session}
    {world : World σ} {index : Nat}
    (hchain : ¬ LateAnswer ((runFrom nested deadlines binds index (operation :: rest)
      session).exec world).1) :
    (attemptOf nested deadlines binds operation rest session world).InTime := by
  intro stop hstop hlate
  rw [exec_runFrom_cons] at hchain
  dsimp only at hchain
  rw [hstop] at hchain
  cases hlate with
  | timeout millis =>
      rw [endingAfter, hstop] at hchain
      exact hchain (.timeout _ _ _)
  | overdue level =>
      rw [endingAfter, hstop] at hchain
      exact hchain (.overdue level)

variable {nested : Nested Storage} {deadlines : Deadlines} {binds : Option Binds}
  {operation : Operation} {rest : List Operation} {session : Session} {world : World Storage}
  {attempt : Attempt Storage}
  (hattempt : attempt = attemptOf nested deadlines binds operation rest session world)
include hattempt

/-- A `get` answers what its column holds, and changes nothing. -/
theorem run_of_get (hkind : attempt.operation.kind = .get) :
    attempt.Ends (attempt.column >>= attempt.before.engine.answer attempt.context.consistency
        attempt.session attempt.before.clock.next) ∧
      attempt.after.engine = attempt.before.engine := by
  cases hargs : attempt.args with
  | error error =>
      obtain ⟨hending, hafter⟩ := attempt.run_of_unresolved hattempt hargs
      rw [hafter, column, hargs]
      exact ⟨fun _ => hending, rfl⟩
  | ok arguments =>
      have hbody := timedRun?_of_get nested attempt.context attempt.session
        ((Operation.resolve_kind hargs).trans hkind)
      rw [column, hargs, Except.ok_bind]
      exact attempt.run_of_resolved hattempt hargs hbody fun deadlines =>
        comesTo_runGet deadlines attempt.before

/-- A `set` puts its cell into the store, if the table takes it. -/
theorem run_of_set (hkind : attempt.operation.kind = .set) :
    let written := attempt.mutation >>= attempt.before.engine.accept attempt.context.consistency
    attempt.Ends (written.map fun _ => .ok) ∧
      attempt.after.engine = { attempt.before.engine with
        store := written.toOption.elim attempt.before.engine.store
          attempt.before.engine.store.applied } := by
  cases hargs : attempt.args with
  | error error =>
      obtain ⟨hending, hafter⟩ := attempt.run_of_unresolved hattempt hargs
      rw [hafter, mutation, hargs]
      exact ⟨fun _ => hending, rfl⟩
  | ok arguments =>
      have hbody := timedRun?_of_set nested attempt.context attempt.session
        ((Operation.resolve_kind hargs).trans hkind)
      rw [mutation, hargs, Except.ok_bind]
      exact attempt.run_of_resolved hattempt hargs hbody fun deadlines =>
        comesTo_runSet deadlines attempt.before

/-- A `set` that stands for no write fails with the reason, before it could be late. -/
theorem ending_of_set_error {error : Error} (hkind : attempt.operation.kind = .set)
    (hmutation : attempt.mutation = .error error) : attempt.ending = .error (.failed error) := by
  cases hargs : attempt.args with
  | error cause =>
      rw [mutation, hargs] at hmutation
      cases hmutation
      exact (attempt.run_of_unresolved hattempt hargs).1
  | ok arguments =>
      have hbody := timedRun?_of_set nested attempt.context attempt.session
        ((Operation.resolve_kind hargs).trans hkind)
      rw [mutation, hargs, Except.ok_bind] at hmutation
      have hexec (due : Deadlines) :
          ((runSet attempt.context arguments attempt.session due).exec attempt.before).1 =
            .error (.failed error) := by
        rw [runSet, Program.exec_bind_ok (Run.exec_now attempt.before)]
        change ((Run.lift (setMutation _ _ _ attempt.before.clock.next) >>= _).exec _).1 = _
        rw [hmutation]
        rfl
      rw [(attempt.run_of_timedRun hattempt hargs hbody).1, Run.exec_within_eq]
      dsimp only
      rw [hexec]
      rfl

/-- A `get` succeeds where its column has an answer, if it is not late. -/
theorem ending_of_get_iff {record : Record} {after : Session}
    (hkind : attempt.operation.kind = .get) :
    attempt.ending = .ok (.next record after) ↔
      attempt.InTime ∧ after = attempt.session ∧
        ∃ column, attempt.column = .ok column ∧
          attempt.before.engine.answer attempt.context.consistency attempt.session
            attempt.before.clock.next column = .ok record := by
  rw [(attempt.run_of_get hattempt hkind).1.next_iff, Except.bind_eq_ok_iff]

/-- A `set` succeeds where its write is allowed, if it is not late. -/
theorem ending_of_set_iff {record : Record} {after : Session}
    (hkind : attempt.operation.kind = .set) :
    attempt.ending = .ok (.next record after) ↔
      attempt.InTime ∧ after = attempt.session ∧ record = .ok ∧
        ∃ mutation, attempt.mutation = .ok mutation ∧
          attempt.before.engine.store.contents.check mutation.target
            attempt.context.consistency false = .ok () := by
  rw [(attempt.run_of_set hattempt hkind).1.next_iff, Except.map_eq_ok_iff]
  simp only [Except.bind_eq_ok_iff, Engine.accept]
  constructor
  · rintro ⟨hintime, hafter, _, ⟨mutation, hmutation, _, hcheck, _⟩, hrecord⟩
    exact ⟨hintime, hafter, hrecord.symm, mutation, hmutation, hcheck⟩
  · rintro ⟨hintime, hafter, hrecord, mutation, hmutation, hcheck⟩
    exact ⟨hintime, hafter, mutation, ⟨mutation, hmutation, (), hcheck, rfl⟩, hrecord.symm⟩

theorem engine_of_set {mutation : Mutation} (hkind : attempt.operation.kind = .set)
    (hmutation : attempt.mutation = .ok mutation)
    (hcheck : attempt.before.engine.store.contents.check mutation.target
      attempt.context.consistency false = .ok ()) :
    attempt.after.engine = { attempt.before.engine with
      store := attempt.before.engine.store.applied mutation } := by
  rw [(attempt.run_of_set hattempt hkind).2, hmutation, Except.ok_bind, Engine.accept, hcheck]
  rfl

end Attempt

/-! ## What the arguments say -/

section Arguments

variable {ctx : Context} {args : Arguments} {session : Session}

theorem Arguments.column_eq_ok_iff {column : Column} :
    args.column ctx session = .ok column ↔
      ctx.target = .ok column.target ∧
        (∃ key, args.required "rowkey" = .ok key ∧ encodeNatural key = .ok column.rowkey) ∧
        ∃ name, args.required "name" = .ok name ∧
          session.encodeName column.target name = .ok column.name := by
  simp only [Arguments.column, Except.bind_eq_ok_iff]
  constructor
  · rintro ⟨target, htarget, key, hkey, rowkey, hrowkey, name, hname, encoded, hencoded, hcolumn⟩
    cases hcolumn
    exact ⟨htarget, ⟨key, hkey, hrowkey⟩, name, hname, hencoded⟩
  · rintro ⟨htarget, ⟨key, hkey, hrowkey⟩, name, hname, hencoded⟩
    exact ⟨_, htarget, key, hkey, _, hrowkey, name, hname, _, hencoded, rfl⟩

theorem setMutation_eq_ok_iff {now : Timestamp} {mutation : Mutation} :
    setMutation ctx args session now = .ok mutation ↔
      args.column ctx session = .ok mutation.column ∧
        (∃ value, args.required "value" = .ok value ∧
          session.encodeValue mutation.target value = .ok mutation.cell.value) ∧
        (∃ given, args.integer? "timestamp" = .ok given ∧
          session.timestamp given now = .ok mutation.cell.timestamp) ∧
        ∃ given, args.integer? "ttl" = .ok given ∧ ctx.ttlOf given = .ok mutation.cell.ttl := by
  simp only [Arguments.column_eq_ok_iff, setMutation, Except.bind_eq_ok_iff, Mutation.column]
  constructor
  · rintro ⟨target, htarget, key, hkey, rowkey, hrowkey, name, hname, encoded, hencoded, value,
      hvalue, written, hwritten, given, hgiven, timestamp, htimestamp, seconds, hseconds, ttl, httl,
      hmutation⟩
    cases hmutation
    exact ⟨⟨htarget, ⟨key, hkey, hrowkey⟩, name, hname, hencoded⟩, ⟨value, hvalue, hwritten⟩,
      ⟨given, hgiven, htimestamp⟩, seconds, hseconds, httl⟩
  · rintro ⟨⟨htarget, ⟨key, hkey, hrowkey⟩, name, hname, hencoded⟩, ⟨value, hvalue, hwritten⟩,
      ⟨given, hgiven, htimestamp⟩, seconds, hseconds, httl⟩
    exact ⟨_, htarget, key, hkey, _, hrowkey, name, hname, _, hencoded, value, hvalue, _, hwritten,
      given, hgiven, _, htimestamp, seconds, hseconds, _, httl, rfl⟩

end Arguments

/-! ## What a read answers -/

/-- A table is read at the levels at which it is written, but for the one that needs no
replica. -/
theorem TableStore.check_reading_iff {store : TableStore} {target : TableName}
    {level : Consistency} :
    store.check target level true = .ok () ↔
      level ≠ .any ∧ store.check target level false = .ok () := by
  have hlevel (replication : UInt32) :
      checkConsistency level replication store.nodes true = .ok () ↔
        level ≠ .any ∧ checkConsistency level replication store.nodes false = .ok () := by
    by_cases hany : level = .any <;> simp [checkConsistency, hany]
  simp only [TableStore.check, Except.bind_eq_ok_iff, hlevel]
  tauto

/-- Whether a cell with this timestamp and time to live, in seconds, can still be read. The
end of its life is the last timestamp there is at most. -/
def LivesAt (timestamp : Timestamp) (ttl : Option UInt32) (now : Timestamp) : Prop :=
  ∀ seconds ∈ ttl,
    now.toInt < min (timestamp.toInt + seconds.toNat * 1000000) Int64.maxValue.toInt

theorem Cell.isLive_iff {cell : Cell} {now : Timestamp} :
    cell.isLive now = true ↔ LivesAt cell.timestamp cell.ttl now := by
  rw [Cell.isLive, LivesAt]
  cases cell.ttl <;> simp [expired]

namespace Session

variable {session : Session} {registry : Registry} {target : TableName} {cells : List Cell}

/-- The type that is assumed for the names of a table. -/
abbrev nameType (session : Session) (target : TableName) : Option DataType :=
  session.assumed target.keyspace target.table .name

theorem encodeName_of_nameType {type : DataType} (htype : session.nameType target = some type)
    (name : Value) : session.encodeName target name = type.encode name := by
  rw [encodeName, show session.assumed _ _ _ = some type from htype]
  rfl

/-- What a value of a role is read as after it was written. -/
def reread (session : Session) (target : TableName) (role : Role) (value : Value) :
    Except Error Value := do
  let assumed := session.assumed target.keyspace target.table role
  decode (← encode value assumed) assumed

theorem finish_of_plain (hfilter : session.filter = none)
    (hcomponents : session.components = none) :
    session.finish registry target cells = (cells.mapM (session.decodeCell target)).map .rows := by
  rw [finish]
  cases cells.mapM (session.decodeCell target) with
  | error error => rfl
  | ok rows =>
      rw [Except.ok_bind, filterRows, hfilter]
      dsimp only
      rw [Except.ok_bind, selectComponents, hcomponents]
      rfl

theorem decodeCell_of_decode {cell : Cell} {name value : Value}
    (hname : decode cell.name (session.assumed target.keyspace target.table .name) = .ok name)
    (hvalue : decode cell.value (session.assumed target.keyspace target.table .value) = .ok value) :
    session.decodeCell target cell =
      .ok ⟨some name, some value, some cell.timestamp, cell.ttl⟩ := by
  rw [decodeCell, hname, Except.ok_bind, hvalue]
  rfl

end Session

namespace Engine

variable {engine : Engine Storage} {level : Consistency} {session : Session}
  {now : Timestamp} {column : Column}

variable (hcheck : engine.store.contents.check column.target level true = .ok ())
  (hfilter : session.filter = none) (hcomponents : session.components = none)
include hcheck hfilter hcomponents

theorem answer_of_dead
    (hheld : ∀ cell ∈ engine.store.held column, ¬ LivesAt cell.timestamp cell.ttl now) :
    engine.answer level session now column = .ok (.rows []) := by
  have hnone : ((engine.store.held column).filter fun cell => cell.isLive now) = none := by
    rw [Option.filter_eq_none_iff]
    exact fun cell hcell hlive => hheld cell hcell (Cell.isLive_iff.mp hlive)
  rw [answer, hcheck, hnone, Except.ok_bind, Session.finish_of_plain hfilter hcomponents]
  rfl

theorem answer_of_live {cell : Cell} {name value : Value}
    (hheld : engine.store.held column = some cell) (hlive : LivesAt cell.timestamp cell.ttl now)
    (hname : decode cell.name
      (session.assumed column.target.keyspace column.target.table .name) = .ok name)
    (hvalue : decode cell.value
      (session.assumed column.target.keyspace column.target.table .value) = .ok value) :
    engine.answer level session now column =
      .ok (.rows [⟨some name, some value, some cell.timestamp, cell.ttl⟩]) := by
  have hfound : ((engine.store.held column).filter fun cell => cell.isLive now) = some cell := by
    rw [hheld]
    exact Option.filter_some_pos (Cell.isLive_iff.mpr hlive)
  rw [answer, hcheck, hfound, Except.ok_bind, Session.finish_of_plain hfilter hcomponents,
    Option.toList_some, List.mapM_cons, Session.decodeCell_of_decode hname hvalue]
  rfl

end Engine

end OperationChain
