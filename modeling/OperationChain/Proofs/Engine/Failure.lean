import OperationChain.Proofs.Engine.Attempts
import OperationChain.Proofs.Store.Contents

/-! # What a failed operation leaves behind

An operation that fails leaves everything as it was: what is stored, registered and
kept, and the session of its chain. Exempt are the operations that run a chain of
their own, and those that are only late.
-/

namespace OperationChain

/-- Both engines hold the same, if perhaps in another form of their store. -/
structure Engine.HoldsAs (after before : Engine Storage) : Prop where
  contents : after.store.contents = before.store.contents
  rest : after = { before with store := after.store }

theorem Engine.HoldsAs.refl (engine : Engine Storage) : engine.HoldsAs engine := ⟨rfl, rfl⟩

namespace Run

variable {α β : Type}

/-- Where the run fails, and does not end because it is late, the engine holds what it held
before. -/
def Atomic (run : Run Storage α) : Prop :=
  ∀ world error, (run.exec world).1 = .error (.failed error) →
    (run.exec world).2.engine.HoldsAs world.engine

theorem Quiet.atomic {run : Run Storage α} (hrun : Quiet run) : Atomic run := by
  intro world error _
  rw [hrun world]
  exact .refl _

/-- Nothing is changed before the last part of the run, and that part is atomic. -/
theorem Quiet.bind_atomic {first : Run Storage α} {next : α → Run Storage β} (hfirst : Quiet first)
    (hnext : ∀ a, Atomic (next a)) : Atomic (first >>= next) := by
  intro world error hfailed
  have hworld := hfirst world
  cases hresult : first.exec world with
  | mk result after =>
      rw [hresult] at hworld
      cases result with
      | error inner =>
          rw [Program.exec_bind_error hresult, hworld]
          exact .refl _
      | ok a =>
          rw [Program.exec_bind_ok hresult] at hfailed ⊢
          rw [← hworld]
          exact hnext a after error hfailed

namespace Atomic

/-- An update that has changed the store can only be late. -/
theorem update (deadlines : Deadlines) {update : Update Storage Unit}
    (hupdate : update.Atomic Storage.contents) : Atomic (Run.update deadlines update) := by
  intro world error hfailed
  rw [exec_update] at hfailed ⊢
  obtain ⟨result, clock, hpause, hresult⟩ := idle_pause deadlines
    { world with engine.store := (update.exec world.engine.store).2 }
  rcases hresult with rfl | ⟨level, rfl⟩
  · rw [Program.exec_bind_ok hpause, exec_lift] at hfailed ⊢
    rcases hupdate world.engine.store with hok | hcontents
    · rw [hok] at hfailed
      cases hfailed
    · exact ⟨hcontents, rfl⟩
  · rw [Program.exec_bind_error hpause] at hfailed
    cases hfailed

/-- What follows a change cannot stop any more. -/
theorem bind_pure {run : Run Storage α} (hrun : Atomic run) (f : α → β) :
    Atomic (run >>= fun a => Pure.pure (f a)) := by
  intro world error hfailed
  rw [Program.exec_bind_pure] at hfailed ⊢
  exact hrun world error (Except.map_eq_error_iff.mp hfailed)

end Atomic

end Run

/-! ## Operations on the store -/

section Data

variable (ctx : Context) (args : Arguments) (session : Session) (deadlines : Deadlines)

open Run

theorem quiet_runFinish (target : TableName) (cells : List Cell) :
    Quiet (runFinish session deadlines target cells : Run Storage Record) :=
  Quiet.engine.bind fun _ => (Quiet.wait _ _).bind fun _ => Quiet.lift _

theorem quiet_readNames (target : TableName) (rowkey : Bytes) (names : List Bytes) :
    Quiet (readNames ctx session deadlines target rowkey names : Run Storage Record) :=
  Quiet.now.bind fun _ => (Quiet.ask _ _).bind fun _ => quiet_runFinish session _ _ _

theorem quiet_batchMutations (rows : List Value) :
    Quiet (batchMutations ctx session rows : Run Storage (List Mutation)) := by
  induction rows with
  | nil => exact Quiet.pure _
  | cons row rest ih =>
      exact Quiet.now.bind fun _ => (Quiet.lift _).bind fun _ => ih.bind fun _ => Quiet.pure _

theorem atomic_runSet : Atomic (runSet ctx args session deadlines : Run Storage Record) :=
  Quiet.now.bind_atomic fun _ => (Quiet.lift _).bind_atomic fun mutation =>
    (Atomic.update _ (Storage.atomic_batchWrite [mutation] _)).bind_pure _

/-- Whichever row of a batch fails, none of its rows is written. -/
theorem atomic_runBatchSet : Atomic (runBatchSet ctx args session deadlines : Run Storage Record) :=
  (Quiet.lift _).bind_atomic fun rows => (quiet_batchMutations ctx session rows).bind_atomic
    fun mutations => (Atomic.update _ (Storage.atomic_batchWrite mutations _)).bind_pure _

theorem atomic_runCounter : Atomic (runCounter ctx args session deadlines : Run Storage Record) :=
  (Quiet.lift _).bind_atomic fun _ => Quiet.now.bind_atomic fun _ =>
    (Atomic.update _ (Storage.atomic_increment _ _ _ _ _ _)).bind_pure _

theorem atomic_runCreateKeyspace :
    Atomic (runCreateKeyspace args deadlines : Run Storage Record) :=
  (Quiet.lift _).bind_atomic fun _ =>
    (Atomic.update _ (Storage.atomic_createKeyspace _ _)).bind_pure _

theorem atomic_runCreateTable : Atomic (runCreateTable ctx args deadlines : Run Storage Record) :=
  (Quiet.lift _).bind_atomic fun _ => (Atomic.update _ (Storage.atomic_createTable _)).bind_pure _

theorem quiet_runGet : Quiet (runGet ctx args session deadlines : Run Storage Record) :=
  (Quiet.lift _).bind fun _ => quiet_readNames ctx session _ _ _ _

theorem quiet_runSlice : Quiet (runSlice ctx args session deadlines : Run Storage Record) :=
  (Quiet.lift _).bind fun _ => Quiet.now.bind fun _ => (Quiet.ask _ _).bind fun _ =>
    quiet_runFinish session _ _ _

theorem quiet_runSliceByNames :
    Quiet (runSliceByNames ctx args session deadlines : Run Storage Record) :=
  (Quiet.lift _).bind fun _ => quiet_readNames ctx session _ _ _ _

theorem quiet_runListKeyspaces : Quiet (runListKeyspaces deadlines : Run Storage Record) :=
  (Quiet.ask _ _).bind fun _ => Quiet.pure _

theorem quiet_runListTables : Quiet (runListTables ctx args deadlines : Run Storage Record) :=
  (Quiet.lift _).bind fun _ => (Quiet.ask _ _).bind fun _ => Quiet.pure _

theorem quiet_runQuery : Quiet (runQuery ctx args deadlines : Run Storage Record) :=
  (Quiet.lift _).bind fun _ => Quiet.now.bind fun _ => (Quiet.ask _ _).bind fun _ =>
    Quiet.pure _

theorem atomic_of_dataRun {run : Deadlines → Run Storage Record}
    (hrun : dataRun? ctx args session = some run) : Atomic (run deadlines) := by
  unfold dataRun? at hrun
  split at hrun <;> cases hrun
  · exact atomic_runSet ctx args session deadlines
  · exact (quiet_runGet ctx args session deadlines).atomic
  · exact (quiet_runSlice ctx args session deadlines).atomic
  · exact (quiet_runSliceByNames ctx args session deadlines).atomic
  · exact atomic_runBatchSet ctx args session deadlines
  · exact atomic_runCounter ctx args session deadlines
  · exact atomic_runCreateKeyspace args deadlines
  · exact atomic_runCreateTable ctx args deadlines
  · exact (quiet_runListKeyspaces deadlines).atomic
  · exact (quiet_runListTables ctx args deadlines).atomic
  · exact (quiet_runQuery ctx args deadlines).atomic

/-! ## Operations on results -/

theorem quiet_runProcess :
    Quiet (runProcess deadlines args session : Run Storage Record) :=
  Quiet.engine.bind fun _ => (Quiet.lift _).bind fun _ => (Quiet.wait _ _).bind fun _ =>
    (Quiet.lift _).bind fun _ => Quiet.pure _

theorem quiet_runMultiProcess :
    Quiet (runMultiProcess deadlines args session : Run Storage Record) :=
  Quiet.engine.bind fun _ => (Quiet.lift _).bind fun _ => (Quiet.wait _ _).bind fun _ =>
    (Quiet.lift _).bind fun _ => Quiet.pure _

theorem atomic_of_timedRun {nested : Nested Storage} {body : Deadlines → Run Storage Record}
    (hbody : timedRun? nested ctx args session = some body)
    (hprepared : args.kind ≠ .executePrepared) (hservice : args.kind ≠ .serviceProcess) :
    Atomic (body deadlines) := by
  unfold timedRun? at hbody
  split at hbody
  next hkind => exact absurd hkind hprepared
  · cases hbody
    exact (quiet_runProcess args session deadlines).atomic
  · cases hbody
    exact (quiet_runMultiProcess args session deadlines).atomic
  next hkind => exact absurd hkind hservice
  · exact atomic_of_dataRun ctx args session deadlines hbody

end Data

/-! ## Operations -/

section Operation

variable {nested : Nested Storage} {deadlines : Deadlines} {rest : List Operation}
variable {session : Session} {world : World Storage} {error : Error}

theorem Dispatched.holdsAs {ctx : Context} {args : Arguments}
    {result : Except Stop Step × World Storage}
    (hdispatched : Dispatched nested deadlines ctx args rest session world result)
    (hprepared : args.kind ≠ .executePrepared) (hservice : args.kind ≠ .serviceProcess)
    (hfailed : result.1 = .error (.failed error)) (hlate : ∀ millis, error ≠ .timeout millis) :
    result.2.engine.HoldsAs world.engine := by
  cases hdispatched with
  | unknown name _ => exact .refl _
  | prepared _ => cases hfailed
  | saved _ => cases hfailed
  | restored _ => exact .refl _
  | registered shape registry _ _ => cases hfailed
  | refused shape error _ _ => exact .refl _
  | administered result _ => exact .refl _
  | timed body hbody =>
      obtain ⟨ending, hwithin, hending⟩ := Run.exec_within ctx.timeout deadlines body world
      have hstop : ending = .error (.failed error) := by
        rw [hwithin] at hfailed
        exact Except.map_eq_error_iff.mp hfailed
      rw [hwithin]
      -- A run that its budget has stopped ends with a timeout, so the body itself
      -- failed.
      rcases hending with hbudget | hbody'
      · rw [hstop] at hbudget
        cases hbudget
        exact absurd rfl (hlate ctx.timeout)
      · rw [hstop] at hbody'
        exact atomic_of_timedRun ctx args session _ hbody hprepared hservice world _ hbody'.symm

theorem holdsAs_of_failed {operation : Operation} {binds : Option Binds}
    {attempt : Attempt Storage}
    (hattempt : attempt = attemptOf nested deadlines binds operation rest session world)
    (hprepared : operation.kind ≠ .executePrepared) (hservice : operation.kind ≠ .serviceProcess)
    (hfailed : attempt.error? = some error) (hlate : ∀ millis, error ≠ .timeout millis) :
    attempt.after.engine.HoldsAs world.engine := by
  rcases attempt_cases hattempt with ⟨cause, _, hafter⟩ | ⟨args, _, hkind, hdispatched⟩
  · rw [hafter]
    exact .refl _
  · rcases Attempt.ending_of_failed hfailed with ⟨after, hending⟩ | hending
    · have hafter : attempt.after = world := (hdispatched.unchanged_of_failed_change hending).2
      rw [hafter]
      exact .refl _
    · exact hdispatched.holdsAs (hkind ▸ hprepared) (hkind ▸ hservice) hending hlate

/-- Everything is as before an operation that failed, unless it runs a chain of its
own or is only late: what is stored, registered and kept, and the session. The chain
answers what the operations before it left. -/
theorem unchanged_of_failed {operation : Operation} {binds : Option Binds}
    {attempt : Attempt Storage}
    (hattempt : attempt = attemptOf nested deadlines binds operation rest session world)
    (hprepared : operation.kind ≠ .executePrepared) (hservice : operation.kind ≠ .serviceProcess)
    (hfailed : attempt.error? = some error) (hlate : ∀ millis, error ≠ .timeout millis) :
    attempt.after.engine.store.contents = world.engine.store.contents ∧
      attempt.after.engine.registry = world.engine.registry ∧
      attempt.after.engine.states = world.engine.states ∧
      attempt.after.engine.prepared = world.engine.prepared ∧
      ∀ index, attempt.left index = session ∧
        (runFrom nested deadlines binds index (operation :: rest) session).exec world =
          (.ok ⟨session.results.answers, some ⟨index, error⟩⟩, attempt.after) := by
  have hengine := holdsAs_of_failed hattempt hprepared hservice hfailed hlate
  refine ⟨hengine.contents, ?_, ?_, ?_, fun index => ⟨left_of_failed hattempt hfailed index, ?_⟩⟩
  · rw [hengine.rest]
  · rw [hengine.rest]
  · rw [hengine.rest]
  · exact exec_runFrom_of_failed hattempt hfailed index

/-- A counter on a column that holds none, in a table that is there. -/
theorem unchanged_of_failed_counter :
    let columns : Columns := (∅ : Columns).insert [2] ⟨[3], 0, none⟩
    let rows : Rows := (∅ : Rows).insert [1] columns
    let keyspace : Keyspace := { replication := 1, tables := (∅ : Map String Rows).insert "t" rows }
    let store : NestedStore := { keyspaces := (∅ : Map String Keyspace).insert "ks" keyspace }
    let world : World Storage := ⟨{ store := .nested store }, { readings := fun _ => 0 }⟩
    let operation : Operation :=
      { kind := .counter, overrides := { keyspace := "ks", table := "t" } }
    let operation := (operation.literal "rowkey" (.bytes [1])).literal "name" (.bytes [2])
    let attempt := attemptOf (runChain 0) [] none operation [] (Session.start .one 1) world
    attempt.error? = some (.store (.notCounter (Utf8.decodeLossy [2]))) ∧
      attempt.after.engine.store.contents = world.engine.store.contents := by
  intro columns rows keyspace store world operation operation attempt
  have hfailed : attempt.error? = some (.store (.notCounter (Utf8.decodeLossy [2]))) := rfl
  have hprepared : operation.kind ≠ .executePrepared := by decide
  have hservice : operation.kind ≠ .serviceProcess := by decide
  exact ⟨hfailed, (unchanged_of_failed rfl hprepared hservice hfailed nofun).1⟩

end Operation

end OperationChain
