import OperationChain.Engine.Chain
import OperationChain.Proofs.Engine.Run
import OperationChain.Proofs.Except

/-! # What one operation does

Resolution comes first and changes nothing. A resolved operation is then dispatched
by its kind, and `Dispatched` lists everything that can become of it, so that later
proofs never open the dispatch again.
-/

namespace OperationChain

variable {σ : Type}

/-! ## Operations on what an engine keeps -/

theorem exec_runPrepare (rest : List Operation) (world : World σ) :
    (runPrepare rest).exec world =
      (.ok (.halt (.ofHandle (world.engine.prepared.keep rest).1)),
        { world with engine.prepared := (world.engine.prepared.keep rest).2 }) := rfl

theorem exec_runSaveState (session : Session) (world : World σ) :
    (runSaveState session).exec world =
      (.ok (.next (.ofHandle (world.engine.states.keep session.defaults).1) session),
        { world with engine.states := (world.engine.states.keep session.defaults).2 }) := rfl

/-- The saved state that a `restore_state` names. -/
def Engine.namedState (engine : Engine σ) (args : Arguments) : Except Error Snapshot := do
  engine.states.get (← args.handle "id")

theorem exec_runRestoreState (args : Arguments) (session : Session) (world : World σ) :
    (runRestoreState args session).exec world =
      (((world.engine.namedState args).mapError .failed).map fun snapshot =>
        .next .ok (session.restore snapshot), world) := by
  rw [runRestoreState, Program.exec_bind_ok (Run.exec_engine world), Program.exec_bind_pure,
    Run.exec_lift]
  rfl

theorem exec_runRegister_ok {shape : Shape} {args : Arguments} {session : Session} {world : World σ}
    {registry : Registry}
    (hregistry : registerCapability world.engine.registry shape args = .ok registry) :
    (runRegister shape args session).exec world =
      (.ok (.next .ok session), { world with engine.registry := registry }) := by
  rw [runRegister, Program.exec_bind_ok (Run.exec_engine world), hregistry]
  rfl

theorem exec_runRegister_error {shape : Shape} {args : Arguments} {session : Session}
    {world : World σ} {error : Error}
    (herror : registerCapability world.engine.registry shape args = .error error) :
    (runRegister shape args session).exec world = (.error (.failed error), world) := by
  rw [runRegister, Program.exec_bind_ok (Run.exec_engine world), herror]
  rfl

/-! ## Resolution -/

theorem Operation.resolve_kind {operation : Operation} {results : Results} {binds : Option Binds}
    {args : Arguments} (hargs : operation.resolve results binds = .ok args) :
    args.kind = operation.kind := by
  unfold Operation.resolve at hargs
  cases hvalues : resolveEntries results binds operation.params.entries with
  | error error =>
      rw [hvalues] at hargs
      cases hargs
  | ok values =>
      rw [hvalues] at hargs
      cases hargs
      rfl

section Resolution

variable [Store σ] {operation : Operation} {session : Session} {binds : Option Binds}
variable (nested : Nested σ) (deadlines : Deadlines) (rest : List Operation) (world : World σ)

/-- Where a parameter has no value nothing happens, and not even the clock goes on. -/
theorem runOperation_unresolved {error : Error}
    (herror : operation.resolve session.results binds = .error error) :
    (runOperation nested deadlines operation rest session binds).exec world =
      (.error (.failed error), world) := by
  rw [runOperation, Program.exec_bind_ok (Run.exec_engine world), herror,
    Program.exec_bind_error (Run.exec_lift_error error world)]

theorem runOperation_resolved {args : Arguments}
    (hargs : operation.resolve session.results binds = .ok args) :
    (runOperation nested deadlines operation rest session binds).exec world =
      (runResolved nested deadlines (Context.of session operation world.engine.timeout) args rest
        session).exec world := by
  rw [runOperation, Program.exec_bind_ok (Run.exec_engine world), hargs,
    Program.exec_bind_ok (Run.exec_lift_ok args world)]

end Resolution

/-! ## Operations on the session -/

/-- Everything that can become of an operation on the session. One that fails has
changed nothing, and only a `clear` touches the results. -/
inductive Administered (args : Arguments) (session : Session) :
    Except Error Unit × Session → Prop where
  | refused (error : Error) : Administered args session (.error error, session)
  | cleared (index : Int64) (results : Results) (hkind : args.kind = .clear)
      (hindex : args.integer "index" = .ok index)
      (hresults : session.results.clear index.toInt = .ok results) :
      Administered args session (.ok (), { session with results })
  | changed (after : Session) (hkind : args.kind ≠ .clear)
      (hresults : after.results = session.results) :
      Administered args session (.ok (), after)

theorem administered {registry : Registry} {ctx : Context} {args : Arguments}
    {change : Update Session Unit} (hchange : administer? registry ctx args = some change)
    (session : Session) : Administered args session (change.exec session) := by
  unfold administer? at hchange
  split at hchange <;> cases hchange
  case h_8 hkind =>
    rw [Update.exec_lift_bind]
    cases hindex : args.integer "index" with
    | error error => exact .refused error
    | ok index =>
        dsimp only
        rw [Program.exec_bind_ok (Program.exec_get session), Update.exec_lift_bind]
        cases hresults : session.results.clear index.toInt with
        | error error => exact .refused error
        | ok results => exact .cleared index results hkind hindex hresults
  all_goals
    next hkind =>
      have hother : args.kind ≠ .clear := by rw [hkind]; exact nofun
      -- Every path either fails before it touches the session, or changes it once at its end.
      repeat' first
        | exact .refused _
        | exact .changed _ hother rfl
        | simp only [Update.exec_lift_bind]
        | split

variable [Store σ]

/-! ## Operations on the store -/

/-- The session as operations on the store see it: without results, and without the
defaults that they find in their contexts. -/
def Session.bare (session : Session) : Session :=
  { session with
    results := .ofLength 0
    defaults := { session.defaults with keyspace := none, table := none, consistency := .any } }

omit [Store σ] in
theorem batchMutations_bare (ctx : Context) (session : Session) (rows : List Value) :
    (batchMutations ctx session.bare rows : Run σ (List Mutation)) =
      batchMutations ctx session rows := by
  induction rows with
  | nil => rfl
  | cons row rest ih =>
      rw [batchMutations, batchMutations, ih]
      rfl

theorem dataRun?_bare (ctx : Context) (args : Arguments) (session : Session) :
    (dataRun? ctx args session.bare : Option (Deadlines → Run σ Record)) =
      dataRun? ctx args session := by
  have hbatch : (runBatchSet ctx args session.bare : Deadlines → Run σ Record) =
      runBatchSet ctx args session := by
    funext deadlines
    simp only [runBatchSet, batchMutations_bare]
  unfold dataRun?
  rw [hbatch]
  rfl

/-! ## Dispatch -/

/-- Only a `prepare` looks at the operations after it. -/
theorem runResolved_rest (nested : Nested σ) (deadlines : Deadlines) {args : Arguments}
    (hkind : args.kind ≠ .prepare) (ctx : Context) (rest rest' : List Operation)
    (session : Session) :
    runResolved nested deadlines ctx args rest session =
      runResolved nested deadlines ctx args rest' session := by
  unfold runResolved
  split
  · rfl
  next hprepare => exact absurd hprepare hkind
  · rfl
  · rfl
  · rfl

/-- Every kind that has a name is run in one of these ways. -/
theorem exists_timedRun (nested : Nested σ) (ctx : Context) (args : Arguments) (session : Session)
    (registry : Registry) (hunknown : ∀ name, args.kind ≠ .unknown name)
    (hprepare : args.kind ≠ .prepare) (hsave : args.kind ≠ .saveState)
    (hrestore : args.kind ≠ .restoreState) (hshape : registeredShape? args.kind = none)
    (hsession : administer? registry ctx args = none) :
    ∃ body, timedRun? nested ctx args session = some body := by
  cases hkind : args.kind <;>
    simp_all [registeredShape?, administer?, timedRun?, dataRun?]

section Kinds

variable {args : Arguments}

theorem timedRun?_of_get (nested : Nested σ) (ctx : Context) (session : Session)
    (hkind : args.kind = .get) :
    timedRun? nested ctx args session = some (runGet ctx args session) := by
  rw [timedRun?, dataRun?, hkind]

theorem timedRun?_of_set (nested : Nested σ) (ctx : Context) (session : Session)
    (hkind : args.kind = .set) :
    timedRun? nested ctx args session = some (runSet ctx args session) := by
  rw [timedRun?, dataRun?, hkind]

theorem timedRun?_of_slice (nested : Nested σ) (ctx : Context) (session : Session)
    (hkind : args.kind = .slice) :
    timedRun? nested ctx args session = some (runSlice ctx args session) := by
  rw [timedRun?, dataRun?, hkind]

theorem timedRun?_of_sliceByNames (nested : Nested σ) (ctx : Context) (session : Session)
    (hkind : args.kind = .sliceByNames) :
    timedRun? nested ctx args session = some (runSliceByNames ctx args session) := by
  rw [timedRun?, dataRun?, hkind]

end Kinds

/-- Everything that can become of a resolved operation: how it ends, and the world
after it. -/
inductive Dispatched (nested : Nested σ) (deadlines : Deadlines) (ctx : Context) (args : Arguments)
    (rest : List Operation) (session : Session) (world : World σ) :
    Except Stop Step × World σ → Prop where
  | unknown (name : String) (hkind : args.kind = .unknown name) :
      Dispatched nested deadlines ctx args rest session world
        (.error (.failed (.validation (.unknownOperation name))), world)
  | prepared (hkind : args.kind = .prepare) :
      Dispatched nested deadlines ctx args rest session world
        (.ok (.halt (.ofHandle (world.engine.prepared.keep rest).1)),
          { world with engine.prepared := (world.engine.prepared.keep rest).2 })
  | saved (hkind : args.kind = .saveState) :
      Dispatched nested deadlines ctx args rest session world
        (.ok (.next (.ofHandle (world.engine.states.keep session.defaults).1) session),
          { world with engine.states := (world.engine.states.keep session.defaults).2 })
  | restored (hkind : args.kind = .restoreState) :
      Dispatched nested deadlines ctx args rest session world
        (((world.engine.namedState args).mapError .failed).map fun snapshot =>
          .next .ok (session.restore snapshot), world)
  | registered (shape : Shape) (registry : Registry)
      (hshape : registeredShape? args.kind = some shape)
      (hregistry : registerCapability world.engine.registry shape args = .ok registry) :
      Dispatched nested deadlines ctx args rest session world
        (.ok (.next .ok session), { world with engine.registry := registry })
  | refused (shape : Shape) (error : Error) (hshape : registeredShape? args.kind = some shape)
      (herror : registerCapability world.engine.registry shape args = .error error) :
      Dispatched nested deadlines ctx args rest session world (.error (.failed error), world)
  | administered (result : Except Error Unit × Session)
      (hresult : Administered args session result) :
      Dispatched nested deadlines ctx args rest session world (.ok (.ofChange result), world)
  | timed (body : Deadlines → Run σ Record)
      (hbody : timedRun? nested ctx args session = some body) :
      Dispatched nested deadlines ctx args rest session world
        (((Run.within ctx.timeout deadlines body).exec world).1.map (.next · session),
          ((Run.within ctx.timeout deadlines body).exec world).2)

theorem dispatched (nested : Nested σ) (deadlines : Deadlines) (ctx : Context) (args : Arguments)
    (rest : List Operation) (session : Session) (world : World σ) :
    Dispatched nested deadlines ctx args rest session world
      ((runResolved nested deadlines ctx args rest session).exec world) := by
  unfold runResolved
  split
  next name hkind => exact .unknown name hkind
  next hkind =>
    rw [exec_runPrepare]
    exact .prepared hkind
  next hkind =>
    rw [exec_runSaveState]
    exact .saved hkind
  next hkind =>
    rw [exec_runRestoreState]
    exact .restored hkind
  next hunknown hprepare hsave hrestore =>
    split
    next shape hshape =>
      cases hregistry : registerCapability world.engine.registry shape args with
      | ok registry =>
          rw [exec_runRegister_ok hregistry]
          exact .registered shape registry hshape hregistry
      | error error =>
          rw [exec_runRegister_error hregistry]
          exact .refused shape error hshape hregistry
    next hshape =>
      rw [Program.exec_bind_ok (Run.exec_engine world)]
      split
      next change hchange => exact .administered _ (administered hchange session)
      next hsession =>
        obtain ⟨body, hbody⟩ := exists_timedRun nested ctx args session world.engine.registry
          hunknown hprepare hsave hrestore hshape hsession
        rw [hbody]
        dsimp only
        rw [Program.exec_bind_pure]
        exact .timed body hbody

/-! ## Results -/

namespace Dispatched

variable {nested : Nested σ} {deadlines : Deadlines} {ctx : Context} {args : Arguments}
variable {rest : List Operation} {session : Session} {world : World σ}
variable {run : Except Stop Step × World σ} {record : Record}

/-- Only a `prepare` ends its chain without failing. -/
theorem kind_of_halt (hrun : Dispatched nested deadlines ctx args rest session world run)
    (hhalt : run.1 = .ok (.halt record)) : args.kind = .prepare := by
  cases hrun with
  | prepared hkind => exact hkind
  | unknown => cases hhalt
  | saved => cases hhalt
  | registered => cases hhalt
  | refused => cases hhalt
  | restored =>
      obtain ⟨snapshot, _, hstep⟩ := Except.map_eq_ok_iff.mp hhalt
      cases hstep
  | administered _ hresult => cases hresult <;> cases hhalt
  | timed =>
      obtain ⟨produced, _, hstep⟩ := Except.map_eq_ok_iff.mp hhalt
      cases hstep

/-- An operation after which the chain goes on has cleared one result or left all as
they are. -/
theorem results_of_next {next : Session}
    (hrun : Dispatched nested deadlines ctx args rest session world run)
    (hnext : run.1 = .ok (.next record next)) :
    (args.kind = .clear ∧ ∃ index, args.integer "index" = .ok index ∧
        session.results.clear index.toInt = .ok next.results) ∨
      (args.kind ≠ .clear ∧ next.results = session.results) := by
  cases hrun with
  | unknown => cases hnext
  | prepared => cases hnext
  | refused => cases hnext
  | saved hkind =>
      cases hnext
      exact .inr ⟨by rw [hkind]; exact nofun, rfl⟩
  | restored hkind =>
      obtain ⟨snapshot, _, hstep⟩ := Except.map_eq_ok_iff.mp hnext
      cases hstep
      exact .inr ⟨by rw [hkind]; exact nofun, rfl⟩
  | registered shape registry hshape =>
      cases hnext
      refine .inr ⟨?_, rfl⟩
      intro hkind
      rw [hkind] at hshape
      cases hshape
  | administered _ hresult =>
      cases hresult with
      | refused => cases hnext
      | cleared index results hkind hindex hresults =>
          cases hnext
          exact .inl ⟨hkind, index, hindex, hresults⟩
      | changed after hkind hresults =>
          cases hnext
          exact .inr ⟨hkind, hresults⟩
  | timed body hbody =>
      obtain ⟨produced, _, hstep⟩ := Except.map_eq_ok_iff.mp hnext
      cases hstep
      refine .inr ⟨?_, rfl⟩
      intro hkind
      simp [timedRun?, dataRun?, hkind] at hbody

/-- A change of the session that failed has left the session and the world as they
were. -/
theorem unchanged_of_failed_change {error : Error} {after : Session}
    (hrun : Dispatched nested deadlines ctx args rest session world run)
    (hfailed : run.1 = .ok (.failed error after)) : after = session ∧ run.2 = world := by
  cases hrun with
  | unknown => cases hfailed
  | prepared => cases hfailed
  | saved => cases hfailed
  | registered => cases hfailed
  | refused => cases hfailed
  | restored =>
      obtain ⟨snapshot, _, hstep⟩ := Except.map_eq_ok_iff.mp hfailed
      cases hstep
  | administered _ hresult =>
      cases hresult with
      | refused =>
          cases hfailed
          exact ⟨rfl, rfl⟩
      | cleared => cases hfailed
      | changed => cases hfailed
  | timed =>
      obtain ⟨produced, _, hstep⟩ := Except.map_eq_ok_iff.mp hfailed
      cases hstep

end Dispatched

end OperationChain
