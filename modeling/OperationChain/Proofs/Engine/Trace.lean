import OperationChain.Proofs.Engine.Templates

/-! # Everything that happens in a chain

Prepared statements and service processes run chains inside an operation. The trace
of a chain lists its attempts, each of them followed by the trace of the chain that
it ran inside itself, so that attempts stand in the order in which they began. The
table of saved states is changed by the attempts of the trace, one after the other,
and by nothing else.
-/

namespace OperationChain

variable {σ α β : Type}

/-! ## Chains inside operations -/

namespace Arguments

/-- The chain of a prepared statement, and the values bound in it. -/
def preparedChain (args : Arguments) (engine : Engine σ) :
    Except Error (List Operation × Option Binds) := do
  let template ← engine.prepared.get (← args.handle "id")
  return (template, some (← bindsOf (args.get? "binds")))

/-- The chain that a service process builds. -/
def builtChain (args : Arguments) (engine : Engine σ) :
    Except Error (List Operation × Option Binds) := do
  let name ← args.text "name"
  let params ← args.map "params"
  let process ← engine.registry.serviceProcess name
  return (← settleFault .serviceProcess name (process.build params), none)

/-- The chain that an operation runs inside itself, and the values bound in it. -/
def inner? (args : Arguments) (engine : Engine σ) : Option (List Operation × Option Binds) :=
  match args.kind with
  | .executePrepared => (args.preparedChain engine).toOption
  | .serviceProcess => (args.builtChain engine).toOption
  | _ => none

variable {args : Arguments} (engine : Engine σ)

theorem inner?_of_executePrepared (hkind : args.kind = .executePrepared) :
    args.inner? engine = (args.preparedChain engine).toOption := by
  rw [inner?, hkind]

theorem inner?_of_serviceProcess (hkind : args.kind = .serviceProcess) :
    args.inner? engine = (args.builtChain engine).toOption := by
  rw [inner?, hkind]

end Arguments

namespace Attempt

/-- The chain that the operation ran inside itself, and the values bound in it. -/
def inner? (attempt : Attempt σ) : Option (List Operation × Option Binds) :=
  (attempt.operation.resolve attempt.session.results attempt.binds).toOption.bind fun args =>
    args.inner? attempt.before.engine

/-- When the operation was due. -/
def due (attempt : Attempt σ) : Nat :=
  attempt.before.clock.elapsed +
    (attempt.operation.overrides.timeout.getD attempt.before.engine.timeout).toNat

end Attempt

/-- All attempts of a chain and of the chains inside it, in the order of their
beginnings. -/
def traceOf [Store σ] : (depth : Nat) → Deadlines → List Operation → Session → Option Binds →
    World σ → Attempts σ
  | 0, _, _, _, _, _ => []
  | depth + 1, deadlines, operations, session, binds, world =>
    (attemptsFrom (runChain depth) deadlines binds 0 operations session world).flatMap
      fun attempt => attempt :: attempt.inner?.elim [] fun inner =>
        traceOf depth (attempt.due :: deadlines) inner.1 (attempt.session.fork inner.1.length)
          inner.2 attempt.before

section Inner

variable {nested : Nested σ} {deadlines : Deadlines} {args : Arguments} {session : Session}
  {world : World σ}

/-- What only reads the end of a run leaves the world as the run left it. -/
theorem Run.after_bind_of_still {run : Run σ α} {next : α → Run σ β}
    (hstill : ∀ a after, ((next a).exec after).2 = after) :
    ((run >>= next).exec world).2 = (run.exec world).2 := by
  rw [Program.exec_bind]
  generalize run.exec world = result
  obtain ⟨stop | a, after⟩ := result
  · rfl
  · exact hstill a after

/-- A prepared statement leaves the world that its chain left. -/
theorem after_runExecutePrepared :
    ((runExecutePrepared nested deadlines args session).exec world).2 =
      (args.preparedChain world.engine).toOption.elim world fun inner =>
        ((nested deadlines inner.1 (session.fork inner.1.length) inner.2).exec world).2 := by
  rw [runExecutePrepared, Program.exec_bind_ok (Run.exec_engine world), Arguments.preparedChain]
  dsimp only
  cases args.handle "id" with
  | error error => rfl
  | ok handle =>
      rw [Except.ok_bind, Except.ok_bind]
      cases world.engine.prepared.get handle with
      | error error => rfl
      | ok template =>
          rw [Except.ok_bind, Except.ok_bind]
          cases bindsOf (args.get? "binds") with
          | error error => rfl
          | ok binds =>
              rw [Except.ok_bind, Except.ok_bind]
              refine (congrArg Prod.snd
                (Program.exec_bind_ok (Run.exec_lift_ok (template, binds) world))).trans ?_
              refine Run.after_bind_of_still fun response after => ?_
              cases response.failure <;> rfl

/-- A service process leaves the world that its chain left. -/
theorem after_runServiceProcess :
    ((runServiceProcess nested deadlines args session).exec world).2 =
      (args.builtChain world.engine).toOption.elim world fun inner =>
        ((nested deadlines inner.1 (session.fork inner.1.length) inner.2).exec world).2 := by
  rw [runServiceProcess, Program.exec_bind_ok (Run.exec_engine world), Arguments.builtChain]
  dsimp only
  cases args.text "name" with
  | error error => rfl
  | ok name =>
      rw [Except.ok_bind, Except.ok_bind]
      cases args.map "params" with
      | error error => rfl
      | ok params =>
          rw [Except.ok_bind, Except.ok_bind]
          cases world.engine.registry.serviceProcess name with
          | error error => rfl
          | ok process =>
              rw [Except.ok_bind, Except.ok_bind]
              cases settleFault .serviceProcess name (process.build params) with
              | error error => rfl
              | ok operations =>
                  rw [Except.ok_bind, Except.ok_bind]
                  refine (congrArg Prod.snd
                    (Program.exec_bind_ok (Run.exec_lift_ok (name, operations) world))).trans ?_
                  refine Run.after_bind_of_still fun response after => ?_
                  cases response.failure <;> rfl

end Inner

/-! ## Runs that change the store only -/

namespace Run

/-- Whatever the run ends with, of the engine only the store can be another. -/
def OnlyStore (run : Run σ α) : Prop :=
  ∀ world, ∃ store, (run.exec world).2.engine = { world.engine with store }

namespace OnlyStore

theorem of_quiet {run : Run σ α} (hquiet : Quiet run) : OnlyStore run :=
  fun world => ⟨world.engine.store, hquiet world⟩

theorem apply (update : Update σ α) : OnlyStore (Run.apply update) := fun _ => ⟨_, rfl⟩

theorem bind {first : Run σ α} {next : α → Run σ β} (hfirst : OnlyStore first)
    (hnext : ∀ a, OnlyStore (next a)) : OnlyStore (first >>= next) := by
  intro world
  obtain ⟨store, hstore⟩ := hfirst world
  cases hresult : first.exec world with
  | mk result after =>
      rw [hresult] at hstore
      cases result with
      | error stop =>
          rw [Program.exec_bind_error hresult]
          exact ⟨store, hstore⟩
      | ok a =>
          rw [Program.exec_bind_ok hresult]
          obtain ⟨last, hlast⟩ := hnext a after
          rw [hlast, hstore]
          exact ⟨last, rfl⟩

theorem closed (deadlines : Deadlines) :
    Closed deadlines deadlines fun {α : Type} (run _ : Run σ α) => OnlyStore run where
  pure a := of_quiet (.pure a)
  lift result := of_quiet (.lift result)
  engine := of_quiet .engine
  now := of_quiet .now
  nextPause := of_quiet .nextPause
  apply := apply
  block millis := of_quiet (.wait millis [])
  wait millis := of_quiet (.wait millis deadlines)
  bind := bind

end OnlyStore

end Run

/-! ## What an operation does to the saved states -/

/-- What a save keeps, if the operation is one and succeeded. -/
def Attempt.saved? (attempt : Attempt σ) : Option Snapshot :=
  if attempt.operation.kind = .saveState then
    attempt.record?.map fun _ => attempt.session.defaults
  else none

/-- The saved states after an operation, apart from what the chain inside it saves. -/
def Attempt.keeps (attempt : Attempt σ) (states : Keeper Snapshot) : Keeper Snapshot :=
  attempt.saved?.elim states fun snapshot => (states.keep snapshot).2

/-- An operation that ran a chain inside itself has saved nothing itself. -/
theorem Attempt.saved?_of_inner {attempt : Attempt σ} {inner : List Operation × Option Binds}
    (hinner : attempt.inner? = some inner) : attempt.saved? = none := by
  obtain ⟨found, hfound, hinner⟩ := Option.bind_eq_some_iff.mp hinner
  rw [Except.toOption_eq_some_iff] at hfound
  have hkind := Operation.resolve_kind hfound
  refine if_neg fun hsave => ?_
  rw [hsave] at hkind
  rw [Arguments.inner?, hkind] at hinner
  cases hinner

section Operations

variable [Store σ] {nested : Nested σ} {deadlines : Deadlines} {ctx : Context} {args : Arguments}
  {rest : List Operation} {session : Session} {world : World σ}

theorem after_runResolved_of_timedRun {body : Deadlines → Run σ Record}
    (hbody : timedRun? nested ctx args session = some body) :
    ((runResolved nested deadlines ctx args rest session).exec world).2 =
      ((body ((world.clock.elapsed + ctx.timeout.toNat) :: deadlines)).exec world).2 := by
  obtain ⟨result, hwithin, _⟩ := Run.exec_within ctx.timeout deadlines body world
  rw [runResolved_of_timedRun hbody, Program.exec_bind_ok (Run.exec_engine world),
    Program.exec_bind_pure, hwithin]

/-- An operation that runs a chain inside itself leaves the world that the chain left. -/
theorem after_runResolved_of_inner {inner : List Operation × Option Binds}
    (hinner : args.inner? world.engine = some inner) :
    ((runResolved nested deadlines ctx args rest session).exec world).2 =
      ((nested ((world.clock.elapsed + ctx.timeout.toNat) :: deadlines) inner.1
        (session.fork inner.1.length) inner.2).exec world).2 := by
  unfold Arguments.inner? at hinner
  split at hinner
  next hkind =>
    have hbody : timedRun? nested ctx args session =
        some fun deadlines => runExecutePrepared nested deadlines args session := by
      rw [timedRun?, hkind]
    rw [after_runResolved_of_timedRun hbody, after_runExecutePrepared, hinner, Option.elim_some]
  next hkind =>
    have hbody : timedRun? nested ctx args session =
        some fun deadlines => runServiceProcess nested deadlines args session := by
      rw [timedRun?, hkind]
    rw [after_runResolved_of_timedRun hbody, after_runServiceProcess, hinner, Option.elim_some]
  next => cases hinner

theorem runResolved_of_saveState (hkind : args.kind = .saveState) :
    runResolved nested deadlines ctx args rest session = runSaveState session := by
  rw [runResolved, hkind]

/-- A timed operation that runs no chain inside itself changes nothing but the store. -/
theorem engine_of_timedRun {body : Deadlines → Run σ Record}
    (hbody : timedRun? nested ctx args session = some body)
    (hinner : args.inner? world.engine = none) (due : Deadlines) :
    ∃ store, ((body due).exec world).2.engine = { world.engine with store } := by
  unfold timedRun? at hbody
  split at hbody
  next hkind =>
    cases hbody
    rw [Arguments.inner?_of_executePrepared _ hkind] at hinner
    rw [after_runExecutePrepared, hinner, Option.elim_none]
    exact ⟨world.engine.store, rfl⟩
  · cases hbody
    refine Run.OnlyStore.of_quiet ?_ world
    exact Run.Quiet.engine.bind fun _ => (Run.Quiet.lift _).bind fun _ =>
      (Run.Quiet.wait _ _).bind fun _ => (Run.Quiet.lift _).bind fun _ => Run.Quiet.pure _
  · cases hbody
    refine Run.OnlyStore.of_quiet ?_ world
    exact Run.Quiet.engine.bind fun _ => (Run.Quiet.lift _).bind fun _ =>
      (Run.Quiet.wait _ _).bind fun _ => (Run.Quiet.lift _).bind fun _ => Run.Quiet.pure _
  next hkind =>
    cases hbody
    rw [Arguments.inner?_of_serviceProcess _ hkind] at hinner
    rw [after_runServiceProcess, hinner, Option.elim_none]
    exact ⟨world.engine.store, rfl⟩
  · exact (Run.OnlyStore.closed due).dataRun hbody world

/-- An operation that runs no chain inside itself keeps the saved states, unless it
saves one more. -/
theorem states_runResolved_of_not_inner (hinner : args.inner? world.engine = none)
    (hsave : args.kind ≠ .saveState) :
    ((runResolved nested deadlines ctx args rest session).exec world).2.engine.states =
      world.engine.states := by
  have hdispatched := dispatched nested deadlines ctx args rest session world
  generalize hrun : (runResolved nested deadlines ctx args rest session).exec world = run
    at hdispatched
  cases hdispatched with
  | saved hkind => exact absurd hkind hsave
  | unknown => rfl
  | prepared => rfl
  | restored => rfl
  | registered => rfl
  | refused => rfl
  | administered => rfl
  | timed body hbody =>
      rw [← hrun, after_runResolved_of_timedRun hbody]
      obtain ⟨store, hstore⟩ := engine_of_timedRun hbody hinner
        ((world.clock.elapsed + ctx.timeout.toNat) :: deadlines)
      rw [hstore]

variable {binds : Option Binds} {operation : Operation} {attempt : Attempt σ}
  (hattempt : attempt = attemptOf nested deadlines binds operation rest session world)
include hattempt

/-- Either a parameter had no value and nothing happened, or the operation was run with
the values of its parameters. -/
theorem Attempt.run_cases :
    (∃ error, attempt.operation.resolve attempt.session.results attempt.binds = .error error ∧
        attempt.ending = .error (.failed error) ∧ attempt.after = attempt.before) ∨
      ∃ args, attempt.operation.resolve attempt.session.results attempt.binds = .ok args ∧
        args.kind = attempt.operation.kind ∧
        (runResolved nested deadlines (Context.of attempt.session attempt.operation
          attempt.before.engine.timeout) args rest attempt.session).exec attempt.before =
            (attempt.ending, attempt.after) := by
  subst hattempt
  cases hargs : operation.resolve session.results binds with
  | error error =>
      have hrun := runOperation_unresolved nested deadlines rest world hargs
      exact .inl ⟨error, hargs, congrArg Prod.fst hrun, congrArg Prod.snd hrun⟩
  | ok args =>
      have hrun := runOperation_resolved nested deadlines rest world hargs
      exact .inr ⟨args, hargs, Operation.resolve_kind hargs, hrun.symm⟩

/-- An operation that ran a chain inside itself left the world that this chain
left. -/
theorem Attempt.after_of_inner {inner : List Operation × Option Binds}
    (hinner : attempt.inner? = some inner) :
    attempt.after = ((nested (attempt.due :: deadlines) inner.1
      (attempt.session.fork inner.1.length) inner.2).exec attempt.before).2 := by
  obtain ⟨found, hfound, hinner⟩ := Option.bind_eq_some_iff.mp hinner
  rw [Except.toOption_eq_some_iff] at hfound
  rcases attempt.run_cases hattempt with ⟨error, herror, _⟩ | ⟨args, hargs, _, hrun⟩
  · rw [hfound] at herror
    cases herror
  · rw [hfound] at hargs
    cases hargs
    exact (congrArg Prod.snd hrun).symm.trans (after_runResolved_of_inner hinner)

/-- An operation that ran no chain inside itself has saved its own state at most. -/
theorem Attempt.states_of_not_inner (hinner : attempt.inner? = none) :
    attempt.after.engine.states = attempt.keeps attempt.before.engine.states := by
  rcases attempt.run_cases hattempt with
    ⟨error, _, hending, hafter⟩ | ⟨args, hargs, hkind, hrun⟩
  · have hnone : attempt.record? = none := Attempt.record?_error hending
    rw [Attempt.keeps, Attempt.saved?, hnone, Option.map_none, ite_self, Option.elim_none, hafter]
  · rw [Attempt.inner?, Except.toOption_eq_some_iff.mpr hargs, Option.bind_some] at hinner
    by_cases hsave : args.kind = .saveState
    · rw [runResolved_of_saveState hsave, exec_runSaveState] at hrun
      obtain ⟨hending, hafter⟩ := Prod.mk.inj hrun
      have hrecord := Attempt.record?_next hending.symm
      rw [Attempt.keeps, Attempt.saved?, if_pos (hkind.symm.trans hsave), hrecord, ← hafter]
      rfl
    · have hother : attempt.operation.kind ≠ .saveState := hkind ▸ hsave
      rw [Attempt.keeps, Attempt.saved?, if_neg hother, Option.elim_none,
        ← states_runResolved_of_not_inner hinner hsave, hrun]

end Operations

/-! ## Saved states along a trace -/

/-- Steps over the items of a list, one after the other. -/
inductive Threaded {τ μ : Type} (step : τ → μ → τ → Prop) : τ → List μ → τ → Prop where
  | nil (state : τ) : Threaded step state [] state
  | cons {state next after : τ} {item : μ} {rest : List μ} (hstep : step state item next)
      (hrest : Threaded step next rest after) : Threaded step state (item :: rest) after

namespace Threaded

variable {τ μ : Type} {step : τ → μ → τ → Prop} {state between after : τ} {first second : List μ}

theorem append (hfirst : Threaded step state first between)
    (hsecond : Threaded step between second after) :
    Threaded step state (first ++ second) after := by
  induction hfirst with
  | nil state => exact hsecond
  | cons hstep hrest ih => exact .cons hstep (ih hsecond)

theorem map {ν : Type} {other : τ → ν → τ → Prop} {f : μ → ν}
    (hstep : ∀ {state item after}, step state item after → other state (f item) after)
    (hfirst : Threaded step state first after) : Threaded other state (first.map f) after := by
  induction hfirst with
  | nil state => exact .nil state
  | cons hfirst hrest ih => exact .cons (hstep hfirst) ih

theorem exists_of_append (happend : Threaded step state (first ++ second) after) :
    ∃ between, Threaded step state first between ∧ Threaded step between second after := by
  induction first generalizing state with
  | nil => exact ⟨state, .nil state, happend⟩
  | cons item rest ih =>
      cases happend with
      | cons hstep hrest =>
          obtain ⟨between, hfirst, hsecond⟩ := ih hrest
          exact ⟨between, .cons hstep hfirst, hsecond⟩

end Threaded

theorem endingAfter_after (attempt : Attempt σ) (index : Nat) :
    (endingAfter attempt index).2 = attempt.after := by
  unfold endingAfter
  split <;> rfl

section Traces

variable [Store σ]

/-- Some chain attempted this operation, found these saved states and left those. -/
structure Attempt.Threads (states : Keeper Snapshot) (attempt : Attempt σ)
    (after : Keeper Snapshot) : Prop where
  attempted : ∃ (nested : Nested σ) (deadlines : Deadlines) (rest : List Operation),
    attempt = attemptOf nested deadlines attempt.binds attempt.operation rest attempt.session
      attempt.before
  found : attempt.before.engine.states = states
  left : after = attempt.keeps states

theorem threads_attemptOf (nested : Nested σ) (deadlines : Deadlines) (binds : Option Binds)
    (operation : Operation) (rest : List Operation) (session : Session) (world : World σ) :
    let attempt := attemptOf nested deadlines binds operation rest session world
    attempt.Threads world.engine.states (attempt.keeps world.engine.states) :=
  ⟨⟨nested, deadlines, rest, rfl⟩, rfl, rfl⟩

/-- A chain threads the saved states through its attempts, if the chains inside them
do. -/
theorem threaded_attemptsFrom {nested : Nested σ} {deadlines : Deadlines} {binds : Option Binds}
    {inside : Attempt σ → Attempts σ}
    (hinside : ∀ operation rest session world,
      let attempt := attemptOf nested deadlines binds operation rest session world
      Threaded Attempt.Threads world.engine.states (attempt :: inside attempt)
        attempt.after.engine.states)
    (index : Nat) (operations : List Operation) (session : Session) (world : World σ) :
    Threaded Attempt.Threads world.engine.states
      ((attemptsFrom nested deadlines binds index operations session world).flatMap
        fun attempt => attempt :: inside attempt)
      ((runFrom nested deadlines binds index operations session).exec world).2.engine.states := by
  induction operations generalizing index session world with
  | nil => exact .nil _
  | cons operation rest ih =>
      have hfirst := hinside operation rest session world
      rw [exec_runFrom_cons]
      dsimp only
      by_cases hnext : (attemptOf nested deadlines binds operation rest session world).GoesOn
      · rw [attemptsFrom_cons_of_goesOn hnext, List.flatMap_cons]
        obtain ⟨record, next, hending⟩ := hnext
        rw [hending]
        exact hfirst.append (ih (index + 1) _ _)
      · rw [attemptsFrom_cons_of_not_goesOn hnext, List.flatMap_singleton]
        split
        next record next hending => exact absurd ⟨record, next, hending⟩ hnext
        next =>
          rw [endingAfter_after]
          exact hfirst

/-- The saved states are threaded through the trace of a chain. -/
theorem threaded_traceOf (depth : Nat) (deadlines : Deadlines) (operations : List Operation)
    (session : Session) (binds : Option Binds) (world : World σ) :
    Threaded Attempt.Threads world.engine.states
      (traceOf depth deadlines operations session binds world)
      ((runChain depth deadlines operations session binds).exec world).2.engine.states := by
  induction depth generalizing deadlines operations session binds world with
  | zero => exact .nil _
  | succ depth ih =>
      refine threaded_attemptsFrom (fun operation rest session world => ?_) 0 operations session
        world
      intro attempt
      have hthreads := threads_attemptOf (runChain depth) deadlines binds operation rest session
        world
      cases hinner : attempt.inner? with
      | none =>
          rw [Option.elim_none, attempt.states_of_not_inner rfl hinner]
          exact .cons hthreads (.nil _)
      | some inner =>
          -- The operation itself saves nothing, so its chain finds what it has found.
          have hkeeps : attempt.keeps world.engine.states = world.engine.states := by
            rw [Attempt.keeps, attempt.saved?_of_inner hinner, Option.elim_none]
          rw [Option.elim_some, attempt.after_of_inner rfl hinner]
          refine .cons hthreads ?_
          rw [hkeeps]
          exact ih _ _ _ _ _

end Traces

end OperationChain
