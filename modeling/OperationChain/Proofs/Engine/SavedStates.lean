import OperationChain.Proofs.Engine.Trace
import OperationChain.Proofs.History
import OperationChain.Proofs.Ordered.Map
import OperationChain.Store.Nested

/-! # Saved states

A handle means the session that it was handed out for, in every chain and as often as
it is restored, until a client lets go of it. Handles that mean nothing are refused.
-/

namespace OperationChain

variable {σ : Type}

/-! ## Histories -/

/-- What a client does with an engine. Each request comes with the clock that its chain
reads, and with a bound for the depth of its chains. -/
inductive Visit where
  | request (clock : Clock) (depth : Nat) (request : Request)
  | releaseState (handle : Handle)
  | releasePrepared (handle : Handle)

/-- What happened to an engine. -/
inductive Moment (σ : Type) where
  /-- A request was taken up. -/
  | started (engine : Engine σ) (request : Request)
  /-- A chain, or a chain inside one, attempted an operation. -/
  | attempted (attempt : Attempt σ)
  /-- A saved state was let go. -/
  | released (handle : Handle)

namespace Engine

variable [Store σ]

/-- What happens during a visit. -/
def moments (engine : Engine σ) : Visit → List (Moment σ)
  | .request clock depth request =>
    .started engine request :: ((engine.startSession request).toOption.elim [] fun session =>
      (traceOf depth [] request.operations session none ⟨engine, clock⟩).map .attempted)
  | .releaseState handle =>
    (engine.releaseState handle).toOption.elim [] fun _ => [.released handle]
  | .releasePrepared _ => []

/-- The engine after a visit. -/
def visited (engine : Engine σ) : Visit → Engine σ
  | .request clock depth request =>
    (engine.startSession request).toOption.elim engine fun session =>
      ((runChain depth [] request.operations session none).exec ⟨engine, clock⟩).2.engine
  | .releaseState handle => (engine.releaseState handle).toOption.getD engine
  | .releasePrepared handle => (engine.releasePrepared handle).toOption.getD engine

/-- What happens during visits that come one after the other. -/
def history (engine : Engine σ) : List Visit → List (Moment σ)
  | [] => []
  | visit :: rest => engine.moments visit ++ (engine.visited visit).history rest

/-- A request that is answered leaves this engine. -/
theorem visited_of_execute {engine : Engine σ} {clock : Clock} {depth : Nat} {request : Request}
    {response : Response} {world : World σ}
    (hexecute : engine.execute clock depth request = some (response, world)) :
    engine.visited (.request clock depth request) = world.engine := by
  rw [visited]
  unfold execute at hexecute
  split at hexecute
  next error herror =>
    rw [herror]
    cases hexecute
    rfl
  next session hsession =>
    rw [hsession]
    dsimp only [Except.toOption, Option.elim_some]
    split at hexecute
    next found after hrun =>
      rw [hrun]
      cases hexecute
      rfl
    next => cases hexecute

end Engine

/-- The operation saved this state, and returned this handle for it. Handles count up and
are not bounded, while what is returned is a word. -/
structure Attempt.Saves (attempt : Attempt σ) (handle : Handle) (snapshot : Snapshot) : Prop where
  kind : attempt.operation.kind = .saveState
  record : attempt.record? = some (.ofHandle handle)
  handle : handle = attempt.before.engine.states.last + 1
  snapshot : snapshot = attempt.session.defaults

/-- The state was saved under this handle, and not let go since. -/
def Held (moments : List (Moment σ)) (handle : Handle) (snapshot : Snapshot) : Prop :=
  ∃ earlier attempt later, moments = earlier ++ .attempted attempt :: later ∧
    attempt.Saves handle snapshot ∧ .released handle ∉ later

theorem held_append_singleton {moments : List (Moment σ)} {moment : Moment σ} {handle : Handle}
    {snapshot : Snapshot} :
    Held (moments ++ [moment]) handle snapshot ↔
      (∃ attempt, moment = .attempted attempt ∧ attempt.Saves handle snapshot) ∨
        (Held moments handle snapshot ∧ moment ≠ .released handle) := by
  have hheld (moments : List (Moment σ)) : Held moments handle snapshot ↔
      ∃ earlier moment later, moments = earlier ++ moment :: later ∧
        (∃ attempt, moment = .attempted attempt ∧ attempt.Saves handle snapshot) ∧
          .released handle ∉ later := by
    constructor
    · rintro ⟨earlier, attempt, later, hsplit, hsaves, hkept⟩
      exact ⟨earlier, _, later, hsplit, ⟨attempt, rfl, hsaves⟩, hkept⟩
    · rintro ⟨earlier, _, later, hsplit, ⟨attempt, rfl, hsaves⟩, hkept⟩
      exact ⟨earlier, attempt, later, hsplit, hsaves, hkept⟩
  rw [hheld, hheld]
  exact exists_place_since_concat

/-! ## The table of saved states -/

/-- The moment found these saved states, and left those. -/
def Moment.Threads [Store σ] (states : Keeper Snapshot) (moment : Moment σ)
    (after : Keeper Snapshot) : Prop :=
  match moment with
  | .started engine _ => engine.states = states ∧ after = states
  | .attempted attempt => attempt.Threads states after
  | .released handle => after = { states with kept := states.kept.erase handle }

section

variable [Store σ]

theorem Engine.threaded_moments (engine : Engine σ) (visit : Visit) :
    Threaded Moment.Threads engine.states (engine.moments visit) (engine.visited visit).states := by
  cases visit with
  | request clock depth request =>
      refine .cons ⟨rfl, rfl⟩ ?_
      rw [visited]
      cases engine.startSession request with
      | error error => exact .nil _
      | ok session =>
          exact (threaded_traceOf depth [] request.operations session none ⟨engine, clock⟩).map id
  | releaseState handle =>
      rw [moments, visited, releaseState, Keeper.release]
      split
      · exact .cons rfl (.nil _)
      · exact .nil _
  | releasePrepared handle =>
      rw [moments, visited, releasePrepared]
      cases engine.prepared.release handle with
      | error error => exact .nil _
      | ok prepared => exact .nil _

theorem Engine.exists_threaded_history (engine : Engine σ) (visits : List Visit) :
    ∃ after, Threaded Moment.Threads engine.states (engine.history visits) after := by
  induction visits generalizing engine with
  | nil => exact ⟨_, .nil _⟩
  | cons visit rest ih =>
      obtain ⟨after, hrest⟩ := ih (engine.visited visit)
      exact ⟨after, (engine.threaded_moments visit).append hrest⟩

end

/-- The table has just the states that are held, and none under a handle that is still
to be handed out. -/
structure Tabled (moments : List (Moment σ)) (states : Keeper Snapshot) : Prop where
  bounded : ∀ handle, (states.kept.find? handle).isSome → handle ≤ states.last
  held : ∀ handle snapshot,
    states.kept.find? handle = some snapshot ↔ Held moments handle snapshot

/-- A save returns the handle that comes next. -/
theorem Attempt.Threads.saves [Store σ] {states after : Keeper Snapshot} {attempt : Attempt σ}
    {snapshot : Snapshot} (hthreads : attempt.Threads states after)
    (hsaved : attempt.saved? = some snapshot) : attempt.Saves (states.last + 1) snapshot := by
  obtain ⟨nested, deadlines, rest, hattempt⟩ := hthreads.attempted
  unfold Attempt.saved? at hsaved
  split at hsaved
  next hkind =>
    obtain ⟨record, hrecord, rfl⟩ := Option.map_eq_some_iff.mp hsaved
    refine ⟨hkind, ?_, by rw [hthreads.found], rfl⟩
    rcases attempt.run_cases hattempt with ⟨error, _, hending, _⟩ | ⟨args, _, hargs, hrun⟩
    · rw [Attempt.record?_error hending] at hrecord
      cases hrecord
    · rw [runResolved_of_saveState (hargs.trans hkind), exec_runSaveState, hthreads.found] at hrun
      exact Attempt.record?_next (Prod.mk.inj hrun).1.symm
  next => cases hsaved

theorem Attempt.Saves.saved?_eq {attempt : Attempt σ} {handle : Handle} {snapshot : Snapshot}
    (hsaves : attempt.Saves handle snapshot) : attempt.saved? = some snapshot := by
  rw [Attempt.saved?, if_pos hsaves.kind, hsaves.record, hsaves.snapshot]
  rfl

namespace Tabled

variable {moments : List (Moment σ)} {states after : Keeper Snapshot}

theorem start (what : String) : Tabled ([] : List (Moment σ)) { what } where
  bounded handle hsome := by
    rw [Map.find?_empty] at hsome
    cases hsome
  held handle snapshot := by
    rw [Map.find?_empty]
    constructor
    · rintro ⟨⟩
    · rintro ⟨earlier, attempt, later, hnil, _⟩
      simp at hnil

/-- Nothing is held under the handle that comes next. -/
theorem not_held_next (htabled : Tabled moments states) (snapshot : Snapshot) :
    ¬ Held moments (states.last + 1) snapshot := by
  intro hheld
  have hsome := Option.isSome_of_mem ((htabled.held _ snapshot).mpr hheld)
  exact Nat.not_succ_le_self _ (htabled.bounded _ hsome)

theorem passed {attempt : Attempt σ} (htabled : Tabled moments states)
    (hsaved : attempt.saved? = none) : Tabled (moments ++ [.attempted attempt]) states := by
  refine ⟨htabled.bounded, fun handle snapshot => ?_⟩
  rw [htabled.held, held_append_singleton]
  constructor
  · exact fun hheld => .inr ⟨hheld, by simp⟩
  · rintro (⟨other, heq, hsaves⟩ | ⟨hheld, _⟩)
    · cases heq
      rw [hsaves.saved?_eq] at hsaved
      cases hsaved
    · exact hheld

theorem saved {attempt : Attempt σ} {found : Snapshot} (htabled : Tabled moments states)
    (hsaves : attempt.Saves (states.last + 1) found) :
    Tabled (moments ++ [.attempted attempt]) (states.keep found).2 := by
  refine ⟨fun handle hsome => ?_, fun handle snapshot => ?_⟩
  · by_cases hnew : handle = states.last + 1
    · exact Nat.le_of_eq hnew
    · rw [Keeper.keep, Map.find?_insert_of_ne hnew] at hsome
      exact Nat.le_succ_of_le (htabled.bounded handle hsome)
  · rw [held_append_singleton, Keeper.keep]
    by_cases hnew : handle = states.last + 1
    · rw [hnew, Map.find?_insert_self, Option.some.injEq]
      constructor
      · rintro rfl
        exact .inl ⟨attempt, rfl, hsaves⟩
      · rintro (⟨other, heq, hother⟩ | ⟨hheld, _⟩)
        · cases heq
          rw [hother.snapshot, hsaves.snapshot]
        · exact absurd hheld (htabled.not_held_next snapshot)
    · rw [Map.find?_insert_of_ne hnew, htabled.held]
      constructor
      · exact fun hheld => .inr ⟨hheld, by simp⟩
      · rintro (⟨other, heq, hother⟩ | ⟨hheld, _⟩)
        · cases heq
          exact absurd (hother.handle.trans hsaves.handle.symm) hnew
        · exact hheld

variable [Store σ]

theorem attempted {attempt : Attempt σ} (htabled : Tabled moments states)
    (hthreads : attempt.Threads states after) :
    Tabled (moments ++ [.attempted attempt]) after := by
  have hleft := hthreads.left
  rw [Attempt.keeps] at hleft
  cases hsaved : attempt.saved? with
  | none =>
      rw [hsaved, Option.elim_none] at hleft
      rw [hleft]
      exact htabled.passed hsaved
  | some found =>
      rw [hsaved, Option.elim_some] at hleft
      rw [hleft]
      exact htabled.saved (hthreads.saves hsaved)

omit [Store σ] in
theorem released (htabled : Tabled moments states) (handle : Handle) :
    Tabled (moments ++ [.released handle]) { states with kept := states.kept.erase handle } := by
  refine ⟨fun other hsome => ?_, fun other snapshot => ?_⟩
  · by_cases hsame : other = handle
    · rw [hsame, Map.find?_erase_self] at hsome
      cases hsome
    · rw [Map.find?_erase_of_ne hsame] at hsome
      exact htabled.bounded other hsome
  · rw [held_append_singleton]
    by_cases hsame : other = handle
    · rw [hsame, Map.find?_erase_self]
      simp
    · rw [Map.find?_erase_of_ne hsame, htabled.held]
      simp [Ne.symm hsame]

theorem step {moment : Moment σ} (htabled : Tabled moments states)
    (hthreads : moment.Threads states after) : Tabled (moments ++ [moment]) after := by
  cases moment with
  | attempted attempt => exact htabled.attempted hthreads
  | released handle =>
      rw [show after = _ from hthreads]
      exact htabled.released handle
  | started engine request =>
      rw [hthreads.2]
      refine ⟨htabled.bounded, fun handle snapshot => ?_⟩
      rw [htabled.held, held_append_singleton]
      simp

theorem run {rest : List (Moment σ)} (htabled : Tabled moments states)
    (hthreaded : Threaded Moment.Threads states rest after) : Tabled (moments ++ rest) after := by
  induction hthreaded generalizing moments with
  | nil state => rwa [List.append_nil]
  | cons hstep hrest ih =>
      rw [List.append_cons]
      exact ih (htabled.step hstep)

end Tabled

/-! ## Restoring -/

/-- The number that names the saved state, or the template, that an operation is about. -/
def Attempt.namedId (attempt : Attempt σ) : Except Error Int64 := do
  (← attempt.operation.resolve attempt.session.results attempt.binds).integer "id"

namespace Arguments

variable {args : Arguments} {key : String} {id : Int64} {handle : Handle}

theorem handle_of_eq (hinteger : args.integer key = .ok id) (hhandle : (handle : Int) = id.toInt) :
    args.handle key = .ok handle := by
  rw [Arguments.handle, hinteger, Except.ok_bind, ← hhandle]
  exact if_pos (Int.natCast_nonneg _)

theorem handle_of_neg (hinteger : args.integer key = .ok id) (hnegative : id.toInt < 0) :
    args.handle key = .error (.state (.notHandle id.toInt)) := by
  rw [Arguments.handle, hinteger, Except.ok_bind]
  exact if_neg (Int.not_le.mpr hnegative)

end Arguments

/-- An operation that restores a state looks for it in the table that it finds. -/
theorem ending_of_restoreState [Store σ] {attempt : Attempt σ} {states after : Keeper Snapshot}
    {id : Int64} (hthreads : attempt.Threads states after)
    (hkind : attempt.operation.kind = .restoreState) (hid : attempt.namedId = .ok id) :
    ∃ args : Arguments, args.integer "id" = .ok id ∧
      attempt.ending = ((args.handle "id" >>= states.get).mapError .failed).map fun snapshot =>
        .next .ok { attempt.session with defaults := snapshot } := by
  obtain ⟨nested, deadlines, rest, hattempt⟩ := hthreads.attempted
  obtain ⟨args, hargs, hinteger⟩ := Except.bind_eq_ok_iff.mp hid
  rcases attempt.run_cases hattempt with ⟨error, herror, _⟩ | ⟨found, hfound, hargsKind, hrun⟩
  · rw [hargs] at herror
    cases herror
  · rw [hargs] at hfound
    cases hfound
    have hexec : (runRestoreState args attempt.session).exec attempt.before =
        (attempt.ending, attempt.after) := by
      rw [← hrun, runResolved, hargsKind.trans hkind]
    rw [exec_runRestoreState, Engine.namedState, hthreads.found] at hexec
    exact ⟨args, hinteger, (Prod.mk.inj hexec).1.symm⟩

section Restoring

variable [Store σ] {moments : List (Moment σ)} {states after : Keeper Snapshot}
  (htabled : Tabled moments states)
include htabled

omit [Store σ] in
theorem Tabled.get_of_held {handle : Handle} {snapshot : Snapshot}
    (hheld : Held moments handle snapshot) : states.get handle = .ok snapshot := by
  rw [Keeper.get, (htabled.held handle snapshot).mpr hheld]

omit [Store σ] in
theorem Tabled.get_of_not_held {handle : Handle}
    (hnone : ∀ snapshot, ¬ Held moments handle snapshot) :
    ∃ fault, states.get handle = .error (.state fault) := by
  rw [Keeper.get]
  cases hfound : states.kept.find? handle with
  | none => exact ⟨_, rfl⟩
  | some snapshot => exact absurd ((htabled.held handle snapshot).mp hfound) (hnone snapshot)

/-- What becomes of an operation that restores the state with this number. -/
theorem ending_of_restore {attempt : Attempt σ} {id : Int64}
    (hthreads : attempt.Threads states after) (hkind : attempt.operation.kind = .restoreState)
    (hid : attempt.namedId = .ok id) :
    (∀ (handle : Handle) snapshot, (handle : Int) = id.toInt → Held moments handle snapshot →
        attempt.ending = .ok (.next .ok { attempt.session with defaults := snapshot })) ∧
      ((∀ (handle : Handle) snapshot, (handle : Int) = id.toInt →
          ¬ Held moments handle snapshot) →
        ∃ fault, attempt.ending = .error (.failed (.state fault))) := by
  obtain ⟨args, hinteger, hending⟩ := ending_of_restoreState hthreads hkind hid
  refine ⟨fun handle snapshot hhandle hheld => ?_, fun hnone => ?_⟩
  · rw [hending, Arguments.handle_of_eq hinteger hhandle, Except.ok_bind,
      htabled.get_of_held hheld]
    rfl
  · by_cases hnegative : id.toInt < 0
    · rw [hending, Arguments.handle_of_neg hinteger hnegative]
      exact ⟨_, rfl⟩
    · have hhandle : ((id.toInt.toNat : Handle) : Int) = id.toInt :=
        Int.toNat_of_nonneg (Int.not_lt.mp hnegative)
      obtain ⟨fault, hget⟩ := htabled.get_of_not_held fun snapshot => hnone _ snapshot hhandle
      rw [hending, Arguments.handle_of_eq hinteger hhandle, Except.ok_bind, hget]
      exact ⟨fault, rfl⟩

/-- What becomes of a request that starts from the state with this handle. -/
theorem startSession_of_hint {engine : Engine σ} {request : Request} {handle : UInt64}
    (hstates : engine.states = states) (hrestore : request.restore = some handle) :
    (∀ snapshot, Held moments handle.toNat snapshot →
        engine.startSession request = .ok {
          defaults := { snapshot with
            consistency := request.consistency.getD snapshot.consistency }
          results := Results.ofLength request.operations.length }) ∧
      ((∀ snapshot, ¬ Held moments handle.toNat snapshot) →
        ∃ fault, ∀ clock depth, engine.execute clock depth request =
          some (⟨[], some ⟨0, .state fault⟩⟩, ⟨engine, clock⟩)) := by
  refine ⟨fun snapshot hheld => ?_, fun hnone => ?_⟩
  · rw [Engine.startSession, hrestore]
    dsimp only
    rw [hstates, htabled.get_of_held hheld]
    rfl
  · obtain ⟨fault, hget⟩ := htabled.get_of_not_held hnone
    have hstart : engine.startSession request = .error (.state fault) := by
      rw [Engine.startSession, hrestore]
      dsimp only
      rw [hstates, hget]
      rfl
    refine ⟨fault, fun clock depth => ?_⟩
    rw [Engine.execute, hstart]

end Restoring

namespace Engine

variable [Store σ] {engine : Engine σ} {visits : List Visit} {before after : List (Moment σ)}

/-- Every moment of a history finds the table of all that was saved and let go before
it. -/
theorem exists_tabled (hnew : engine.states = { what := "saved state" }) {moment : Moment σ}
    (hhistory : engine.history visits = before ++ moment :: after) :
    ∃ states next, Tabled before states ∧ moment.Threads states next := by
  obtain ⟨last, hthreaded⟩ := engine.exists_threaded_history visits
  rw [hhistory] at hthreaded
  obtain ⟨states, hbefore, hrest⟩ := hthreaded.exists_of_append
  rw [hnew] at hbefore
  cases hrest with
  | cons hstep _ => exact ⟨states, _, (Tabled.start _).run hbefore, hstep⟩

/-- Whatever clients did with an engine before: a save returns a handle, and where a
state is held under a handle every operation in any chain that restores it gets exactly
that state and changes nothing else of its session, and every request that starts from
it starts from that state, with the level of its own hint if it has one. Where no state
is held both fail. -/
theorem restored_of_history (hnew : engine.states = { what := "saved state" })
    {moment : Moment σ} (hhistory : engine.history visits = before ++ moment :: after) :
    (∀ attempt record, moment = .attempted attempt → attempt.operation.kind = .saveState →
      attempt.record? = some record →
      ∃ handle, attempt.Saves handle attempt.session.defaults ∧
        ∀ snapshot, ¬ Held before handle snapshot) ∧
    (∀ attempt id, moment = .attempted attempt → attempt.operation.kind = .restoreState →
      attempt.namedId = .ok id →
      (∀ (handle : Handle) snapshot, (handle : Int) = id.toInt → Held before handle snapshot →
        attempt.ending = .ok (.next .ok { attempt.session with defaults := snapshot })) ∧
      ((∀ (handle : Handle) snapshot, (handle : Int) = id.toInt → ¬ Held before handle snapshot) →
        ∃ fault, attempt.ending = .error (.failed (.state fault)))) ∧
    ∀ found request handle, moment = .started found request → request.restore = some handle →
      (∀ snapshot, Held before handle.toNat snapshot →
        found.startSession request = .ok {
          defaults := { snapshot with
            consistency := request.consistency.getD snapshot.consistency }
          results := Results.ofLength request.operations.length }) ∧
      ((∀ snapshot, ¬ Held before handle.toNat snapshot) →
        ∃ fault, ∀ clock depth, found.execute clock depth request =
          some (⟨[], some ⟨0, .state fault⟩⟩, ⟨found, clock⟩)) := by
  obtain ⟨states, next, htabled, hthreads⟩ := exists_tabled hnew hhistory
  refine ⟨?_, ?_, ?_⟩
  · rintro attempt record rfl hkind hrecord
    have hsaved : attempt.saved? = some attempt.session.defaults := by
      rw [Attempt.saved?, if_pos hkind, hrecord, Option.map_some]
    exact ⟨_, Attempt.Threads.saves hthreads hsaved, htabled.not_held_next⟩
  · rintro attempt id rfl hkind hid
    exact ending_of_restore htabled hthreads hkind hid
  · rintro found request handle rfl hrestore
    exact startSession_of_hint htabled hthreads.1 hrestore

/-- A state that one request saves is restored by the next, and is gone once a client has
let go of it. -/
theorem restored_of_history_released :
    let engine : Engine NestedStore := { store := {} }
    let clock : Clock := { readings := fun _ => 0 }
    let save : Visit := .request clock 1 { operations :=
      [Operation.literal { kind := .setKeyspace } "keyspace" (.text "ks"), { kind := .saveState }] }
    let restore : Request :=
      { operations := [Operation.literal { kind := .restoreState } "id" (.int 1)] }
    let saved := engine.visited save
    let session := Session.start .one 1
    let attempt := attemptOf (runChain 0) [] none
      (Operation.literal { kind := .restoreState } "id" (.int 1)) [] session ⟨saved, clock⟩
    let released := (saved.visited (.request clock 1 restore)).visited (.releaseState 1)
    attempt.ending = .ok (.next .ok { session with
      defaults := { keyspace := some "ks", consistency := .one } }) ∧
      ∃ fault, released.execute clock 1 { restore := some 1 } =
        some (⟨[], some ⟨0, .state fault⟩⟩, ⟨released, clock⟩) := by
  intro engine clock save restore saved session attempt released
  let first := attemptOf (runChain 0) [] none
    (Operation.literal { kind := .setKeyspace } "keyspace" (.text "ks")) [{ kind := .saveState }]
    (Session.start .one 2) ⟨engine, clock⟩
  let second := attemptOf (runChain 0) [] none { kind := .saveState } [] (first.left 0) first.after
  have hsave : ∃ started, engine.moments save = [started, .attempted first, .attempted second] :=
    ⟨_, rfl⟩
  obtain ⟨started, hsave⟩ := hsave
  refine ⟨?_, ?_⟩
  · have hheld : Held (engine.moments save ++ [.started saved restore]) 1
        { keyspace := some "ks", consistency := .one } :=
      ⟨[started, .attempted first], second, [.started saved restore], by rw [hsave]; rfl,
        ⟨rfl, rfl, rfl, rfl⟩, by simp⟩
    have hhistory : engine.history [save, .request clock 1 restore] =
        (engine.moments save ++ [.started saved restore]) ++ .attempted attempt :: [] := rfl
    obtain ⟨_, hrestore, _⟩ := restored_of_history rfl hhistory
    exact (hrestore attempt 1 rfl rfl rfl).1 1 _ rfl hheld
  · have hhistory : engine.history [save, .request clock 1 restore, .releaseState 1,
          .request clock 1 { restore := some 1 }] =
        (engine.moments save ++ [.started saved restore, .attempted attempt] ++ [.released 1]) ++
          .started released { restore := some 1 } :: [] := rfl
    obtain ⟨_, _, hhint⟩ := restored_of_history rfl hhistory
    obtain ⟨fault, hexecute⟩ := (hhint released _ 1 rfl rfl).2 fun snapshot hheld => by
      rcases held_append_singleton.mp hheld with ⟨other, heq, _⟩ | ⟨_, hkept⟩
      · cases heq
      · exact hkept rfl
    exact ⟨fault, hexecute clock 1⟩

end Engine

end OperationChain
