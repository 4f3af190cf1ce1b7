import OperationChain.Proofs.Engine.Trace
import Mathlib.Logic.Relation

/-! # Requests side by side

An engine works on many requests at a time. They share what the engine keeps, and each has
the chain that it runs now and the chains that wait for it. Between two operations of a
chain anything can happen in the others, and clients can register, release and give up. To
run a request from its beginning to its end without a break is one way of going on.
-/

namespace OperationChain

open Relation (ReflTransGen)

variable {σ : Type}

/-! ## Situations -/

/-- A chain under way. -/
structure Frame where
  binds : Option Binds
  /-- The number of the operation that comes next. -/
  index : Nat
  /-- The operations that were not executed yet. -/
  rest : List Operation
  session : Session

/-- The chains of a request: the one that runs, and behind it those that wait for it. -/
abbrev Frames := List Frame

/-- An engine and the requests that it works on. -/
structure Situation (σ : Type) where
  engine : Engine σ
  requests : List Frames

namespace Frame

/-- A chain whose first operation is still to come. -/
def start (operations : List Operation) (session : Session) (binds : Option Binds) : Frame :=
  { binds, index := 0, rest := operations, session }

/-- The chain after an operation whose result is this record. -/
def resume (frame : Frame) (rest : List Operation) (record : Record) : Frame :=
  { frame with
    index := frame.index + 1
    rest
    session := { frame.session with
      results := frame.session.results.capture frame.index record } }

/-- What a chain without further operations answers. -/
def response (frame : Frame) : Response := ⟨frame.session.results.answers, none⟩

/-- What becomes of a request when the first of its chains has attempted an operation: the
chain goes on, or it is at its end, or the request has failed. -/
def advance (frame : Frame) (rest : List Operation) (waiting : Frames) (attempt : Attempt σ) :
    List Frames :=
  match attempt.ending with
  | .ok (.next _ _) =>
    [{ frame with index := frame.index + 1, rest, session := attempt.left frame.index } :: waiting]
  | .ok (.halt _) =>
    [{ frame with index := frame.index + 1, rest := [], session := attempt.left frame.index } ::
      waiting]
  | _ => []

end Frame

namespace Situation

variable [Store σ]

/-- The first chain of a request attempts its next operation. -/
structure Tries (situation : Situation σ) (earlier : List Frames) (frame : Frame)
    (waiting : Frames) (later : List Frames) (rest : List Operation) (attempt : Attempt σ) :
    Prop where
  requests : situation.requests = earlier ++ (frame :: waiting) :: later
  comes : frame.rest = attempt.operation :: rest
  engine : attempt.before.engine = situation.engine
  attempted : ∃ (nested : Nested σ) (deadlines : Deadlines), attempt =
    attemptOf nested deadlines frame.binds attempt.operation rest frame.session attempt.before

/-- What can happen next. -/
inductive Next : Situation σ → Situation σ → Prop where
  /-- A request arrives. -/
  | arrived {engine : Engine σ} {request : Request} {session : Session}
      (hsession : engine.startSession request = .ok session) (requests : List Frames) :
      Next ⟨engine, requests⟩ ⟨engine, [.start request.operations session none] :: requests⟩
  /-- A chain executes an operation that runs no chain inside itself. -/
  | executed {situation : Situation σ} {earlier later : List Frames} {frame : Frame}
      {waiting : Frames} {rest : List Operation} {attempt : Attempt σ}
      (htries : situation.Tries earlier frame waiting later rest attempt)
      (hinner : attempt.inner? = none) :
      Next situation
        ⟨attempt.after.engine, earlier ++ frame.advance rest waiting attempt ++ later⟩
  /-- A chain begins an operation that runs a chain inside itself, and waits for it. -/
  | entered {situation : Situation σ} {earlier later : List Frames} {frame : Frame}
      {waiting : Frames} {rest : List Operation} {attempt : Attempt σ}
      {inner : List Operation × Option Binds}
      (htries : situation.Tries earlier frame waiting later rest attempt)
      (hinner : attempt.inner? = some inner) :
      Next situation
        ⟨situation.engine, earlier ++
          (.start inner.1 (frame.session.fork inner.1.length) inner.2 :: frame :: waiting) :: later⟩
  /-- A chain inside an operation is at its end, and the chain of the operation goes on. -/
  | returned (engine : Engine σ) {earlier later : List Frames} {inner frame : Frame}
      {waiting : Frames} {operation : Operation} {rest : List Operation} (hdone : inner.rest = [])
      (hrest : frame.rest = operation :: rest) :
      Next ⟨engine, earlier ++ (inner :: frame :: waiting) :: later⟩
        ⟨engine, earlier ++ (frame.resume rest inner.response.lastRecord :: waiting) :: later⟩
  /-- A request is answered, or out of time, or given up. -/
  | ended (engine : Engine σ) (earlier later : List Frames) (frames : Frames) :
      Next ⟨engine, earlier ++ frames :: later⟩ ⟨engine, earlier ++ later⟩
  /-- A client registers a capability, which some loader has compiled before. -/
  | registered (engine : Engine σ) (requests : List Frames) {compiling : Registry} {shape : Shape}
      {name tag source : String} {capability : Capability}
      (hcompile : compiling.compile shape name tag source = .ok capability) :
      Next ⟨engine, requests⟩
        ⟨{ engine with registry.kept := engine.registry.kept.insert ⟨shape, name⟩ capability },
          requests⟩
  /-- A client adds a loader. -/
  | extended (engine : Engine σ) (requests : List Frames) (tag : String) (loader : Loader) :
      Next ⟨engine, requests⟩ ⟨{ engine with registry := engine.registry.addLoader tag loader },
        requests⟩
  /-- A client lets go of a saved state. -/
  | releasedState {engine after : Engine σ} (requests : List Frames) {handle : Handle}
      (hrelease : engine.releaseState handle = .ok after) :
      Next ⟨engine, requests⟩ ⟨after, requests⟩
  /-- A client lets go of a prepared statement. -/
  | releasedPrepared {engine after : Engine σ} (requests : List Frames) {handle : Handle}
      (hrelease : engine.releasePrepared handle = .ok after) :
      Next ⟨engine, requests⟩ ⟨after, requests⟩
  /-- Somebody else uses the store. -/
  | stored (engine : Engine σ) (requests : List Frames) (store : σ) :
      Next ⟨engine, requests⟩ ⟨{ engine with store }, requests⟩

/-- The second situation can come of the first. -/
abbrev Reaches : Situation σ → Situation σ → Prop := ReflTransGen Next

/-- On the way from one situation to another these operations are attempted. -/
structure Visits (situation : Situation σ) (attempts : Attempts σ) (after : Situation σ) :
    Prop where
  reaches : situation.Reaches after
  made : ∀ attempt ∈ attempts, ∃ (between : Situation σ) (earlier : List Frames) (frame : Frame)
    (waiting : Frames) (later : List Frames) (rest : List Operation), situation.Reaches between ∧
      between.Tries earlier frame waiting later rest attempt

namespace Visits

variable {situation between after : Situation σ} {attempts others : Attempts σ}

theorem trans (hvisits : situation.Visits attempts between) (hreaches : between.Reaches after) :
    situation.Visits attempts after :=
  ⟨hvisits.reaches.trans hreaches, hvisits.made⟩

theorem of_tries {earlier later : List Frames} {frame : Frame} {waiting : Frames}
    {rest : List Operation} {attempt : Attempt σ}
    (htries : situation.Tries earlier frame waiting later rest attempt)
    (hreaches : situation.Reaches after) : situation.Visits [attempt] after :=
  ⟨hreaches, List.forall_mem_singleton.mpr ⟨situation, _, _, _, _, _, .refl, htries⟩⟩

theorem append (hfirst : situation.Visits attempts between)
    (hsecond : between.Visits others after) : situation.Visits (attempts ++ others) after where
  reaches := hfirst.reaches.trans hsecond.reaches
  made attempt hmem := by
    rcases List.mem_append.mp hmem with hmem | hmem
    · exact hfirst.made attempt hmem
    · obtain ⟨found, earlier, frame, waiting, later, rest, hreaches, htries⟩ :=
        hsecond.made attempt hmem
      exact ⟨found, earlier, frame, waiting, later, rest, hfirst.reaches.trans hreaches, htries⟩

end Visits

end Situation

/-! ## Chains inside operations -/

section Inner

variable {nested : Nested σ} {deadlines : Deadlines} {args : Arguments} {session : Session}
  {world : World σ} {inner : List Operation × Option Binds}

/-- What an operation ends with that has run a chain inside itself, and reports its failure
as this error. -/
def Response.endingAs (report : Failure → Error) (response : Response) : Except Stop Record :=
  response.failure.elim (.ok response.lastRecord) fun failure => .error (.failed (report failure))

theorem result_runExecutePrepared (hinner : args.preparedChain world.engine = .ok inner) :
    ((runExecutePrepared nested deadlines args session).exec world).1 =
      ((nested deadlines inner.1 (session.fork inner.1.length) inner.2).exec world).1.bind
        (Response.endingAs Failure.error) := by
  obtain ⟨handle, hhandle, hinner⟩ := Except.bind_eq_ok_iff.mp hinner
  obtain ⟨template, htemplate, hinner⟩ := Except.bind_eq_ok_iff.mp hinner
  obtain ⟨binds, hbinds, hinner⟩ := Except.bind_eq_ok_iff.mp hinner
  cases hinner
  rw [runExecutePrepared, Program.exec_bind_ok (Run.exec_engine world)]
  dsimp only
  rw [hhandle, Except.ok_bind, htemplate, Except.ok_bind, hbinds, Except.ok_bind]
  refine (congrArg Prod.fst
    (Program.exec_bind_ok (Run.exec_lift_ok (template, binds) world))).trans ?_
  rw [Program.exec_bind]
  dsimp only
  generalize (nested deadlines template (session.fork template.length) (some binds)).exec world =
    run
  obtain ⟨stop | response, after⟩ := run
  · rfl
  · dsimp only [Except.bind, Response.endingAs]
    cases response.failure <;> rfl

theorem result_runServiceProcess (hinner : args.builtChain world.engine = .ok inner) :
    ∃ report, ((runServiceProcess nested deadlines args session).exec world).1 =
      ((nested deadlines inner.1 (session.fork inner.1.length) inner.2).exec world).1.bind
        (Response.endingAs report) := by
  obtain ⟨name, hname, hinner⟩ := Except.bind_eq_ok_iff.mp hinner
  obtain ⟨params, hparams, hinner⟩ := Except.bind_eq_ok_iff.mp hinner
  obtain ⟨process, hprocess, hinner⟩ := Except.bind_eq_ok_iff.mp hinner
  obtain ⟨operations, hoperations, hinner⟩ := Except.bind_eq_ok_iff.mp hinner
  cases hinner
  refine ⟨fun failure => .failedStep name failure.index failure.error, ?_⟩
  rw [runServiceProcess, Program.exec_bind_ok (Run.exec_engine world)]
  dsimp only
  rw [hname, Except.ok_bind, hparams, Except.ok_bind, hprocess, Except.ok_bind, hoperations,
    Except.ok_bind]
  refine (congrArg Prod.fst
    (Program.exec_bind_ok (Run.exec_lift_ok (name, operations) world))).trans ?_
  rw [Program.exec_bind]
  dsimp only
  generalize (nested deadlines operations (session.fork operations.length) none).exec world = run
  obtain ⟨stop | response, after⟩ := run
  · rfl
  · dsimp only [Except.bind, Response.endingAs]
    cases response.failure <;> rfl

variable [Store σ] {binds : Option Binds} {operation : Operation} {rest : List Operation}
  {attempt : Attempt σ}

/-- An operation ends with the last record of the chain inside it, if that chain came to its
end and in time, and fails or is stopped otherwise. -/
theorem Attempt.ending_of_inner
    (hattempt : attempt = attemptOf nested deadlines binds operation rest session world)
    (hinner : attempt.inner? = some inner) :
    let ending := (nested (attempt.due :: deadlines) inner.1
      (attempt.session.fork inner.1.length) inner.2).exec attempt.before
    (∃ response, ending.1 = .ok response ∧ response.failure = none ∧
        attempt.ending = .ok (.next response.lastRecord attempt.session)) ∨
      ∃ stop, attempt.ending = .error stop := by
  intro ending
  obtain ⟨found, hfound, hinner⟩ := Option.bind_eq_some_iff.mp hinner
  rw [Except.toOption_eq_some_iff] at hfound
  rcases attempt.run_cases hattempt with ⟨error, herror, _⟩ | ⟨args, hargs, _, hrun⟩
  · rw [hfound] at herror
    cases herror
  rw [hfound] at hargs
  cases hargs
  -- Both kinds run a chain under the deadline of the operation and report how it ended.
  have hbody : ∃ body report, timedRun? nested (Context.of attempt.session attempt.operation
        attempt.before.engine.timeout) found attempt.session = some body ∧
      ((body (attempt.due :: deadlines)).exec attempt.before).1 =
        ending.1.bind (Response.endingAs report) := by
    unfold Arguments.inner? at hinner
    split at hinner
    next hkind =>
      refine ⟨fun deadlines => runExecutePrepared nested deadlines found attempt.session,
        Failure.error, by rw [timedRun?, hkind], ?_⟩
      exact result_runExecutePrepared (Except.toOption_eq_some_iff.mp hinner)
    next hkind =>
      have hresult : ∃ report, ((runServiceProcess nested (attempt.due :: deadlines) found
            attempt.session).exec attempt.before).1 = ending.1.bind (Response.endingAs report) :=
        result_runServiceProcess (Except.toOption_eq_some_iff.mp hinner)
      obtain ⟨report, hresult⟩ := hresult
      exact ⟨fun deadlines => runServiceProcess nested deadlines found attempt.session, report,
        by rw [timedRun?, hkind], hresult⟩
    next => cases hinner
  obtain ⟨body, report, hbody, hresult⟩ := hbody
  obtain ⟨result, hwithin, hlate⟩ := Run.exec_within (Context.of attempt.session attempt.operation
    attempt.before.engine.timeout).timeout deadlines body attempt.before
  rw [runResolved_of_timedRun hbody, Program.exec_bind_ok (Run.exec_engine _),
    Program.exec_bind_pure, hwithin] at hrun
  have hending : result.map (fun record => Step.next record attempt.session) = attempt.ending :=
    congrArg Prod.fst hrun
  rcases hlate with hlate | hlate
  · rw [hlate] at hending
    exact .inr ⟨_, hending.symm⟩
  · have hreport : result = ending.1.bind (Response.endingAs report) := hlate.trans hresult
    rw [hreport] at hending
    cases hchain : ending.1 with
    | error stop =>
        rw [hchain] at hending
        exact .inr ⟨_, hending.symm⟩
    | ok response =>
        rw [hchain] at hending
        cases hfailure : response.failure with
        | some failure =>
            rw [Except.bind, Response.endingAs, hfailure] at hending
            exact .inr ⟨_, hending.symm⟩
        | none =>
            rw [Except.bind, Response.endingAs, hfailure] at hending
            exact .inl ⟨response, rfl, hfailure, hending.symm⟩

end Inner

/-! ## Requests without a break -/

/-- The chain has come to its end with this result and is first of its request, or it has
failed or was stopped and the request is gone. -/
def Landed (earlier : List Frames) (waiting : Frames) (later : List Frames)
    (result : Except Stop Response) (requests : List Frames) : Prop :=
  (∃ frame : Frame, frame.rest = [] ∧ result = .ok frame.response ∧
      requests = earlier ++ (frame :: waiting) :: later) ∨
    ((∀ response, result = .ok response → response.failure ≠ none) ∧ requests = earlier ++ later)

theorem failure_of_endingAfter {attempt : Attempt σ} (hrecord : attempt.record? = none)
    (index : Nat) {response : Response} (hresponse : (endingAfter attempt index).1 = .ok response) :
    response.failure ≠ none := by
  rcases attempt.ending_cases with ⟨record, hsome⟩ | ⟨error, herror⟩ | ⟨stop, hending, hstop⟩
  · rw [hrecord] at hsome
    cases hsome
  · rw [endingAfter_of_failed herror] at hresponse
    cases hresponse
    exact Option.some_ne_none _
  · rw [endingAfter, hending] at hresponse
    cases stop with
    | failed error => exact absurd rfl (hstop error)
    | overdue => cases hresponse
    | unfinished => cases hresponse

section Advance

variable {frame : Frame} {rest : List Operation} {waiting : Frames} {attempt : Attempt σ}

theorem Frame.advance_of_next {record : Record} {next : Session}
    (hending : attempt.ending = .ok (.next record next)) :
    frame.advance rest waiting attempt = [{ frame with
      index := frame.index + 1, rest, session := attempt.left frame.index } :: waiting] := by
  rw [advance, hending]

theorem Frame.advance_of_halt {record : Record} (hending : attempt.ending = .ok (.halt record)) :
    frame.advance rest waiting attempt = [{ frame with
      index := frame.index + 1, rest := [], session := attempt.left frame.index } :: waiting] := by
  rw [advance, hending]

theorem Frame.advance_of_error {stop : Stop} (hending : attempt.ending = .error stop) :
    frame.advance rest waiting attempt = [] := by
  rw [advance, hending]

theorem Frame.advance_of_no_record (hrecord : attempt.record? = none) :
    frame.advance rest waiting attempt = [] := by
  unfold advance
  unfold Attempt.record? at hrecord
  split
  next hending => simp [hending] at hrecord
  next hending => simp [hending] at hrecord
  next => rfl

end Advance

section Requests

variable [Store σ] {nested : Nested σ} {deadlines : Deadlines} {earlier later : List Frames}

/-- A chain that is run without a break takes the situation there. -/
def Crosses (earlier later : List Frames) (waiting : Frames) (frame : Frame) (engine : Engine σ)
    (attempts : Attempts σ) (ending : Except Stop Response × World σ) : Prop :=
  ∃ after : Situation σ,
    Situation.Visits ⟨engine, earlier ++ (frame :: waiting) :: later⟩ attempts after ∧
      after.engine = ending.2.engine ∧ Landed earlier waiting later ending.1 after.requests

/-- An operation takes the situation to what becomes of its request, if the chain inside it
is run without a break. -/
theorem visits_attempt {frame : Frame} {operation : Operation} {rest : List Operation}
    (hrest : frame.rest = operation :: rest) {world : World σ} {attempt : Attempt σ}
    (hattempt : attempt =
      attemptOf nested deadlines frame.binds operation rest frame.session world)
    {trace : List Operation × Option Binds → Attempts σ} (waiting : Frames)
    (hnested : ∀ inner : List Operation × Option Binds,
      Crosses earlier later (frame :: waiting)
        (.start inner.1 (frame.session.fork inner.1.length) inner.2) world.engine (trace inner)
        ((nested (attempt.due :: deadlines) inner.1 (frame.session.fork inner.1.length)
          inner.2).exec world)) :
    ∃ after : Situation σ,
      Situation.Visits ⟨world.engine, earlier ++ (frame :: waiting) :: later⟩
        (attempt :: attempt.inner?.elim [] trace) after ∧
      after.engine = attempt.after.engine ∧
      after.requests = earlier ++ frame.advance rest waiting attempt ++ later := by
  have htries : Situation.Tries ⟨world.engine, earlier ++ (frame :: waiting) :: later⟩ earlier frame
      waiting later rest attempt := by
    subst hattempt
    exact ⟨rfl, hrest, rfl, nested, deadlines, rfl⟩
  cases hinner : attempt.inner? with
  | none => exact ⟨_, .of_tries htries (.single (.executed htries hinner)), rfl, rfl⟩
  | some inner =>
      obtain ⟨⟨engine, requests⟩, hvisits, hengine, hlanded⟩ := hnested inner
      have hentered := Situation.Visits.of_tries htries (.single (.entered htries hinner))
      have hafter := attempt.after_of_inner hattempt hinner
      have hcrossed := hentered.append hvisits
      have hending := attempt.ending_of_inner hattempt hinner
      subst hattempt
      rw [hafter]
      rcases hlanded with ⟨last, hdone, hresult, rfl⟩ | ⟨hfailed, rfl⟩
      · rcases hending with ⟨response, hresponse, hfailure, hending⟩ | ⟨stop, hending⟩
        · cases hresult.symm.trans hresponse
          have hreturned : Situation.Reaches
              ⟨engine, earlier ++ (last :: frame :: waiting) :: later⟩ _ :=
            .single (.returned engine hdone hrest)
          refine ⟨_, hcrossed.trans hreturned, hengine, ?_⟩
          rw [Frame.advance_of_next hending, Attempt.left, hending, List.append_assoc]
          rfl
        · refine ⟨_, hcrossed.trans (.single (.ended ..)), hengine, ?_⟩
          rw [Frame.advance_of_error hending, List.append_nil]
      · refine ⟨_, hcrossed, hengine, ?_⟩
        rcases hending with ⟨response, hresponse, hfailure, _⟩ | ⟨stop, hending⟩
        · exact absurd hfailure (hfailed response hresponse)
        · rw [Frame.advance_of_error hending, List.append_nil]

/-- A chain crosses the situation operation by operation, if the chains inside it do. -/
theorem crosses_runFrom {trace : Attempt σ → List Operation × Option Binds → Attempts σ}
    {binds : Option Binds} (waiting : Frames)
    (hnested : ∀ (frame : Frame) (attempt : Attempt σ) (inner : List Operation × Option Binds),
      attempt.session = frame.session →
      Crosses earlier later (frame :: waiting)
        (.start inner.1 (frame.session.fork inner.1.length) inner.2) attempt.before.engine
        (trace attempt inner)
        ((nested (attempt.due :: deadlines) inner.1 (frame.session.fork inner.1.length)
          inner.2).exec attempt.before))
    (index : Nat) (operations : List Operation) (session : Session) (world : World σ) :
    Crosses earlier later waiting { binds, index, rest := operations, session } world.engine
      ((attemptsFrom nested deadlines binds index operations session world).flatMap
        fun attempt => attempt :: attempt.inner?.elim [] (trace attempt))
      ((runFrom nested deadlines binds index operations session).exec world) := by
  induction operations generalizing index session world with
  | nil => exact ⟨_, ⟨.refl, List.forall_mem_nil _⟩, rfl, .inl ⟨_, rfl, rfl, rfl⟩⟩
  | cons operation rest ih =>
      let attempt := attemptOf nested deadlines binds operation rest session world
      let frame : Frame := { binds, index, rest := operation :: rest, session }
      have hrest : frame.rest = operation :: rest := rfl
      obtain ⟨⟨engine, requests⟩, hvisits, rfl, rfl⟩ := visits_attempt hrest (rfl : attempt = _)
        waiting fun inner => hnested frame attempt inner rfl
      by_cases hnext : attempt.GoesOn
      · rw [attemptsFrom_cons_of_goesOn hnext, List.flatMap_cons, exec_runFrom_of_goesOn hnext]
        obtain ⟨record, next, hending⟩ := hnext
        rw [Frame.advance_of_next hending, List.append_assoc] at hvisits
        obtain ⟨after, hrest, hengine, hlanded⟩ := ih (index + 1) (attempt.left index) attempt.after
        exact ⟨after, hvisits.append hrest, hengine, hlanded⟩
      · rw [attemptsFrom_cons_of_not_goesOn hnext, List.flatMap_singleton,
          exec_runFrom_of_not_goesOn hnext]
        refine ⟨_, hvisits, (congrArg World.engine (endingAfter_after attempt index)).symm, ?_⟩
        cases hrecord : attempt.record? with
        | none =>
            rw [Frame.advance_of_no_record hrecord, List.append_nil]
            exact .inr ⟨fun _ => failure_of_endingAfter hrecord index, rfl⟩
        | some record =>
            rcases Attempt.ending_of_record hrecord with ⟨next, hending⟩ | hending
            · exact absurd ⟨record, next, hending⟩ hnext
            · rw [Frame.advance_of_halt hending, List.append_assoc]
              have hanswer := congrArg Prod.fst (endingAfter_of_record hrecord index)
              let ended : Frame :=
                { frame with index := index + 1, rest := [], session := attempt.left index }
              exact .inl ⟨ended, rfl, hanswer, rfl⟩

theorem crosses_runChain (earlier later : List Frames) (depth : Nat) (deadlines : Deadlines)
    (operations : List Operation) (session : Session) (binds : Option Binds) (world : World σ)
    (waiting : Frames) :
    Crosses earlier later waiting (.start operations session binds) world.engine
      (traceOf depth deadlines operations session binds world)
      ((runChain depth deadlines operations session binds).exec world) := by
  induction depth generalizing deadlines operations session binds world waiting with
  | zero =>
      exact ⟨_, ⟨.single (.ended ..), List.forall_mem_nil _⟩, rfl, .inr ⟨nofun, rfl⟩⟩
  | succ depth ih =>
      refine crosses_runFrom waiting (fun frame attempt inner hsession => ?_) 0 operations session
        world
      rw [← hsession]
      exact ih ..

/-- Whatever else an engine works on, it can execute a request without a break: every
attempt of its chain, and of the chains inside it, is made in some situation on the way,
and at the end the request is gone and the engine is the one that it leaves. -/
theorem Engine.visits_execute {engine : Engine σ} {clock : Clock} {depth : Nat}
    {request : Request} {session : Session} {response : Response} {world : World σ}
    (hsession : engine.startSession request = .ok session)
    (hexecute : engine.execute clock depth request = some (response, world))
    (requests : List Frames) :
    Situation.Visits ⟨engine, requests⟩
      (traceOf depth [] request.operations session none ⟨engine, clock⟩)
      ⟨world.engine, requests⟩ := by
  rw [execute, hsession] at hexecute
  dsimp only at hexecute
  have harrived : Situation.Reaches ⟨engine, requests⟩ _ := .single (.arrived hsession requests)
  obtain ⟨⟨left, others⟩, hvisits, rfl, hlanded⟩ := crosses_runChain [] requests depth []
    request.operations session none ⟨engine, clock⟩ []
  split at hexecute
  next answer after hrun =>
    cases hexecute
    rw [hrun] at hvisits hlanded
    have hgone : Situation.Reaches ⟨world.engine, others⟩ ⟨world.engine, requests⟩ := by
      rcases hlanded with ⟨frame, _, _, rfl⟩ | ⟨_, rfl⟩
      · exact .single (.ended _ [] requests _)
      · exact .refl
    exact (Situation.Visits.mk harrived (List.forall_mem_nil _)).append (hvisits.trans hgone)
  next => cases hexecute

end Requests

end OperationChain
