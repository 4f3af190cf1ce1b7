import OperationChain.Proofs.Engine.Chains

/-! # What stops a run

A run stops because it fails, because a deadline around it comes up, or because
chains nest deeper than they may. An operation answers for its own deadline and a
chain for the failures of its operations, so a request gets an answer unless its
chains nest too deep.
-/

namespace OperationChain

variable {σ α β : Type}

/-- What may stop a run that has `count` deadlines around it. -/
inductive Stop.Around (count : Nat) : Stop → Prop where
  | failed (error : Error) : Around count (.failed error)
  | overdue (level : Nat) (hpos : 0 < level) (hle : level ≤ count) : Around count (.overdue level)
  | unfinished : Around count .unfinished

namespace Run

open Program

/-- Nothing stops the run but itself and what is around it. -/
def Punctual (count : Nat) (run : Run σ α) : Prop :=
  ∀ world stop, (run.exec world).1 = .error stop → stop.Around count

namespace Punctual

variable {count : Nat}

theorem of_ok {run : Run σ α} (hok : ∀ world, ∃ a, (run.exec world).1 = .ok a) :
    Punctual count run := by
  intro world stop hstop
  obtain ⟨a, ha⟩ := hok world
  rw [ha] at hstop
  cases hstop

theorem pure (a : α) : Punctual count (Pure.pure a : Run σ α) := of_ok fun _ => ⟨_, rfl⟩

theorem engine : Punctual count (Run.engine : Run σ (Engine σ)) := of_ok fun _ => ⟨_, rfl⟩

theorem elapsed : Punctual count (Run.elapsed : Run σ Nat) := of_ok fun _ => ⟨_, rfl⟩

theorem setElapsed (elapsed : Nat) : Punctual count (Run.setElapsed elapsed : Run σ Unit) :=
  of_ok fun _ => ⟨_, rfl⟩

theorem now : Punctual count (Run.now : Run σ Timestamp) := of_ok fun _ => ⟨_, rfl⟩

theorem throw {stop : Stop} (haround : stop.Around count) :
    Punctual count (MonadExcept.throw stop : Run σ α) := by
  intro world found hfound
  cases hfound
  exact haround

theorem lift (result : Except Error α) : Punctual count (Run.lift result : Run σ α) := by
  cases result with
  | ok a => exact pure a
  | error error => exact throw (.failed error)

theorem nextPause : Punctual count (Run.nextPause : Run σ Pause) := of_ok fun _ => ⟨_, rfl⟩

theorem apply (update : Update σ α) : Punctual count (Run.apply update) := of_ok fun _ => ⟨_, rfl⟩

theorem bind {first : Run σ α} {next : α → Run σ β} (hfirst : Punctual count first)
    (hnext : ∀ a, Punctual count (next a)) : Punctual count (first >>= next) := by
  intro world stop hstop
  cases hresult : first.exec world with
  | mk result after =>
      cases result with
      | error inner =>
          rw [exec_bind_error hresult] at hstop
          cases hstop
          exact hfirst world stop (by rw [hresult])
      | ok a =>
          rw [exec_bind_ok hresult] at hstop
          exact hnext a after stop hstop

end Punctual

/-! ## Deadlines -/

theorem level_of_earliest {deadlines : Deadlines} {due level : Nat}
    (hearliest : earliest deadlines = some (due, level)) :
    0 < level ∧ level ≤ deadlines.length := by
  induction deadlines generalizing due level with
  | nil => cases hearliest
  | cons first rest ih =>
      rw [earliest] at hearliest
      cases hrest : earliest rest with
      | none =>
          rw [hrest] at hearliest
          cases hearliest
          exact ⟨Nat.succ_pos _, Nat.le_refl _⟩
      | some found =>
          obtain ⟨later, number⟩ := found
          obtain ⟨hpos, hle⟩ := ih hrest
          rw [hrest] at hearliest
          dsimp only at hearliest
          split at hearliest
          · cases hearliest
            exact ⟨hpos, Nat.le_succ_of_le hle⟩
          · cases hearliest
            exact ⟨Nat.succ_pos _, Nat.le_refl _⟩

namespace Punctual

variable {count : Nat}

theorem wait_of_le (millis : Nat) {deadlines : Deadlines} (hcount : deadlines.length ≤ count) :
    Punctual count (Run.wait millis deadlines : Run σ Unit) := by
  unfold Run.wait
  split
  · exact pure ()
  · refine elapsed.bind fun start => ?_
    split
    next due level hearliest =>
      dsimp only
      split
      · refine elapsed.bind fun _ => (setElapsed _).bind fun _ => throw ?_
        obtain ⟨hpos, hle⟩ := level_of_earliest hearliest
        exact .overdue level hpos (Nat.le_trans hle hcount)
      · exact setElapsed _
    · exact setElapsed _

/-- The deadline of an operation does not stop what is around the operation. -/
theorem within (millis : UInt64) (outer : Deadlines) {body : Deadlines → Run σ α}
    (hbody : ∀ deadlines, Punctual deadlines.length (body deadlines)) :
    Punctual outer.length (Run.within millis outer body) := by
  intro world
  rw [Run.within, exec_bind_ok (exec_elapsed world), exec_bind_ok (exec_outcome _ world)]
  have haround := hbody ((world.clock.elapsed + millis.toNat) :: outer) world
  have hlate : Stop.Around outer.length (.failed (.timeout millis)) := .failed _
  generalize (body ((world.clock.elapsed + millis.toNat) :: outer)).exec world = ending at haround
  obtain ⟨result, after⟩ := ending
  cases result with
  | ok a =>
      refine bind elapsed (fun elapsed => ?_) after
      split
      · exact throw hlate
      · exact pure a
  | error stop =>
      cases haround stop rfl with
      | failed error => exact throw (.failed error) after
      | unfinished => exact throw .unfinished after
      | overdue level hpos hle =>
          dsimp only
          split
          · exact throw hlate after
          next hother =>
            -- The level of this operation is the only one that is not around it.
            have hle : level ≤ outer.length := by
              rw [List.length_cons] at hle
              omega
            exact throw (.overdue level hpos hle) after

end Punctual

end Run

/-! ## Operations -/

namespace Run.Closed

variable {first second : Deadlines} {R : {α : Type} → Run σ α → Run σ α → Prop}
  (hclosed : Closed first second R)
include hclosed

theorem batchMutations (ctx : Context) (session : Session) (rows : List Value) :
    R (batchMutations ctx session rows) (batchMutations ctx session rows) := by
  induction rows with
  | nil => exact hclosed.pure _
  | cons row rest ih =>
      exact hclosed.bind hclosed.now fun _ => hclosed.bind (hclosed.lift _) fun _ =>
        hclosed.bind ih fun _ => hclosed.pure _

theorem runFinish (session : Session) (target : TableName) (cells : List Cell) :
    R (runFinish session first target cells) (runFinish session second target cells) :=
  hclosed.bind hclosed.engine fun _ => hclosed.bind (hclosed.wait _) fun _ => hclosed.lift _

variable [Store σ] {ctx : Context} {args : Arguments} {session : Session}

/-- The runs of operations on the store are made of steps. -/
theorem dataRun {run : Deadlines → Run σ Record} (hrun : dataRun? ctx args session = some run) :
    R (run first) (run second) := by
  have hupdate (update : Update σ Unit) :
      R (Run.update first update >>= fun _ => Pure.pure Record.ok)
        (Run.update second update >>= fun _ => Pure.pure Record.ok) :=
    hclosed.bind (hclosed.update update) fun _ => hclosed.pure _
  have hnames (question : σ → Except Error (List String)) :
      R (Run.ask first question >>= fun names => Pure.pure (Record.ofNames names))
        (Run.ask second question >>= fun names => Pure.pure (Record.ofNames names)) :=
    hclosed.bind (hclosed.ask question) fun _ => hclosed.pure _
  have hread (question : Timestamp → σ → Except Error (List Cell)) (target : TableName) :
      R (Run.now >>= fun now => Run.ask first (question now) >>=
          OperationChain.runFinish session first target)
        (Run.now >>= fun now => Run.ask second (question now) >>=
          OperationChain.runFinish session second target) :=
    hclosed.bind hclosed.now fun _ => hclosed.bind (hclosed.ask _) fun _ =>
      hclosed.runFinish session target _
  unfold dataRun? at hrun
  split at hrun <;> cases hrun
  · exact hclosed.bind hclosed.now fun _ => hclosed.bind (hclosed.lift _) fun _ => hupdate _
  · exact hclosed.bind (hclosed.lift _) fun _ => hread _ _
  · exact hclosed.bind (hclosed.lift _) fun _ => hread _ _
  · exact hclosed.bind (hclosed.lift _) fun _ => hread _ _
  · exact hclosed.bind (hclosed.lift _) fun rows =>
      hclosed.bind (hclosed.batchMutations ctx session rows) fun _ => hupdate _
  · exact hclosed.bind (hclosed.lift _) fun _ => hclosed.bind hclosed.now fun _ => hupdate _
  · exact hclosed.bind (hclosed.lift _) fun _ => hupdate _
  · exact hclosed.bind (hclosed.lift _) fun _ => hupdate _
  · exact hnames _
  · exact hclosed.bind (hclosed.lift _) fun _ => hnames _
  · exact hclosed.bind (hclosed.lift _) fun _ => hclosed.bind hclosed.now fun _ =>
      hclosed.bind (hclosed.ask _) fun _ => hclosed.pure _

/-- So are the runs of all operations under a budget, but for the chains inside them. -/
theorem timedRun {nested : Nested σ}
    (hnested : ∀ operations session binds,
      R (nested first operations session binds) (nested second operations session binds))
    {body : Deadlines → Run σ Record} (hbody : timedRun? nested ctx args session = some body) :
    R (body first) (body second) := by
  unfold timedRun? at hbody
  split at hbody
  · cases hbody
    refine hclosed.bind hclosed.engine fun _ => hclosed.bind (hclosed.lift _) fun _ =>
      hclosed.bind (hnested _ _ _) fun response => ?_
    cases response.failure with
    | some failure => exact hclosed.lift (.error _)
    | none => exact hclosed.pure _
  · cases hbody
    exact hclosed.bind hclosed.engine fun _ => hclosed.bind (hclosed.lift _) fun _ =>
      hclosed.bind (hclosed.wait _) fun _ => hclosed.bind (hclosed.lift _) fun _ => hclosed.pure _
  · cases hbody
    exact hclosed.bind hclosed.engine fun _ => hclosed.bind (hclosed.lift _) fun _ =>
      hclosed.bind (hclosed.wait _) fun _ => hclosed.bind (hclosed.lift _) fun _ => hclosed.pure _
  · cases hbody
    refine hclosed.bind hclosed.engine fun _ => hclosed.bind (hclosed.lift _) fun _ =>
      hclosed.bind (hnested _ _ _) fun response => ?_
    cases response.failure with
    | some failure => exact hclosed.lift (.error _)
    | none => exact hclosed.pure _
  · exact hclosed.dataRun hbody

end Run.Closed

section Operations

open Run

theorem closed_punctual (deadlines : Deadlines) :
    Closed deadlines deadlines fun {α : Type} (run _ : Run σ α) =>
      Punctual deadlines.length run where
  pure := Punctual.pure
  lift := Punctual.lift
  engine := Punctual.engine
  now := Punctual.now
  nextPause := Punctual.nextPause
  apply := Punctual.apply
  block millis := Punctual.wait_of_le millis (Nat.zero_le _)
  wait millis := Punctual.wait_of_le millis (Nat.le_refl _)
  bind := Punctual.bind

variable [Store σ]

/-- Chains inside operations are stopped by the deadlines around them. -/
def Nested.Punctual (nested : Nested σ) : Prop :=
  ∀ deadlines operations session binds,
    Run.Punctual deadlines.length (nested deadlines operations session binds)

variable {nested : Nested σ} (hnested : nested.Punctual)
include hnested

theorem punctual_of_timedRun {ctx : Context} {args : Arguments} {session : Session}
    {body : Deadlines → Run σ Record} (hbody : timedRun? nested ctx args session = some body)
    (deadlines : Deadlines) : Run.Punctual deadlines.length (body deadlines) :=
  (closed_punctual deadlines).timedRun (fun _ _ _ => hnested _ _ _ _) hbody

theorem Dispatched.around {deadlines : Deadlines} {ctx : Context} {args : Arguments}
    {rest : List Operation} {session : Session} {world : World σ} {stop : Stop}
    {result : Except Stop Step × World σ}
    (hdispatched : Dispatched nested deadlines ctx args rest session world result)
    (hstop : result.1 = .error stop) : stop.Around deadlines.length := by
  cases hdispatched with
  | prepared _ => cases hstop
  | saved _ => cases hstop
  | registered => cases hstop
  | administered => cases hstop
  | unknown name _ =>
      cases hstop
      exact .failed _
  | refused shape error _ _ =>
      cases hstop
      exact .failed error
  | restored _ =>
      have hnamed := Except.map_eq_error_iff.mp hstop
      cases hstate : world.engine.namedState args with
      | ok snapshot =>
          rw [hstate] at hnamed
          cases hnamed
      | error error =>
          rw [hstate] at hnamed
          cases hnamed
          exact .failed error
  | timed body hbody =>
      exact Punctual.within ctx.timeout deadlines (punctual_of_timedRun hnested hbody) world stop
        (Except.map_eq_error_iff.mp hstop)

/-- An operation is stopped by a deadline only if that deadline is around it. -/
theorem around_of_attempt {deadlines : Deadlines} {binds : Option Binds} {operation : Operation}
    {rest : List Operation} {session : Session} {world : World σ} {attempt : Attempt σ}
    {stop : Stop}
    (hattempt : attempt = attemptOf nested deadlines binds operation rest session world)
    (hstop : attempt.ending = .error stop) : stop.Around deadlines.length := by
  rcases attempt_cases hattempt with ⟨error, hfailed, _⟩ | ⟨args, _, _, hdispatched⟩
  · rw [hstop] at hfailed
    cases hfailed
    exact .failed error
  · exact hdispatched.around hnested hstop

end Operations

/-! ## Chains -/

variable [Store σ]

/-- A chain that is stopped is so by what is around it, and never by a failure. -/
theorem stopped_runFrom {nested : Nested σ} (hnested : nested.Punctual) {deadlines : Deadlines}
    {binds : Option Binds} {index : Nat} {operations : List Operation} {session : Session}
    {world : World σ} {stop : Stop}
    (hstop : ((runFrom nested deadlines binds index operations session).exec world).1 =
      .error stop) :
    stop.Around deadlines.length ∧ ∀ error, stop ≠ .failed error := by
  rw [exec_runFrom] at hstop
  cases hlast : (attemptsFrom nested deadlines binds index operations session world).getLast? with
  | none =>
      rw [hlast] at hstop
      cases hstop
  | some last =>
      rw [hlast] at hstop
      dsimp only at hstop
      rw [List.getLast?_eq_getElem?] at hlast
      obtain ⟨operation, rest, _, hattempt⟩ := attemptOf_of_getElem? hlast
      rcases last.ending_cases with ⟨record, hrecord⟩ | ⟨error, herror⟩ | ⟨inner, hending, hother⟩
      · rw [endingAfter_of_record hrecord] at hstop
        cases hstop
      · rw [endingAfter_of_failed herror] at hstop
        cases hstop
      · have hsame : stop = inner := by
          rw [endingAfter, hending] at hstop
          cases inner with
          | failed error => exact absurd rfl (hother error)
          | overdue level =>
              cases hstop
              rfl
          | unfinished =>
              cases hstop
              rfl
        rw [hsame]
        exact ⟨around_of_attempt hnested hattempt hending, hother⟩

/-- However deep chains may nest, they are stopped by the deadlines around them. -/
theorem punctual_runChain (depth : Nat) : (runChain depth : Nested σ).Punctual := by
  induction depth with
  | zero => exact fun _ _ _ _ => Run.Punctual.throw .unfinished
  | succ depth ih => exact fun _ _ _ _ _ _ hstop => (stopped_runFrom ih hstop).1

/-- A request has an answer, unless its chains nest deeper than they may. -/
theorem Engine.unfinished_of_execute_eq_none {engine : Engine σ} {clock : Clock} {depth : Nat}
    {request : Request} (hnone : engine.execute clock depth request = none) :
    ∃ session world, engine.startSession request = .ok session ∧
      (runChain depth [] request.operations session none).exec ⟨engine, clock⟩ =
        (.error .unfinished, world) := by
  unfold execute at hnone
  split at hnone
  · cases hnone
  next session hsession =>
    split at hnone
    · cases hnone
    next stop world hrun =>
      refine ⟨session, world, hsession, ?_⟩
      have hstop : ((runChain depth [] request.operations session none).exec ⟨engine, clock⟩).1 =
          .error stop := by rw [hrun]
      rw [hrun]
      cases depth with
      | zero =>
          cases hstop
          rfl
      | succ depth =>
          obtain ⟨haround, hfailed⟩ := stopped_runFrom (punctual_runChain depth) hstop
          cases haround with
          | failed error => exact absurd rfl (hfailed error)
          | overdue level hpos hle => exact absurd hpos (Nat.not_lt_of_le hle)
          | unfinished => rfl

end OperationChain
