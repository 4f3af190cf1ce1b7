import OperationChain.Engine.Basic
import OperationChain.Proofs.Program

/-! # What runs do to a world

The equations of the steps that runs are made of, what holds of a run because it holds
of its steps, and a frame condition: a quiet run never changes the engine.
-/

namespace OperationChain.Run

open Program

variable {σ α β : Type}

/-! ## Equations -/

theorem exec_lift (result : Except Error α) (world : World σ) :
    (lift result).exec world = (result.mapError .failed, world) := by
  cases result <;> rfl

theorem lift_ok_bind (a : α) (next : α → Run σ β) : (lift (.ok a) >>= next) = next a := rfl

theorem lift_error_bind (error : Error) (next : α → Run σ β) :
    (lift (.error error) >>= next) = throw (.failed error) := rfl

@[simp] theorem exec_lift_ok (a : α) (world : World σ) :
    (lift (.ok a)).exec world = (.ok a, world) := rfl

@[simp] theorem exec_lift_error (error : Error) (world : World σ) :
    (lift (.error error) : Run σ α).exec world = (.error (.failed error), world) := rfl

@[simp] theorem exec_engine (world : World σ) : engine.exec world = (.ok world.engine, world) := rfl

@[simp] theorem exec_elapsed (world : World σ) :
    elapsed.exec world = (.ok world.clock.elapsed, world) := rfl

@[simp] theorem exec_outcome (run : Run σ α) (world : World σ) :
    (outcome run).exec world = (.ok (run.exec world).1, (run.exec world).2) := rfl

theorem exec_now (world : World σ) :
    now.exec world = (.ok (world.clock.readings world.clock.taken),
      { world with clock.taken := world.clock.taken + 1 }) := rfl

theorem exec_nextPause (world : World σ) :
    nextPause.exec world = (.ok (world.clock.pauses world.clock.paused),
      { world with clock.paused := world.clock.paused + 1 }) := rfl

theorem exec_apply (update : Update σ α) (world : World σ) :
    (apply update).exec world = (.ok (update.exec world.engine.store).1,
      { world with engine.store := (update.exec world.engine.store).2 }) := rfl

theorem exec_ask (deadlines : Deadlines) (question : σ → Except Error α) (world : World σ) :
    (ask deadlines question).exec world =
      (pause deadlines >>= fun _ => lift (question world.engine.store)).exec world :=
  exec_bind_ok (exec_engine world)

theorem exec_update (deadlines : Deadlines) (update : Update σ α) (world : World σ) :
    (Run.update deadlines update).exec world =
      (pause deadlines >>= fun _ => lift (update.exec world.engine.store).1).exec
        { world with engine.store := (update.exec world.engine.store).2 } :=
  exec_bind_ok (exec_apply update world)

/-! ## Waiting -/

section Wait

variable {millis : Nat} {deadlines : Deadlines} {world : World σ}

theorem exec_setElapsed (elapsed : Nat) (world : World σ) :
    (setElapsed elapsed).exec world = (.ok (), { world with clock.elapsed := elapsed }) := rfl

theorem exec_wait_of_le (hpos : millis ≠ 0) {found : Nat × Nat}
    (hfound : earliest deadlines = some found) (hdue : found.1 ≤ world.clock.elapsed + millis) :
    (wait millis deadlines).exec world = (.error (.overdue found.2),
      { world with clock.elapsed := max found.1 world.clock.elapsed }) := by
  rw [wait, if_neg hpos, exec_bind_ok (exec_elapsed world), hfound]
  dsimp only
  rw [if_pos hdue, exec_bind_ok (exec_elapsed world), exec_bind_ok (exec_setElapsed _ world)]
  rfl

theorem exec_wait_of_lt (hpos : millis ≠ 0)
    (hdue : ∀ found ∈ earliest deadlines, world.clock.elapsed + millis < found.1) :
    (wait millis deadlines).exec world =
      (.ok (), { world with clock.elapsed := world.clock.elapsed + millis }) := by
  rw [wait, if_neg hpos, exec_bind_ok (exec_elapsed world)]
  cases hearliest : earliest deadlines with
  | none => rfl
  | some found =>
      dsimp only
      rw [if_neg (Nat.not_le.mpr (hdue found hearliest))]
      rfl

/-- Waiting ends at a deadline or has taken its time. -/
theorem exec_wait_cases (hpos : millis ≠ 0) :
    (∃ found ∈ earliest deadlines, found.1 ≤ world.clock.elapsed + millis ∧
        (wait millis deadlines).exec world = (.error (.overdue found.2),
          { world with clock.elapsed := max found.1 world.clock.elapsed })) ∨
      (∀ found ∈ earliest deadlines, world.clock.elapsed + millis < found.1) ∧
        (wait millis deadlines).exec world =
          (.ok (), { world with clock.elapsed := world.clock.elapsed + millis }) := by
  by_cases hdue : ∃ found ∈ earliest deadlines, found.1 ≤ world.clock.elapsed + millis
  · obtain ⟨found, hfound, hdue⟩ := hdue
    exact .inl ⟨found, hfound, hdue, exec_wait_of_le hpos hfound hdue⟩
  · have hlate : ∀ found ∈ earliest deadlines, world.clock.elapsed + millis < found.1 :=
      fun found hfound => Nat.lt_of_not_le fun hle => hdue ⟨found, hfound, hle⟩
    exact .inr ⟨hlate, exec_wait_of_lt hpos hlate⟩

end Wait

/-- Nothing happens but that time passes, and only a deadline can stop that. -/
def Idle (run : Run σ Unit) : Prop :=
  ∀ world, ∃ result clock, run.exec world = (result, { world with clock }) ∧
    (result = .ok () ∨ ∃ level, result = .error (.overdue level))

theorem idle_wait (millis : Nat) (deadlines : Deadlines) :
    Idle (wait millis deadlines : Run σ Unit) := by
  intro world
  by_cases hpos : millis = 0
  · rw [wait, if_pos hpos]
    exact ⟨_, _, rfl, .inl rfl⟩
  · rcases exec_wait_cases hpos with ⟨found, _, _, hexec⟩ | ⟨_, hexec⟩
    · exact ⟨_, _, hexec, .inr ⟨_, rfl⟩⟩
    · exact ⟨_, _, hexec, .inl rfl⟩

theorem idle_pause (deadlines : Deadlines) : Idle (pause deadlines : Run σ Unit) := by
  intro world
  rw [pause, exec_bind_ok (exec_nextPause world)]
  exact idle_wait _ _ _

/-- A question that takes no time. -/
theorem exec_ask_of_none {world : World σ}
    (hnone : (world.clock.pauses world.clock.paused).millis = 0) (deadlines : Deadlines)
    (question : σ → Except Error α) :
    (ask deadlines question).exec world = ((question world.engine.store).mapError .failed,
      { world with clock.paused := world.clock.paused + 1 }) := by
  have hpause : (pause deadlines).exec world =
      (.ok (), { world with clock.paused := world.clock.paused + 1 }) := by
    rw [pause, exec_bind_ok (exec_nextPause world), hnone, wait, if_pos rfl]
    rfl
  rw [exec_ask, exec_bind_ok hpause, exec_lift]

/-! ## Budgets -/

/-- How an operation under a budget ends, when what it did has ended. -/
def settled (millis : UInt64) (due count elapsed : Nat) : Except Stop α → Except Stop α
  | .ok a => if due ≤ elapsed then .error (.failed (.timeout millis)) else .ok a
  | .error (.overdue level) =>
    if level = count + 1 then .error (.failed (.timeout millis)) else .error (.overdue level)
  | .error stop => .error stop

theorem exec_within_eq (millis : UInt64) (outer : Deadlines) (body : Deadlines → Run σ α)
    (world : World σ) :
    (within millis outer body).exec world =
      let due := world.clock.elapsed + millis.toNat
      let ending := (body (due :: outer)).exec world
      (settled millis due outer.length ending.2.clock.elapsed ending.1, ending.2) := by
  rw [within, exec_bind_ok (exec_elapsed world), exec_bind_ok (exec_outcome _ world)]
  dsimp only
  generalize (body ((world.clock.elapsed + millis.toNat) :: outer)).exec world = ending
  obtain ⟨result, after⟩ := ending
  rcases result with (error | level | _) | a
  · rfl
  · dsimp only [settled]
    split <;> rfl
  · rfl
  · dsimp only [settled]
    rw [exec_bind_ok (exec_elapsed after)]
    split <;> rfl

/-- A run that has an answer before its budget is used up. -/
theorem exec_within_of_lt {millis : UInt64} {outer : Deadlines} {body : Deadlines → Run σ α}
    {world after : World σ} {a : α}
    (hbody : (body ((world.clock.elapsed + millis.toNat) :: outer)).exec world = (.ok a, after))
    (hlt : after.clock.elapsed < world.clock.elapsed + millis.toNat) :
    (within millis outer body).exec world = (.ok a, after) := by
  rw [exec_within_eq]
  dsimp only
  rw [hbody, settled, if_neg (Nat.not_le.mpr hlt)]

/-- A budget changes nothing but how a run is reported: as late, or as it ended. -/
theorem exec_within (millis : UInt64) (outer : Deadlines) (body : Deadlines → Run σ α)
    (world : World σ) :
    ∃ result, (within millis outer body).exec world =
        (result, ((body ((world.clock.elapsed + millis.toNat) :: outer)).exec world).2) ∧
      (result = .error (.failed (.timeout millis)) ∨
        result = ((body ((world.clock.elapsed + millis.toNat) :: outer)).exec world).1) := by
  refine ⟨_, exec_within_eq millis outer body world, ?_⟩
  rcases ((body ((world.clock.elapsed + millis.toNat) :: outer)).exec world).1 with
    (error | level | _) | a
  · exact .inr rfl
  · dsimp only [settled]
    split
    · exact .inl rfl
    · exact .inr rfl
  · exact .inr rfl
  · dsimp only [settled]
    split
    · exact .inl rfl
    · exact .inr rfl

/-! ## Runs made of steps -/

/-- What holds of the steps that runs are made of, each taken under one list of deadlines
and under another, and of steps one after the other. -/
structure Closed (deadlines others : Deadlines) (R : {α : Type} → Run σ α → Run σ α → Prop) :
    Prop where
  pure : ∀ {α : Type} (a : α), R (Pure.pure a) (Pure.pure a)
  lift : ∀ {α : Type} (result : Except Error α), R (Run.lift result) (Run.lift result)
  engine : R Run.engine Run.engine
  now : R Run.now Run.now
  nextPause : R Run.nextPause Run.nextPause
  apply : ∀ {α : Type} (update : Update σ α), R (Run.apply update) (Run.apply update)
  block : ∀ millis, R (Run.wait millis []) (Run.wait millis [])
  wait : ∀ millis, R (Run.wait millis deadlines) (Run.wait millis others)
  bind : ∀ {α β : Type} {first first' : Run σ α} {next next' : α → Run σ β}, R first first' →
    (∀ a, R (next a) (next' a)) → R (first >>= next) (first' >>= next')

namespace Closed

variable {deadlines others : Deadlines} {R : {α : Type} → Run σ α → Run σ α → Prop}
  (hclosed : Closed deadlines others R)
include hclosed

theorem pause : R (Run.pause deadlines) (Run.pause others) := by
  refine hclosed.bind hclosed.nextPause fun pause => ?_
  cases pause.yields with
  | false => exact hclosed.block _
  | true => exact hclosed.wait _

theorem ask (question : σ → Except Error α) :
    R (Run.ask deadlines question) (Run.ask others question) :=
  hclosed.bind hclosed.engine fun _ => hclosed.bind hclosed.pause fun _ => hclosed.lift _

theorem update (update : Update σ α) :
    R (Run.update deadlines update) (Run.update others update) :=
  hclosed.bind (hclosed.apply update) fun _ => hclosed.bind hclosed.pause fun _ => hclosed.lift _

end Closed

/-! ## Quiet runs -/

/-- Whatever the run ends with, the engine is as it was. -/
def Quiet (run : Run σ α) : Prop := ∀ world, (run.exec world).2.engine = world.engine

namespace Quiet

theorem pure (a : α) : Quiet (Pure.pure a : Run σ α) := fun _ => rfl

theorem lift (result : Except Error α) : Quiet (Run.lift result : Run σ α) := by
  intro world
  rw [exec_lift]

theorem engine : Quiet (Run.engine : Run σ (Engine σ)) := fun _ => rfl

theorem now : Quiet (Run.now : Run σ Timestamp) := fun _ => rfl

theorem nextPause : Quiet (Run.nextPause : Run σ Pause) := fun _ => rfl

theorem bind {first : Run σ α} {next : α → Run σ β} (hfirst : Quiet first)
    (hnext : ∀ a, Quiet (next a)) : Quiet (first >>= next) := by
  intro world
  have hworld := hfirst world
  cases hresult : first.exec world with
  | mk result after =>
      rw [hresult] at hworld
      cases result with
      | error stop => rwa [exec_bind_error hresult]
      | ok a =>
          rw [exec_bind_ok hresult]
          exact (hnext a after).trans hworld

theorem of_idle {run : Run σ Unit} (hidle : Idle run) : Quiet run := by
  intro world
  obtain ⟨result, clock, hexec, _⟩ := hidle world
  rw [hexec]

theorem wait (millis : Nat) (deadlines : Deadlines) :
    Quiet (Run.wait millis deadlines : Run σ Unit) := of_idle (idle_wait millis deadlines)

theorem pause (deadlines : Deadlines) : Quiet (Run.pause deadlines : Run σ Unit) :=
  of_idle (idle_pause deadlines)

theorem ask (deadlines : Deadlines) (question : σ → Except Error α) :
    Quiet (Run.ask deadlines question) :=
  engine.bind fun _ => (pause deadlines).bind fun _ => lift _

end Quiet

end OperationChain.Run
