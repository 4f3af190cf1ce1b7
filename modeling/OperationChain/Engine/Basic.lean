import OperationChain.Extension.Registry
import OperationChain.Session
import OperationChain.Store.Basic

/-! # Engines and their runs

An engine holds a store, the registered capabilities, the saved states and the
prepared statements. A run reads a clock and changes the engine. It ends with a
result, with an error, because a budget of time is used up, or because chains nest
deeper than they were allowed to. How long the calls of the store take is not for the
run to say: the clock tells.
-/

namespace OperationChain

/-- Where a client's chains run. -/
structure Engine (σ : Type) where
  store : σ
  registry : Registry := Registry.mk ∅ ∅
  /-- Saved states by handle. -/
  states : Keeper Snapshot := { what := "saved state" }
  /-- Prepared statements by handle. -/
  prepared : Keeper (List Operation) := { what := "prepared statement" }
  /-- The budget of an operation that names none, in milliseconds. -/
  timeout : UInt64 := 10000
  /-- The consistency level of a session whose request names none. -/
  consistency : Consistency := .one

/-- What a call of a store takes. -/
structure Pause where
  millis : Nat := 0
  /-- Whether deadlines are noticed meanwhile. A call that never yields is late only
  when it has ended. -/
  yields : Bool := false

/-- A clock: the readings that are still to be taken, by number, the milliseconds
that have passed, and what the calls of the store are still to take, by number. -/
structure Clock where
  readings : Nat → Timestamp
  taken : Nat := 0
  elapsed : Nat := 0
  pauses : Nat → Pause := fun _ => {}
  paused : Nat := 0

/-- What a run changes. -/
structure World (σ : Type) where
  engine : Engine σ
  clock : Clock

/-- Why a run ends without a result. -/
inductive Stop where
  /-- An operation failed. -/
  | failed (error : Error)
  /-- The budget of an enclosing operation is used up, the outermost of which has
  number one. -/
  | overdue (level : Nat)
  /-- Chains nest deeper than the run was allowed to follow. -/
  | unfinished

/-- A computation that changes a world and may stop. -/
abbrev Run (σ : Type) := Program Stop (World σ)

/-- When the operations around a point of a run are due, innermost first, in
milliseconds of the clock. -/
abbrev Deadlines := List Nat

namespace Run

variable {σ α : Type}

/-- A result or an error that depends on nothing else. -/
def lift (result : Except Error α) : Run σ α :=
  match result with
  | .ok a => pure a
  | .error e => throw (.failed e)

/-- The engine as it is now. -/
def engine : Run σ (Engine σ) := do return (← get).engine

/-- Changes the engine. -/
def setEngine (engine : Engine σ) : Run σ Unit := modify fun world => { world with engine }

/-- The milliseconds that have passed so far. -/
def elapsed : Run σ Nat := do return (← get).clock.elapsed

def setElapsed (elapsed : Nat) : Run σ Unit :=
  modify fun world => { world with clock.elapsed := elapsed }

/-- Takes the next reading of the clock. -/
def now : Run σ Timestamp := do
  let world ← get
  set { world with clock.taken := world.clock.taken + 1 }
  return world.clock.readings world.clock.taken

/-- How a computation ends, without ending there. -/
def outcome (run : Run σ α) : Run σ (Except Stop α) :=
  ExceptT.mk do return .ok (← run.run)

/-- The deadline that comes first, and the number of its operation; of equal ones
the innermost. -/
def earliest : Deadlines → Option (Nat × Nat)
  | [] => none
  | due :: rest =>
    match earliest rest with
    | some (first, level) =>
      if first < due then some (first, level) else some (due, rest.length + 1)
    | none => some (due, rest.length + 1)

/-- Lets time pass. The first deadline that comes up meanwhile ends the run of its
operation. -/
def wait (millis : Nat) (deadlines : Deadlines) : Run σ Unit := do
  if millis = 0 then return
  let finish := (← elapsed) + millis
  match earliest deadlines with
  | some (due, level) =>
    if due ≤ finish then
      setElapsed (max due (← elapsed))
      throw (.overdue level)
    else setElapsed finish
  | none => setElapsed finish

/-- What the next call of the store takes. -/
def nextPause : Run σ Pause := do
  let world ← get
  set { world with clock.paused := world.clock.paused + 1 }
  return world.clock.pauses world.clock.paused

/-- Lets the time pass that a call of the store takes. -/
def pause (deadlines : Deadlines) : Run σ Unit := do
  let pause ← nextPause
  wait pause.millis (if pause.yields then deadlines else [])

/-- Asks the store. -/
def ask (deadlines : Deadlines) (question : σ → Except Error α) : Run σ α := do
  let result := question (← engine).store
  pause deadlines
  lift result

/-- Changes the store, and tells how the update ended. -/
def apply (update : Update σ α) : Run σ (Except Error α) := do
  let engine ← engine
  let (result, store) := update.exec engine.store
  setEngine { engine with store }
  return result

/-- Updates the store. What an update did stays done, whether it fails or is late. -/
def update (deadlines : Deadlines) (update : Update σ α) : Run σ α := do
  let result ← apply update
  pause deadlines
  lift result

/-- Runs an operation under a budget. Whatever an operation does takes a moment, so
one that ends when its budget has just passed is late; an error of its own comes
before its being late. -/
def within (millis : UInt64) (outer : Deadlines) (body : Deadlines → Run σ α) : Run σ α := do
  let due := (← elapsed) + millis.toNat
  match ← outcome (body (due :: outer)) with
  | .ok result =>
    if due ≤ (← elapsed) then throw (.failed (.timeout millis)) else return result
  | .error (.overdue level) =>
    if level = outer.length + 1 then throw (.failed (.timeout millis)) else throw (.overdue level)
  | .error stop => throw stop

end Run

end OperationChain
