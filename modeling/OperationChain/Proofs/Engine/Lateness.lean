import OperationChain.Proofs.Engine.Run
import OperationChain.Proofs.Except

/-! # Runs up to their being late

How long a run takes is up to the store and the capabilities. What is known of it is what it
ends with unless it is late, and what it leaves behind, late or not.
-/

namespace OperationChain

variable {σ α β : Type}

/-- The time is up: that of the operation itself, or of one around it. -/
inductive Stop.Late : Stop → Prop where
  | timeout (millis : UInt64) : Late (.failed (.timeout millis))
  | overdue (level : Nat) : Late (.overdue level)

/-- How a chain ends one of whose operations was late. -/
inductive LateAnswer : Except Stop Response → Prop where
  | timeout (results : List (Nat × Record)) (index : Nat) (millis : UInt64) :
      LateAnswer (.ok ⟨results, some ⟨index, .timeout millis⟩⟩)
  | overdue (level : Nat) : LateAnswer (.error (.overdue level))

/-- A chain that answers without an exception was not late. -/
theorem not_lateAnswer_of_complete {response : Response} (hcomplete : response.failure = none) :
    ¬ LateAnswer (.ok response) := by
  rintro ⟨⟩
  cases hcomplete

namespace Run

open Program

/-- The run leaves this engine, and ends with this result if it is not late. -/
structure ComesTo (run : Run σ α) (world : World σ) (result : Except Error α)
    (engine : Engine σ) : Prop where
  engine : (run.exec world).2.engine = engine
  ends : (run.exec world).1 = result.mapError .failed ∨
    ∃ stop, (run.exec world).1 = .error stop ∧ stop.Late

namespace ComesTo

variable {world after : World σ} {engine : Engine σ} {result : Except Error α}

theorem lift (result : Except Error α) (world : World σ) :
    (Run.lift result).ComesTo world result world.engine where
  engine := by rw [exec_lift]
  ends := by
    rw [exec_lift]
    exact .inl rfl

/-- A first part that is over at once. -/
theorem of_bind_ok {first : Run σ β} {next : β → Run σ α} {b : β}
    (hfirst : first.exec world = (.ok b, after)) (hnext : (next b).ComesTo after result engine) :
    (first >>= next).ComesTo world result engine where
  engine := by
    rw [exec_bind_ok hfirst]
    exact hnext.engine
  ends := by
    rw [exec_bind_ok hfirst]
    exact hnext.ends

/-- A first part that fails at once. -/
theorem of_bind_error {first : Run σ β} {next : β → Run σ α} {error : Error} {clock : Clock}
    (hfirst : first.exec world = (.error (.failed error), ⟨engine, clock⟩)) :
    (first >>= next).ComesTo world (.error error) engine where
  engine := by rw [exec_bind_error hfirst]
  ends := by
    rw [exec_bind_error hfirst]
    exact .inl rfl

/-- A first part in which only time passes. -/
theorem idle_bind {first : Run σ Unit} (hidle : Idle first) {next : Run σ α}
    (hnext : ∀ clock, next.ComesTo { world with clock } result world.engine) :
    (first >>= fun _ => next).ComesTo world result world.engine := by
  obtain ⟨ending, clock, hexec, rfl | ⟨level, rfl⟩⟩ := hidle world
  · exact of_bind_ok hexec (hnext clock)
  · have hstop : (first >>= fun _ => next).exec world =
        (.error (.overdue level), { world with clock }) := exec_bind_error hexec
    exact ⟨by rw [hstop], .inr ⟨_, by rw [hstop], .overdue level⟩⟩

theorem ask (deadlines : Deadlines) (question : σ → Except Error α) (world : World σ) :
    (Run.ask deadlines question).ComesTo world (question world.engine.store) world.engine :=
  of_bind_ok (exec_engine world) (idle_bind (idle_pause deadlines) fun _ => lift _ _)

theorem update (deadlines : Deadlines) (update : Update σ α) (world : World σ) :
    (Run.update deadlines update).ComesTo world (update.exec world.engine.store).1
      { world.engine with store := (update.exec world.engine.store).2 } :=
  of_bind_ok (exec_apply update world) (idle_bind (idle_pause deadlines) fun _ => lift _ _)

/-- What follows does not change the engine any more. -/
theorem bind {first : Run σ β} {next : β → Run σ α} {ending : Except Error β}
    {f : β → Except Error α} (hfirst : first.ComesTo world ending engine)
    (hnext : ∀ b clock, (next b).ComesTo ⟨engine, clock⟩ (f b) engine) :
    (first >>= next).ComesTo world (ending >>= f) engine := by
  obtain ⟨hengine, hends⟩ := hfirst
  cases hexec : first.exec world with
  | mk found after =>
      obtain ⟨left, clock⟩ := after
      rw [hexec] at hengine hends
      cases hengine
      rcases hends with hresult | ⟨stop, hstop, hlate⟩
      · cases ending with
        | ok b =>
            cases hresult
            exact of_bind_ok hexec (hnext b clock)
        | error error =>
            cases hresult
            exact of_bind_error hexec
      · cases hstop
        have hstop : (first >>= next).exec world = (.error stop, ⟨left, clock⟩) :=
          exec_bind_error hexec
        exact ⟨by rw [hstop], .inr ⟨stop, by rw [hstop], hlate⟩⟩

theorem bind_pure {first : Run σ β} {ending : Except Error β}
    (hfirst : first.ComesTo world ending engine) (f : β → α) :
    (first >>= fun b => Pure.pure (f b)).ComesTo world (ending.map f) engine := by
  cases ending with
  | ok b => exact hfirst.bind fun b clock => lift (.ok (f b)) ⟨engine, clock⟩
  | error error => exact hfirst.bind fun b clock => lift (.ok (f b)) ⟨engine, clock⟩

/-- A budget adds one way to be late. -/
theorem within {body : Deadlines → Run σ α}
    (hbody : ∀ deadlines, (body deadlines).ComesTo world result engine) (millis : UInt64)
    (outer : Deadlines) : (Run.within millis outer body).ComesTo world result engine := by
  obtain ⟨hengine, hends⟩ := hbody ((world.clock.elapsed + millis.toNat) :: outer)
  obtain ⟨ending, hexec, hlate | hsame⟩ := exec_within millis outer body world
  · refine ⟨by rw [hexec, hengine], .inr ⟨_, ?_, .timeout millis⟩⟩
    rw [hexec, hlate]
  · refine ⟨by rw [hexec, hengine], ?_⟩
    rw [hexec, hsame]
    exact hends

end ComesTo

/-! ## One run on two engines -/

/-- On both engines the run ends in the same way and at the same time, and changes nothing. -/
def SameOn (engine other : Engine σ) (run : Run σ α) : Prop :=
  ∀ clock, ∃ result after, run.exec ⟨engine, clock⟩ = (result, ⟨engine, after⟩) ∧
    run.exec ⟨other, clock⟩ = (result, ⟨other, after⟩)

namespace SameOn

variable {engine other : Engine σ}

theorem lift (result : Except Error α) : SameOn engine other (Run.lift result) :=
  fun clock => ⟨_, clock, exec_lift result _, exec_lift result _⟩

theorem now : SameOn engine other Run.now := fun _ => ⟨_, _, rfl, rfl⟩

theorem nextPause : SameOn engine other Run.nextPause := fun _ => ⟨_, _, rfl, rfl⟩

theorem bind {first : Run σ α} {next : α → Run σ β} (hfirst : SameOn engine other first)
    (hnext : ∀ a, SameOn engine other (next a)) : SameOn engine other (first >>= next) := by
  intro clock
  obtain ⟨result, between, hexec, hother⟩ := hfirst clock
  cases result with
  | error stop => exact ⟨_, _, exec_bind_error hexec, exec_bind_error hother⟩
  | ok a =>
      rw [exec_bind_ok hexec, exec_bind_ok hother]
      exact hnext a between

theorem engine_bind {next : Engine σ → Run σ α} (hsame : next other = next engine)
    (hnext : SameOn engine other (next engine)) : SameOn engine other (Run.engine >>= next) := by
  intro clock
  rw [exec_bind_ok (exec_engine _), exec_bind_ok (exec_engine _), hsame]
  exact hnext clock

theorem wait (millis : Nat) (deadlines : Deadlines) :
    SameOn engine other (Run.wait millis deadlines) := by
  intro clock
  by_cases hpos : millis = 0
  · rw [Run.wait, if_pos hpos]
    exact ⟨_, _, rfl, rfl⟩
  · by_cases hdue : ∃ found ∈ earliest deadlines, found.1 ≤ clock.elapsed + millis
    · obtain ⟨found, hfound, hdue⟩ := hdue
      exact ⟨_, _, exec_wait_of_le hpos hfound hdue, exec_wait_of_le hpos hfound hdue⟩
    · have hlate : ∀ found ∈ earliest deadlines, clock.elapsed + millis < found.1 :=
        fun found hfound => Nat.lt_of_not_le fun hle => hdue ⟨found, hfound, hle⟩
      exact ⟨_, _, exec_wait_of_lt hpos hlate, exec_wait_of_lt hpos hlate⟩

theorem ask (deadlines : Deadlines) {question : σ → Except Error α}
    (hsame : question other.store = question engine.store) :
    SameOn engine other (Run.ask deadlines question) := by
  refine engine_bind ?_ (bind (bind nextPause fun _ => wait _ _) fun _ => lift _)
  rw [hsame]

theorem within {body : Deadlines → Run σ α}
    (hbody : ∀ deadlines, SameOn engine other (body deadlines)) (millis : UInt64)
    (outer : Deadlines) : SameOn engine other (Run.within millis outer body) := by
  intro clock
  obtain ⟨result, after, hexec, hother⟩ := hbody ((clock.elapsed + millis.toNat) :: outer) clock
  rw [exec_within_eq, exec_within_eq]
  dsimp only
  rw [hexec, hother]
  exact ⟨_, _, rfl, rfl⟩

end SameOn

end Run

end OperationChain
