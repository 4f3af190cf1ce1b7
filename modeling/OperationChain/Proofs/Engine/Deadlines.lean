import OperationChain.Proofs.Engine.Stopping

/-! # One deadline more

A run with one more deadline around it goes as it goes without, until that deadline
comes up. Where it does, the run without it takes at least as long.
-/

namespace OperationChain

variable {σ α β : Type}

namespace Run

open Program

/-! ## Time goes on -/

/-- Whatever the run ends with, no time is taken back. -/
def Forward (run : Run σ α) : Prop :=
  ∀ world, world.clock.elapsed ≤ (run.exec world).2.clock.elapsed

namespace Forward

theorem of_elapsed_eq {run : Run σ α}
    (heq : ∀ world, (run.exec world).2.clock.elapsed = world.clock.elapsed) : Forward run :=
  fun world => Nat.le_of_eq (heq world).symm

theorem pure (a : α) : Forward (Pure.pure a : Run σ α) := of_elapsed_eq fun _ => rfl

theorem throw (stop : Stop) : Forward (MonadExcept.throw stop : Run σ α) :=
  of_elapsed_eq fun _ => rfl

theorem engine : Forward (Run.engine : Run σ (Engine σ)) := of_elapsed_eq fun _ => rfl

theorem now : Forward (Run.now : Run σ Timestamp) := of_elapsed_eq fun _ => rfl

theorem lift (result : Except Error α) : Forward (Run.lift result : Run σ α) := by
  cases result with
  | ok a => exact pure a
  | error error => exact throw _

theorem nextPause : Forward (Run.nextPause : Run σ Pause) := of_elapsed_eq fun _ => rfl

theorem apply (update : Update σ α) : Forward (Run.apply update) := of_elapsed_eq fun _ => rfl

theorem bind {first : Run σ α} {next : α → Run σ β} (hfirst : Forward first)
    (hnext : ∀ a, Forward (next a)) : Forward (first >>= next) := by
  intro world
  have hworld := hfirst world
  cases hresult : first.exec world with
  | mk result after =>
      rw [hresult] at hworld
      cases result with
      | error stop => rwa [exec_bind_error hresult]
      | ok a =>
          rw [exec_bind_ok hresult]
          exact Nat.le_trans hworld (hnext a after)

theorem wait (millis : Nat) (deadlines : Deadlines) :
    Forward (Run.wait millis deadlines : Run σ Unit) := by
  intro world
  by_cases hpos : millis = 0
  · rw [Run.wait, if_pos hpos]
    exact Nat.le_refl _
  · rcases exec_wait_cases hpos with ⟨found, _, _, hexec⟩ | ⟨_, hexec⟩
    · rw [hexec]
      exact Nat.le_max_right _ _
    · rw [hexec]
      exact Nat.le_add_right _ _

end Forward

/-! ## Which deadline comes first -/

section Earliest

variable {due : Nat} {found : Nat × Nat} {rest : Deadlines}

theorem earliest_cons_of_lt (hrest : earliest rest = some found) (hlt : found.1 < due) :
    earliest (due :: rest) = some found := by
  rw [earliest, hrest]
  exact if_pos hlt

theorem earliest_cons_of_le (hrest : ∀ found ∈ earliest rest, due ≤ found.1) :
    earliest (due :: rest) = some (due, rest.length + 1) := by
  rw [earliest]
  cases hearliest : earliest rest with
  | none => rfl
  | some found => exact if_neg (Nat.not_lt.mpr (hrest found hearliest))

theorem le_of_earliest_cons {bound : Nat} (hdue : bound ≤ due)
    (hrest : ∀ found ∈ earliest rest, bound ≤ found.1) :
    ∀ found ∈ earliest (due :: rest), bound ≤ found.1 := by
  intro found hfound
  by_cases hlt : ∃ first ∈ earliest rest, first.1 < due
  · obtain ⟨first, hfirst, hlt⟩ := hlt
    rw [earliest_cons_of_lt hfirst hlt] at hfound
    rw [← Option.some.inj hfound]
    exact hrest first hfirst
  · have hle : ∀ first ∈ earliest rest, due ≤ first.1 :=
      fun first hfirst => Nat.le_of_not_lt fun hlt' => hlt ⟨first, hfirst, hlt'⟩
    rw [earliest_cons_of_le hle] at hfound
    cases hfound
    exact hdue

end Earliest

/-- The number of a deadline once another one stands behind the outermost `count`. -/
def shifted (count level : Nat) : Nat := if level ≤ count then level else level + 1

theorem shifted_of_le {count level : Nat} (hle : level ≤ count) : shifted count level = level :=
  if_pos hle

theorem shifted_length (inner outer : Deadlines) (due : Nat) :
    shifted outer.length ((inner ++ outer).length + 1) = (inner ++ due :: outer).length + 1 := by
  rw [shifted, if_neg] <;> simp only [List.length_append, List.length_cons] <;> omega

/-- Another deadline comes first, or it changes nothing but the numbers of those
within it. -/
theorem earliest_append (inner outer : Deadlines) (due : Nat) :
    (earliest (inner ++ due :: outer) = some (due, outer.length + 1) ∧
        ∀ found ∈ earliest (inner ++ outer), due ≤ found.1) ∨
      ∃ found ∈ earliest (inner ++ outer), found.1 ≤ due ∧
        earliest (inner ++ due :: outer) = some (found.1, shifted outer.length found.2) := by
  induction inner with
  | nil =>
      by_cases hlt : ∃ found ∈ earliest outer, found.1 < due
      · obtain ⟨found, hfound, hlt⟩ := hlt
        refine .inr ⟨found, hfound, Nat.le_of_lt hlt, ?_⟩
        rw [shifted_of_le (level_of_earliest hfound).2]
        exact earliest_cons_of_lt hfound hlt
      · have hle : ∀ found ∈ earliest outer, due ≤ found.1 :=
          fun found hfound => Nat.le_of_not_lt fun hlt' => hlt ⟨found, hfound, hlt'⟩
        exact .inl ⟨earliest_cons_of_le hle, hle⟩
  | cons own inner ih =>
      -- The own deadline is within the other one, so it wins where both are equal.
      have hfirst (hle : own ≤ due) (hplain : ∀ found ∈ earliest (inner ++ outer), own ≤ found.1)
          (hextra : ∀ found ∈ earliest (inner ++ due :: outer), own ≤ found.1) :
          ∃ found ∈ earliest (own :: (inner ++ outer)), found.1 ≤ due ∧
            earliest (own :: (inner ++ due :: outer)) =
              some (found.1, shifted outer.length found.2) := by
        refine ⟨_, earliest_cons_of_le hplain, hle, ?_⟩
        rw [shifted_length inner outer due]
        exact earliest_cons_of_le hextra
      rcases ih with ⟨hextra, hplain⟩ | ⟨found, hplain, hle, hextra⟩
      · by_cases hlt : due < own
        · exact .inl ⟨earliest_cons_of_lt hextra hlt,
            le_of_earliest_cons (Nat.le_of_lt hlt) hplain⟩
        · have hle := Nat.le_of_not_lt hlt
          exact .inr (hfirst hle (fun found hfound => Nat.le_trans hle (hplain found hfound))
            (by simpa [hextra] using hle))
      · by_cases hlt : found.1 < own
        · exact .inr ⟨found, earliest_cons_of_lt hplain hlt, hle, earliest_cons_of_lt hextra hlt⟩
        · have hown := Nat.le_of_not_lt hlt
          have hplain' : earliest (inner ++ outer) = some found := hplain
          exact .inr (hfirst (Nat.le_trans hown hle) (by simpa [hplain'] using hown)
            (by simpa [hextra] using hown))

/-! ## Budgets -/

/-- What other deadlines stop is late at most. -/
theorem settled_of_around {millis : UInt64} {due count elapsed : Nat} {result : Except Stop α}
    (haround : ∀ stop, result = .error stop → stop.Around count) :
    settled millis due count elapsed result = result ∨
      settled millis due count elapsed result = .error (.failed (.timeout millis)) ∧
        due ≤ elapsed := by
  cases result with
  | ok a =>
      by_cases hlate : due ≤ elapsed
      · exact .inr ⟨if_pos hlate, hlate⟩
      · exact .inl (if_neg hlate)
  | error stop =>
      cases haround stop rfl with
      | failed error => exact .inl rfl
      | unfinished => exact .inl rfl
      | overdue level hpos hle => exact .inl (if_neg (by omega))

end Run

namespace Stop

/-- The stop of a run once another deadline stands behind the outermost `count`. -/
def shifted (count : Nat) : Stop → Stop
  | .overdue level => .overdue (Run.shifted count level)
  | stop => stop

theorem mapError_shifted {count : Nat} {result : Except Stop α}
    (haround : ∀ stop, result = .error stop → stop.Around count) :
    result.mapError (shifted count) = result := by
  cases result with
  | ok a => rfl
  | error stop =>
      cases haround stop rfl with
      | failed error => rfl
      | unfinished => rfl
      | overdue level hpos hle =>
          rw [Except.mapError_error, shifted, Run.shifted_of_le hle]

end Stop

namespace Run

open Program

/-- The second run is the first with one more deadline, at `due`, behind the outermost
`count`. It ends as the first does, or by that deadline, and then the first takes as
long at least. -/
structure Spares (count due : Nat) (run extra : Run σ α) : Prop where
  forward : Forward run
  ends : ∀ world, extra.exec world =
        ((run.exec world).1.mapError (Stop.shifted count), (run.exec world).2) ∨
      (extra.exec world).1 = .error (.overdue (count + 1)) ∧
        due ≤ (run.exec world).2.clock.elapsed

namespace Spares

variable {count due : Nat}

/-- A run that only the outermost deadlines stop does not notice one more. -/
theorem of_punctual {run : Run σ α} (hforward : Forward run) (hpunctual : Punctual count run) :
    Spares count due run run :=
  ⟨hforward, fun world =>
    .inl (Prod.ext (Stop.mapError_shifted fun _ hstop => hpunctual world _ hstop).symm rfl)⟩

theorem pure (a : α) : Spares count due (Pure.pure a : Run σ α) (Pure.pure a) :=
  of_punctual (.pure a) (.pure a)

theorem lift (result : Except Error α) :
    Spares count due (Run.lift result : Run σ α) (Run.lift result) :=
  of_punctual (.lift result) (.lift result)

theorem engine : Spares count due (Run.engine : Run σ (Engine σ)) Run.engine :=
  of_punctual .engine .engine

theorem bind {first first' : Run σ α} {next next' : α → Run σ β}
    (hfirst : Spares count due first first')
    (hnext : ∀ a, Spares count due (next a) (next' a)) :
    Spares count due (first >>= next) (first' >>= next') := by
  refine ⟨hfirst.forward.bind fun a => (hnext a).forward, fun world => ?_⟩
  cases hresult : first.exec world with
  | mk result after =>
      rcases hfirst.ends world with hsame | ⟨hover, hdue⟩
      · rw [hresult] at hsame
        cases result with
        | error stop =>
            rw [exec_bind_error hresult, exec_bind_error hsame]
            exact .inl rfl
        | ok a =>
            rw [exec_bind_ok hresult, exec_bind_ok hsame]
            exact (hnext a).ends after
      · rw [hresult] at hdue
        have hstop : (first' >>= next').exec world =
            (.error (.overdue (count + 1)), (first'.exec world).2) :=
          exec_bind_error (Prod.ext hover rfl)
        rw [hstop]
        refine .inr ⟨rfl, ?_⟩
        cases result with
        | error stop => rwa [exec_bind_error hresult]
        | ok a =>
            rw [exec_bind_ok hresult]
            exact Nat.le_trans hdue ((hnext a).forward after)

/-- Runs that look at how others end, and pass on that a deadline has come up. -/
theorem outcome_bind {first first' : Run σ α} {next next' : Except Stop α → Run σ β}
    (hfirst : Spares count due first first')
    (hnext : ∀ result, (∀ level, result ≠ .error (.overdue level)) →
      Spares count due (next result) (next' result))
    (hover : ∀ level, next (.error (.overdue level)) = MonadExcept.throw (.overdue level))
    (hover' : ∀ level, next' (.error (.overdue level)) = MonadExcept.throw (.overdue level)) :
    Spares count due (outcome first >>= next) (outcome first' >>= next') := by
  have hforward (result : Except Stop α) : Forward (next result) := by
    rcases result with (error | level | _) | a
    · exact (hnext _ (by simp)).forward
    · rw [hover]
      exact .throw _
    · exact (hnext _ (by simp)).forward
    · exact (hnext _ (by simp)).forward
  refine ⟨fun world => ?_, fun world => ?_⟩
  · rw [exec_bind_ok (exec_outcome first world)]
    exact Nat.le_trans (hfirst.forward world) (hforward _ _)
  · rw [exec_bind_ok (exec_outcome first world), exec_bind_ok (exec_outcome first' world)]
    rcases hfirst.ends world with hsame | ⟨hstop, hdue⟩
    · rw [hsame]
      generalize first.exec world = ending
      obtain ⟨(error | level | _) | a, after⟩ := ending
      · exact (hnext (.error (.failed error)) (by simp)).ends after
      · rw [Except.mapError_error, Stop.shifted, hover, hover']
        exact .inl rfl
      · exact (hnext (.error .unfinished) (by simp)).ends after
      · exact (hnext (.ok a) (by simp)).ends after
    · rw [hstop, hover']
      exact .inr ⟨rfl, Nat.le_trans hdue (hforward _ _)⟩

theorem wait (millis due : Nat) (inner outer : Deadlines) :
    Spares outer.length due (Run.wait millis (inner ++ outer) : Run σ Unit)
      (Run.wait millis (inner ++ due :: outer)) := by
  by_cases hpos : millis = 0
  · rw [Run.wait, Run.wait, if_pos hpos, if_pos hpos]
    exact pure ()
  · refine ⟨.wait millis _, fun world => ?_⟩
    rcases earliest_append inner outer due with ⟨hextra, hplain⟩ | ⟨found, hplain, _, hextra⟩
    · by_cases hdue : due ≤ world.clock.elapsed + millis
      · rw [exec_wait_of_le hpos hextra hdue]
        refine .inr ⟨rfl, ?_⟩
        rcases exec_wait_cases hpos with ⟨found, hfound, _, hexec⟩ | ⟨_, hexec⟩
        · rw [hexec]
          exact Nat.le_trans (hplain found hfound) (Nat.le_max_left _ _)
        · rw [hexec]
          exact hdue
      · have hlate := Nat.lt_of_not_le hdue
        rw [exec_wait_of_lt hpos (by simpa [hextra] using hlate),
          exec_wait_of_lt hpos fun found hfound => Nat.lt_of_lt_of_le hlate (hplain found hfound)]
        exact .inl rfl
    · have hplain : earliest (inner ++ outer) = some found := hplain
      by_cases hdue : found.1 ≤ world.clock.elapsed + millis
      · rw [exec_wait_of_le hpos hextra hdue, exec_wait_of_le hpos hplain hdue]
        exact .inl rfl
      · have hlate := Nat.lt_of_not_le hdue
        rw [exec_wait_of_lt hpos (by simpa [hextra] using hlate),
          exec_wait_of_lt hpos (by simpa [hplain] using hlate)]
        exact .inl rfl

/-- An operation under a budget of its own does not take another deadline for it. -/
theorem settled_shifted (millis : UInt64) (own due elapsed : Nat) (inner outer : Deadlines)
    (result : Except Stop α) :
    settled millis own (inner ++ due :: outer).length elapsed
        (result.mapError (Stop.shifted outer.length)) =
      (settled millis own (inner ++ outer).length elapsed result).mapError
        (Stop.shifted outer.length) := by
  rcases result with (error | level | _) | a
  · rfl
  · have hown : shifted outer.length level = (inner ++ due :: outer).length + 1 ↔
        level = (inner ++ outer).length + 1 := by
      rw [← shifted_length inner outer due]
      unfold shifted
      split <;> split <;> simp only [List.length_append] at * <;> omega
    change (if shifted outer.length level = (inner ++ due :: outer).length + 1 then _ else _) =
      Except.mapError _ (if level = (inner ++ outer).length + 1 then _ else _)
    simp only [hown]
    split <;> rfl
  · rfl
  · change (if own ≤ elapsed then _ else _) = Except.mapError _ (if own ≤ elapsed then _ else _)
    split <;> rfl

theorem within (millis : UInt64) {due : Nat} {outer : Deadlines} {body : Deadlines → Run σ α}
    (hbody : ∀ inner,
      Spares outer.length due (body (inner ++ outer)) (body (inner ++ due :: outer)))
    (inner : Deadlines) :
    Spares outer.length due (Run.within millis (inner ++ outer) body)
      (Run.within millis (inner ++ due :: outer) body) := by
  refine ⟨fun world => ?_, fun world => ?_⟩
  · rw [exec_within_eq]
    exact (hbody ((world.clock.elapsed + millis.toNat) :: inner)).forward world
  · have hends := (hbody ((world.clock.elapsed + millis.toNat) :: inner)).ends world
    simp only [List.cons_append] at hends
    rw [exec_within_eq, exec_within_eq]
    dsimp only
    rcases hends with hsame | ⟨hover, hdue⟩
    · rw [hsame]
      exact .inl (Prod.ext (settled_shifted ..) rfl)
    · rw [hover]
      refine .inr ⟨if_neg ?_, hdue⟩
      simp only [List.length_append, List.length_cons]
      omega

end Spares

end Run

/-! ## Operations -/

section Operations

open Run

variable [Store σ] {nested : Nested σ} {ctx : Context} {args : Arguments} {session : Session}

omit [Store σ] in
theorem closed_spares (due : Nat) (inner outer : Deadlines) :
    Closed (inner ++ outer) (inner ++ due :: outer) fun {α : Type} (run extra : Run σ α) =>
      Spares outer.length due run extra where
  pure := Spares.pure
  lift := Spares.lift
  engine := Spares.engine
  now := .of_punctual .now .now
  nextPause := .of_punctual .nextPause .nextPause
  apply update := .of_punctual (.apply update) (.apply update)
  block millis := .of_punctual (.wait millis []) (.wait_of_le millis (Nat.zero_le _))
  wait millis := Spares.wait millis due inner outer
  bind := Spares.bind

/-- Chains inside operations notice another deadline only when it comes up. -/
def Nested.Spared (nested : Nested σ) : Prop :=
  ∀ (due : Nat) (inner outer : Deadlines) operations session binds,
    Spares outer.length due (nested (inner ++ outer) operations session binds)
      (nested (inner ++ due :: outer) operations session binds)

theorem spares_of_timedRun (hspared : nested.Spared) {body : Deadlines → Run σ Record}
    (hbody : timedRun? nested ctx args session = some body) (due : Nat) (inner outer : Deadlines) :
    Spares outer.length due (body (inner ++ outer)) (body (inner ++ due :: outer)) :=
  (closed_spares due inner outer).timedRun (hspared due inner outer) hbody

theorem runResolved_of_timedRun {body : Deadlines → Run σ Record}
    (hbody : timedRun? nested ctx args session = some body) (deadlines : Deadlines)
    (rest : List Operation) :
    runResolved nested deadlines ctx args rest session = (do
      let _ ← Run.engine
      return .next (← Run.within ctx.timeout deadlines body) session) := by
  have hsession (registry : Registry) : administer? registry ctx args = none := by
    cases hkind : args.kind <;> simp_all [timedRun?, dataRun?, administer?]
  unfold runResolved
  simp only [hbody, hsession]
  cases hkind : args.kind <;> first | rfl | simp [timedRun?, dataRun?, hkind] at hbody

theorem runResolved_of_untimed (hbody : timedRun? nested ctx args session = none)
    (deadlines others : Deadlines) (rest : List Operation) :
    runResolved nested deadlines ctx args rest session =
      runResolved nested others ctx args rest session := by
  unfold runResolved
  rw [hbody]

theorem forward_of_untimed (hbody : timedRun? nested ctx args session = none)
    (deadlines : Deadlines) (rest : List Operation) :
    Forward (runResolved nested deadlines ctx args rest session) := by
  intro world
  have hdispatched := dispatched nested deadlines ctx args rest session world
  generalize (runResolved nested deadlines ctx args rest session).exec world = run at hdispatched
  cases hdispatched with
  | timed body hsome =>
      rw [hbody] at hsome
      cases hsome
  | _ => exact Nat.le_refl _

variable (hspared : nested.Spared) (hpunctual : nested.Punctual)
include hspared hpunctual

theorem spares_runResolved (ctx : Context) (args : Arguments) (rest : List Operation)
    (session : Session) (due : Nat) (inner outer : Deadlines) :
    Spares outer.length due (runResolved nested (inner ++ outer) ctx args rest session)
      (runResolved nested (inner ++ due :: outer) ctx args rest session) := by
  cases hbody : timedRun? nested ctx args session with
  | some body =>
      rw [runResolved_of_timedRun hbody, runResolved_of_timedRun hbody]
      exact Spares.engine.bind fun _ =>
        (Spares.within ctx.timeout (fun own => spares_of_timedRun hspared hbody due own outer)
          inner).bind fun _ => Spares.pure _
  | none =>
      rw [runResolved_of_untimed hbody (inner ++ outer) outer,
        runResolved_of_untimed hbody (inner ++ due :: outer) outer]
      exact Spares.of_punctual (forward_of_untimed hbody outer rest) fun world stop =>
        (dispatched nested outer ctx args rest session world).around hpunctual

theorem spares_runOperation (operation : Operation) (rest : List Operation) (session : Session)
    (binds : Option Binds) (due : Nat) (inner outer : Deadlines) :
    Spares outer.length due
      (runOperation nested (inner ++ outer) operation rest session binds)
      (runOperation nested (inner ++ due :: outer) operation rest session binds) :=
  Spares.engine.bind fun _ => (Spares.lift _).bind fun _ =>
    spares_runResolved hspared hpunctual _ _ rest session due inner outer

/-- A chain with one more deadline around it. -/
theorem spares_runFrom (binds : Option Binds) (due : Nat) (inner outer : Deadlines) (index : Nat)
    (operations : List Operation) (session : Session) :
    Spares outer.length due (runFrom nested (inner ++ outer) binds index operations session)
      (runFrom nested (inner ++ due :: outer) binds index operations session) := by
  induction operations generalizing index session with
  | nil => exact Spares.pure _
  | cons operation rest ih =>
      rw [runFrom, runFrom]
      refine Spares.outcome_bind
        (spares_runOperation hspared hpunctual operation rest session binds due inner outer)
        (fun result hother => ?_) (fun _ => rfl) (fun _ => rfl)
      rcases result with (error | level | _) | (⟨record, next⟩ | record | ⟨error, next⟩)
      · exact Spares.pure _
      · exact absurd rfl (hother level)
      · exact Spares.of_punctual (.throw _) (.throw .unfinished)
      · exact ih (index + 1) _
      · exact Spares.pure _
      · exact Spares.pure _

end Operations

theorem spared_runChain [Store σ] (depth : Nat) : (runChain depth : Nested σ).Spared := by
  induction depth with
  | zero =>
      intro due inner outer operations session binds
      exact .of_punctual (.throw _) (.throw .unfinished)
  | succ depth ih =>
      intro due inner outer operations session binds
      exact spares_runFrom ih (punctual_runChain depth) binds due inner outer 0 operations session

end OperationChain
