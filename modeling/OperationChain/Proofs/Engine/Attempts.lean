import OperationChain.Proofs.Engine.Operation
import OperationChain.Proofs.Results

/-! # Attempts of a chain

A chain attempts its operations one after the other until one of them ends it. The
list of its attempts says which operation found which session and which world, and
how it ended. What a chain answers is read off its attempts.
-/

namespace OperationChain

variable {σ : Type}

/-- An operation that a chain attempted. -/
structure Attempt (σ : Type) where
  operation : Operation
  /-- The session that the operation found. -/
  session : Session
  /-- The values that are bound in its chain. -/
  binds : Option Binds
  /-- The world that the operation found. -/
  before : World σ
  ending : Except Stop Step
  after : World σ

namespace Attempt

/-- The record that the operation produced, if it did not fail. -/
def record? (attempt : Attempt σ) : Option Record :=
  match attempt.ending with
  | .ok (.next record _) => some record
  | .ok (.halt record) => some record
  | _ => none

/-- The error that the operation failed with, if it failed. -/
def error? (attempt : Attempt σ) : Option Error :=
  match attempt.ending with
  | .ok (.failed error _) => some error
  | .error (.failed error) => some error
  | _ => none

/-- The index that a `clear` names. -/
def clearIndex (attempt : Attempt σ) : Except Error Int64 := do
  (← attempt.operation.resolve attempt.session.results attempt.binds).integer "index"

/-- Whether the operation is a `clear` of the result at `place` that succeeded. -/
def Clears (attempt : Attempt σ) (place : Nat) : Prop :=
  attempt.operation.kind = .clear ∧ attempt.record?.isSome ∧
    ∃ index, attempt.clearIndex = .ok index ∧ index.toInt = place

/-- The session that the operation with this index leaves behind, with its record if
it produced one. -/
def left (attempt : Attempt σ) (index : Nat) : Session :=
  match attempt.ending with
  | .ok (.next record session) =>
    { session with results := session.results.capture index record }
  | .ok (.halt record) =>
    { attempt.session with results := attempt.session.results.capture index record }
  | .ok (.failed _ session) => session
  | .error _ => attempt.session

section Endings

variable {attempt : Attempt σ} {record : Record} {session : Session}

theorem record?_next (hending : attempt.ending = .ok (.next record session)) :
    attempt.record? = some record := by
  rw [record?, hending]

theorem record?_error {stop : Stop} (hending : attempt.ending = .error stop) :
    attempt.record? = none := by
  rw [record?, hending]

/-- After an operation that produced a record the chain goes on or ends well. -/
theorem ending_of_record (hrecord : attempt.record? = some record) :
    (∃ next, attempt.ending = .ok (.next record next)) ∨ attempt.ending = .ok (.halt record) := by
  unfold record? at hrecord
  split at hrecord
  next produced next hending =>
    cases hrecord
    exact .inl ⟨next, hending⟩
  next hending =>
    cases hrecord
    exact .inr hending
  next => cases hrecord

/-- An operation fails in the midst of changing the session, or before it has come
to that. -/
theorem ending_of_failed {error : Error} (hfailed : attempt.error? = some error) :
    (∃ after, attempt.ending = .ok (.failed error after)) ∨
      attempt.ending = .error (.failed error) := by
  unfold error? at hfailed
  split at hfailed
  next after hending =>
    cases hfailed
    exact .inl ⟨after, hending⟩
  next hending =>
    cases hfailed
    exact .inr hending
  next => cases hfailed

theorem record?_of_failed {error : Error} (hfailed : attempt.error? = some error) :
    attempt.record? = none := by
  rcases ending_of_failed hfailed with ⟨after, hending⟩ | hending
  · rw [record?, hending]
  · exact record?_error hending

theorem results_left_next (hending : attempt.ending = .ok (.next record session)) (index : Nat) :
    (attempt.left index).results = session.results.capture index record := by
  rw [left, hending]

theorem results_left_halt (hending : attempt.ending = .ok (.halt record)) (index : Nat) :
    (attempt.left index).results = attempt.session.results.capture index record := by
  rw [left, hending]

/-- An operation produces a record, or fails, or is stopped by what is around it. -/
theorem ending_cases (attempt : Attempt σ) :
    (∃ record, attempt.record? = some record) ∨ (∃ error, attempt.error? = some error) ∨
      ∃ stop, attempt.ending = .error stop ∧ ∀ error, stop ≠ .failed error := by
  unfold record? error?
  cases attempt.ending with
  | error stop =>
      cases stop with
      | failed error => exact .inr (.inl ⟨error, rfl⟩)
      | overdue level => exact .inr (.inr ⟨_, rfl, nofun⟩)
      | unfinished => exact .inr (.inr ⟨_, rfl, nofun⟩)
  | ok step =>
      cases step with
      | next record session => exact .inl ⟨record, rfl⟩
      | halt record => exact .inl ⟨record, rfl⟩
      | failed error session => exact .inr (.inl ⟨error, rfl⟩)

end Endings

end Attempt

/-- The attempts of a chain, in order. -/
abbrev Attempts (σ : Type) := List (Attempt σ)

namespace Attempts

/-- Operation `i` produced this record. -/
def Produced (attempts : Attempts σ) (i : Nat) (record : Record) : Prop :=
  ∃ attempt, attempts[i]? = some attempt ∧ attempt.record? = some record

/-- Operation `k` is a `clear` of the result of operation `i` that succeeded. -/
def Clears (attempts : Attempts σ) (k i : Nat) : Prop :=
  ∃ attempt, attempts[k]? = some attempt ∧ attempt.Clears i

end Attempts

variable [Store σ]

/-- The attempt of an operation. -/
def attemptOf (nested : Nested σ) (deadlines : Deadlines) (binds : Option Binds)
    (operation : Operation) (rest : List Operation) (session : Session) (world : World σ) :
    Attempt σ :=
  let run := (runOperation nested deadlines operation rest session binds).exec world
  { operation, session, binds, before := world, ending := run.1, after := run.2 }

/-- The attempts of a chain from the operation with number `index` on. -/
def attemptsFrom (nested : Nested σ) (deadlines : Deadlines) (binds : Option Binds) (index : Nat) :
    List Operation → Session → World σ → Attempts σ
  | [], _, _ => []
  | operation :: rest, session, world =>
    let attempt := attemptOf nested deadlines binds operation rest session world
    match attempt.ending with
    | .ok (.next _ _) =>
      attempt :: attemptsFrom nested deadlines binds (index + 1) rest (attempt.left index)
        attempt.after
    | _ => [attempt]

section Attempts

variable {nested : Nested σ} {deadlines : Deadlines} {binds : Option Binds}

/-! ## What a chain answers -/

/-- How a chain ends after its last attempt, which has this index. -/
def endingAfter (last : Attempt σ) (index : Nat) : Except Stop Response × World σ :=
  match last.ending with
  | .ok (.failed error session) => (.ok ⟨session.results.answers, some ⟨index, error⟩⟩, last.after)
  | .ok _ => (.ok ⟨(last.left index).results.answers, none⟩, last.after)
  | .error (.failed error) => (.ok ⟨last.session.results.answers, some ⟨index, error⟩⟩, last.after)
  | .error stop => (.error stop, last.after)

omit [Store σ] in
/-- A chain whose last operation produced a record answers the results that this one
left. -/
theorem endingAfter_of_record {last : Attempt σ} {record : Record}
    (hrecord : last.record? = some record) (index : Nat) :
    endingAfter last index = (.ok ⟨(last.left index).results.answers, none⟩, last.after) := by
  rcases Attempt.ending_of_record hrecord with ⟨next, hending⟩ | hending
  · simp only [endingAfter, Attempt.left, hending]
  · simp only [endingAfter, Attempt.left, hending]

omit [Store σ] in
/-- A chain whose last operation failed answers the results that this one left, and
its error. -/
theorem endingAfter_of_failed {last : Attempt σ} {error : Error}
    (hfailed : last.error? = some error) (index : Nat) :
    endingAfter last index =
      (.ok ⟨(last.left index).results.answers, some ⟨index, error⟩⟩, last.after) := by
  rcases Attempt.ending_of_failed hfailed with ⟨after, hending⟩ | hending
  · simp only [endingAfter, Attempt.left, hending]
  · simp only [endingAfter, Attempt.left, hending]

omit [Store σ] in
/-- The failure that a chain answers is that of its last operation. -/
theorem failed_of_endingAfter {last : Attempt σ} {index : Nat} {response : Response}
    {after : World σ} {failure : Failure}
    (hanswer : endingAfter last index = (.ok response, after))
    (hfailure : response.failure = some failure) :
    failure.index = index ∧ last.error? = some failure.error := by
  rcases last.ending_cases with ⟨record, hrecord⟩ | ⟨error, herror⟩ | ⟨stop, hending, hstop⟩
  · rw [endingAfter_of_record hrecord] at hanswer
    cases hanswer
    cases hfailure
  · rw [endingAfter_of_failed herror] at hanswer
    cases hanswer
    cases hfailure
    exact ⟨rfl, herror⟩
  · rw [endingAfter, hending] at hanswer
    cases stop with
    | failed error => exact absurd rfl (hstop error)
    | overdue => cases hanswer
    | unfinished => cases hanswer

omit [Store σ] in
/-- Where a chain answers no failure its last operation produced a record. -/
theorem record_of_endingAfter {last : Attempt σ} {index : Nat} {response : Response}
    {after : World σ} (hanswer : endingAfter last index = (.ok response, after))
    (hdone : response.failure = none) : ∃ record, last.record? = some record := by
  rcases last.ending_cases with hrecord | ⟨error, herror⟩ | ⟨stop, hending, hstop⟩
  · exact hrecord
  · rw [endingAfter_of_failed herror] at hanswer
    cases hanswer
    cases hdone
  · rw [endingAfter, hending] at hanswer
    cases stop with
    | failed error => exact absurd rfl (hstop error)
    | overdue => cases hanswer
    | unfinished => cases hanswer

theorem exec_runFrom_cons (index : Nat) (operation : Operation) (rest : List Operation)
    (session : Session) (world : World σ) :
    (runFrom nested deadlines binds index (operation :: rest) session).exec world =
      let attempt := attemptOf nested deadlines binds operation rest session world
      match attempt.ending with
      | .ok (.next _ _) =>
        (runFrom nested deadlines binds (index + 1) rest (attempt.left index)).exec attempt.after
      | _ => endingAfter attempt index := by
  rw [runFrom, Program.exec_bind_ok (Run.exec_outcome _ world)]
  unfold attemptOf endingAfter Attempt.left
  generalize (runOperation nested deadlines operation rest session binds).exec world = run
  obtain ⟨ending, after⟩ := run
  rcases ending with (error | level | _) | (⟨record, next⟩ | record | ⟨error, next⟩) <;> rfl

/-- The last attempt decides what a chain answers. -/
theorem exec_runFrom (index : Nat) (operations : List Operation) (session : Session)
    (world : World σ) :
    (runFrom nested deadlines binds index operations session).exec world =
      match (attemptsFrom nested deadlines binds index operations session world).getLast? with
      | none => (.ok ⟨session.results.answers, none⟩, world)
      | some last =>
        endingAfter last (index + (attemptsFrom nested deadlines binds index operations session
          world).length - 1) := by
  induction operations generalizing index session world with
  | nil => rfl
  | cons operation rest ih =>
      rw [exec_runFrom_cons, attemptsFrom]
      dsimp only
      split
      next record next hending =>
        rw [ih]
        generalize attemptsFrom nested deadlines binds (index + 1) rest _ _ = more
        cases more with
        -- The chain went on and found no operation, so this attempt was its last.
        | nil => simp [endingAfter, hending]
        | cons head tail =>
            rw [List.getLast?_cons_cons, List.getLast?_cons]
            simp only [List.length_cons]
            congr 1
            omega
      next hending =>
        simp

/-! ## One attempt after the other -/

section Succession

variable {index j : Nat} {operations : List Operation} {session : Session} {world : World σ}
variable {attempt : Attempt σ}

/-- Whether the chain goes on after an attempt. -/
def Attempt.GoesOn (attempt : Attempt σ) : Prop :=
  ∃ record next, attempt.ending = .ok (.next record next)

theorem attemptsFrom_cons_of_goesOn {operation : Operation} {rest : List Operation}
    (hnext : (attemptOf nested deadlines binds operation rest session world).GoesOn) :
    attemptsFrom nested deadlines binds index (operation :: rest) session world =
      attemptOf nested deadlines binds operation rest session world ::
        attemptsFrom nested deadlines binds (index + 1) rest
          ((attemptOf nested deadlines binds operation rest session world).left index)
          (attemptOf nested deadlines binds operation rest session world).after := by
  obtain ⟨record, next, hending⟩ := hnext
  simp only [attemptsFrom, hending]

theorem attemptsFrom_cons_of_not_goesOn {operation : Operation} {rest : List Operation}
    (hstop : ¬ (attemptOf nested deadlines binds operation rest session world).GoesOn) :
    attemptsFrom nested deadlines binds index (operation :: rest) session world =
      [attemptOf nested deadlines binds operation rest session world] := by
  rw [attemptsFrom]
  split
  next record next hending => exact absurd ⟨record, next, hending⟩ hstop
  next => rfl

theorem exec_runFrom_of_goesOn {operation : Operation} {rest : List Operation}
    (hnext : (attemptOf nested deadlines binds operation rest session world).GoesOn) :
    (runFrom nested deadlines binds index (operation :: rest) session).exec world =
      (runFrom nested deadlines binds (index + 1) rest
        ((attemptOf nested deadlines binds operation rest session world).left index)).exec
          (attemptOf nested deadlines binds operation rest session world).after := by
  obtain ⟨record, next, hending⟩ := hnext
  simp only [exec_runFrom_cons, hending]

theorem exec_runFrom_of_not_goesOn {operation : Operation} {rest : List Operation}
    (hstop : ¬ (attemptOf nested deadlines binds operation rest session world).GoesOn) :
    (runFrom nested deadlines binds index (operation :: rest) session).exec world =
      endingAfter (attemptOf nested deadlines binds operation rest session world) index := by
  rw [exec_runFrom_cons]
  dsimp only
  split
  next record next hending => exact absurd ⟨record, next, hending⟩ hstop
  next => rfl

/-- The attempt with number `j` is that of the operation with number `j`. -/
theorem attemptOf_of_getElem?
    (hattempt : (attemptsFrom nested deadlines binds index operations session world)[j]? =
      some attempt) :
    ∃ operation rest, operations.drop j = operation :: rest ∧
      attempt = attemptOf nested deadlines binds operation rest attempt.session attempt.before := by
  induction j generalizing index operations session world with
  | zero =>
      cases operations with
      | nil => cases hattempt
      | cons operation rest =>
          refine ⟨operation, rest, rfl, ?_⟩
          by_cases hnext : (attemptOf nested deadlines binds operation rest session world).GoesOn
          · rw [attemptsFrom_cons_of_goesOn hnext] at hattempt
            cases hattempt
            rfl
          · rw [attemptsFrom_cons_of_not_goesOn hnext] at hattempt
            cases hattempt
            rfl
  | succ j ih =>
      cases operations with
      | nil => cases hattempt
      | cons operation rest =>
          by_cases hnext : (attemptOf nested deadlines binds operation rest session world).GoesOn
          · rw [attemptsFrom_cons_of_goesOn hnext, List.getElem?_cons_succ] at hattempt
            exact ih hattempt
          · rw [attemptsFrom_cons_of_not_goesOn hnext] at hattempt
            cases hattempt

/-- The first attempt finds what the chain starts with. -/
theorem attemptsFrom_zero
    (hattempt : (attemptsFrom nested deadlines binds index operations session world)[0]? =
      some attempt) : attempt.session = session ∧ attempt.before = world := by
  cases operations with
  | nil => cases hattempt
  | cons operation rest =>
      by_cases hnext : (attemptOf nested deadlines binds operation rest session world).GoesOn
      · rw [attemptsFrom_cons_of_goesOn hnext] at hattempt
        cases hattempt
        exact ⟨rfl, rfl⟩
      · rw [attemptsFrom_cons_of_not_goesOn hnext] at hattempt
        cases hattempt
        exact ⟨rfl, rfl⟩

/-- Every other attempt finds what the attempt before it left behind. -/
theorem attemptsFrom_succ
    (hattempt : (attemptsFrom nested deadlines binds index operations session world)[j + 1]? =
      some attempt) :
    ∃ previous, (attemptsFrom nested deadlines binds index operations session world)[j]? =
        some previous ∧ previous.GoesOn ∧ attempt.session = previous.left (index + j) ∧
      attempt.before = previous.after := by
  induction j generalizing index operations session world with
  | zero =>
      cases operations with
      | nil => cases hattempt
      | cons operation rest =>
          by_cases hnext : (attemptOf nested deadlines binds operation rest session world).GoesOn
          · rw [attemptsFrom_cons_of_goesOn hnext] at hattempt ⊢
            rw [List.getElem?_cons_succ] at hattempt
            obtain ⟨hsession, hbefore⟩ := attemptsFrom_zero hattempt
            exact ⟨_, rfl, hnext, hsession, hbefore⟩
          · rw [attemptsFrom_cons_of_not_goesOn hnext] at hattempt
            cases hattempt
  | succ j ih =>
      cases operations with
      | nil => cases hattempt
      | cons operation rest =>
          by_cases hnext : (attemptOf nested deadlines binds operation rest session world).GoesOn
          · rw [attemptsFrom_cons_of_goesOn hnext] at hattempt ⊢
            rw [List.getElem?_cons_succ] at hattempt
            obtain ⟨previous, hprevious, hgoes, hsession, hbefore⟩ := ih hattempt
            rw [show index + 1 + j = index + (j + 1) by omega] at hsession
            exact ⟨previous, hprevious, hgoes, hsession, hbefore⟩
          · rw [attemptsFrom_cons_of_not_goesOn hnext] at hattempt
            cases hattempt

/-- An attempt after which the chain does not go on is the last one. -/
theorem length_attemptsFrom_of_not_goesOn
    (hattempt : (attemptsFrom nested deadlines binds index operations session world)[j]? =
      some attempt) (hstop : ¬ attempt.GoesOn) :
    (attemptsFrom nested deadlines binds index operations session world).length = j + 1 := by
  have hlength := (List.getElem?_eq_some_iff.mp hattempt).1
  refine Nat.le_antisymm (Nat.le_of_not_lt ?_) hlength
  intro hlonger
  obtain ⟨later, hlater⟩ : ∃ later, (attemptsFrom nested deadlines binds index operations session
      world)[j + 1]? = some later :=
    ⟨_, List.getElem?_eq_getElem hlonger⟩
  obtain ⟨previous, hprevious, hgoes, _⟩ := attemptsFrom_succ hlater
  rw [hattempt] at hprevious
  cases hprevious
  exact hstop hgoes

/-- A chain whose last attempt lets it go on has attempted all its operations. -/
theorem length_attemptsFrom_of_goesOn
    (hnext : ∀ attempt ∈ attemptsFrom nested deadlines binds index operations session world,
      attempt.GoesOn) :
    (attemptsFrom nested deadlines binds index operations session world).length =
      operations.length := by
  induction operations generalizing index session world with
  | nil => rfl
  | cons operation rest ih =>
      by_cases hfirst : (attemptOf nested deadlines binds operation rest session world).GoesOn
      · rw [attemptsFrom_cons_of_goesOn hfirst] at hnext ⊢
        rw [List.length_cons, List.length_cons, ih]
        exact fun attempt hattempt => hnext attempt (List.mem_cons_of_mem _ hattempt)
      · rw [attemptsFrom_cons_of_not_goesOn hfirst] at hnext
        exact absurd (hnext _ List.mem_cons_self) hfirst

end Succession

/-! ## What becomes of an operation -/

section Outcome

variable {operation : Operation} {rest : List Operation} {session : Session} {world : World σ}
variable {attempt : Attempt σ}

/-- Either a parameter had no value and nothing happened, or the operation was
dispatched. -/
theorem attempt_cases
    (hattempt : attempt = attemptOf nested deadlines binds operation rest session world) :
    (∃ error, attempt.ending = .error (.failed error) ∧ attempt.after = world) ∨
      ∃ args, operation.resolve session.results binds = .ok args ∧ args.kind = operation.kind ∧
        Dispatched nested deadlines (Context.of session operation world.engine.timeout) args rest
          session world (attempt.ending, attempt.after) := by
  have hrun : (runOperation nested deadlines operation rest session binds).exec world =
      (attempt.ending, attempt.after) := by
    rw [hattempt]
    rfl
  cases hargs : operation.resolve session.results binds with
  | error error =>
      rw [runOperation_unresolved nested deadlines rest world hargs] at hrun
      obtain ⟨hending, hafter⟩ := Prod.mk.inj hrun
      exact .inl ⟨error, hending.symm, hafter.symm⟩
  | ok args =>
      rw [runOperation_resolved nested deadlines rest world hargs] at hrun
      rw [← hrun]
      exact .inr ⟨args, rfl, Operation.resolve_kind hargs, dispatched ..⟩

/-- A chain that an operation ends without failing ends at a `prepare`. -/
theorem kind_of_ending_halt {record : Record}
    (hattempt : attempt = attemptOf nested deadlines binds operation rest session world)
    (hending : attempt.ending = .ok (.halt record)) : operation.kind = .prepare := by
  rcases attempt_cases hattempt with ⟨error, hfailed, _⟩ | ⟨args, _, hkind, hrun⟩
  · rw [hending] at hfailed
    cases hfailed
  · rw [← hkind]
    exact hrun.kind_of_halt hending

/-- An operation that failed has left the session as it was. -/
theorem left_of_failed {error : Error}
    (hattempt : attempt = attemptOf nested deadlines binds operation rest session world)
    (hfailed : attempt.error? = some error) (index : Nat) : attempt.left index = session := by
  have hsession : attempt.session = session := by rw [hattempt]; rfl
  rcases Attempt.ending_of_failed hfailed with ⟨after, hending⟩ | hending
  · rcases attempt_cases hattempt with ⟨cause, hcause, _⟩ | ⟨args, _, _, hrun⟩
    · rw [hending] at hcause
      cases hcause
    · rw [Attempt.left, hending]
      exact (hrun.unchanged_of_failed_change hending).1
  · rw [Attempt.left, hending, hsession]

/-- A chain whose next operation fails answers the results that it has, and the
error. -/
theorem exec_runFrom_of_failed {error : Error}
    (hattempt : attempt = attemptOf nested deadlines binds operation rest session world)
    (hfailed : attempt.error? = some error) (index : Nat) :
    (runFrom nested deadlines binds index (operation :: rest) session).exec world =
      (.ok ⟨session.results.answers, some ⟨index, error⟩⟩, attempt.after) := by
  rw [exec_runFrom_cons, ← hattempt]
  dsimp only
  split
  next record next hending =>
    rw [Attempt.error?, hending] at hfailed
    cases hfailed
  next => rw [endingAfter_of_failed hfailed, left_of_failed hattempt hfailed]

/-- A chain goes on behind an operation that produced a record. -/
theorem exec_runFrom_of_next {record : Record} {after : Session}
    (hattempt : attempt = attemptOf nested deadlines binds operation rest session world)
    (hending : attempt.ending = .ok (.next record after)) (index : Nat) :
    (runFrom nested deadlines binds index (operation :: rest) session).exec world =
      (runFrom nested deadlines binds (index + 1) rest
        { after with results := after.results.capture index record }).exec attempt.after := by
  rw [exec_runFrom_cons, ← hattempt]
  simp only [hending, Attempt.left]

/-- An operation that produced a record has captured it, after clearing the result
that it names if it is a `clear`. -/
theorem results_left_of_record {record : Record}
    (hattempt : attempt = attemptOf nested deadlines binds operation rest session world)
    (hrecord : attempt.record? = some record) :
    (∃ (place : Nat) (results : Results), attempt.Clears place ∧
        session.results.clear place = .ok results ∧
        ∀ j, (attempt.left j).results = results.capture j record) ∨
      ((∀ place, ¬ attempt.Clears place) ∧
        ∀ j, (attempt.left j).results = session.results.capture j record) := by
  have hoperation : attempt.operation = operation := by rw [hattempt]; rfl
  have hsession : attempt.session = session := by rw [hattempt]; rfl
  have hbinds : attempt.binds = binds := by rw [hattempt]; rfl
  rcases attempt_cases hattempt with ⟨error, hfailed, _⟩ | ⟨args, hargs, hkind, hrun⟩
  · rw [Attempt.record?_error hfailed] at hrecord
    cases hrecord
  · rcases Attempt.ending_of_record hrecord with ⟨next, hending⟩ | hending
    · have hleft := Attempt.results_left_next hending
      rcases hrun.results_of_next hending with
        ⟨hclear, index, hindex, hresults⟩ | ⟨hother, hresults⟩
      · obtain ⟨place, hplace, _⟩ := Results.clear_eq_ok hresults
        rw [hplace] at hresults
        have hnamed : attempt.clearIndex = .ok index := by
          rw [Attempt.clearIndex, hoperation, hsession, hbinds, hargs]
          exact hindex
        refine .inl ⟨place, next.results, ⟨?_, ?_, index, hnamed, hplace⟩, hresults, hleft⟩
        · rw [hoperation, ← hkind, hclear]
        · rw [hrecord]
          rfl
      · rw [← hresults]
        refine .inr ⟨?_, hleft⟩
        rintro place ⟨hclear, _⟩
        exact hother (by rw [hkind, ← hoperation, hclear])
    · rw [← hsession]
      refine .inr ⟨?_, Attempt.results_left_halt hending⟩
      rintro place ⟨hclear, _⟩
      rw [hoperation, kind_of_ending_halt hattempt hending] at hclear
      cases hclear

end Outcome

end Attempts

end OperationChain
