import OperationChain.Proofs.Engine.Attempts

/-! # Chains and their slots

A chain starts with results none of which was executed: that of a request, and every
chain that runs inside an operation. The slots of its results follow its attempts:
an executed operation has its record there, unless a later `clear` named it.
-/

namespace OperationChain

variable {σ : Type} [Store σ]

/-- A chain that is about to be run: none of its operations was executed. -/
structure Chain (σ : Type) where
  nested : Nested σ
  deadlines : Deadlines
  binds : Option Binds
  operations : List Operation
  session : Session
  world : World σ
  fresh : session.results = Results.ofLength operations.length

/-! ## Chains of requests, and chains inside operations -/

omit [Store σ] in
theorem Engine.startSession_results {engine : Engine σ} {request : Request} {session : Session}
    (hsession : engine.startSession request = .ok session) :
    session.results = Results.ofLength request.operations.length := by
  unfold Engine.startSession at hsession
  split at hsession
  · cases hsession
    rfl
  · obtain ⟨snapshot, _, rfl⟩ := Except.map_eq_ok_iff.mp hsession
    rfl

namespace Chain

/-- What the chain answers, and the world after it. -/
def run (chain : Chain σ) : Except Stop Response × World σ :=
  (runFrom chain.nested chain.deadlines chain.binds 0 chain.operations chain.session).exec
    chain.world

def attempts (chain : Chain σ) : Attempts σ :=
  attemptsFrom chain.nested chain.deadlines chain.binds 0 chain.operations chain.session chain.world

/-- The chain of a request, in which chains nest at most `depth` deep. -/
def ofRequest (engine : Engine σ) (clock : Clock) (depth : Nat) (request : Request)
    (session : Session) (hsession : engine.startSession request = .ok session) : Chain σ where
  nested := runChain depth
  deadlines := []
  binds := none
  operations := request.operations
  session := session
  world := ⟨engine, clock⟩
  fresh := Engine.startSession_results hsession

/-- Executing a request runs its chain. -/
theorem execute_eq_run {engine : Engine σ} {clock : Clock} {depth : Nat} {request : Request}
    {session : Session} (hsession : engine.startSession request = .ok session) :
    engine.execute clock (depth + 1) request =
      match (ofRequest engine clock depth request session hsession).run with
      | (.ok response, world) => some (response, world)
      | (.error _, _) => none := by
  rw [Engine.execute, hsession]
  rfl

/-- A chain inside an operation, in a session of its own. -/
def inside (depth : Nat) (deadlines : Deadlines) (operations : List Operation) (session : Session)
    (binds : Option Binds) (world : World σ) : Chain σ where
  nested := runChain depth
  deadlines := deadlines
  binds := binds
  operations := operations
  session := session.fork operations.length
  world := world
  fresh := rfl

/-! ## Attempts of a chain -/

variable {chain : Chain σ} {j : Nat} {attempt : Attempt σ}

theorem exists_attemptOf (hattempt : chain.attempts[j]? = some attempt) :
    ∃ rest, chain.operations.drop j = attempt.operation :: rest ∧
      attempt = attemptOf chain.nested chain.deadlines chain.binds attempt.operation rest
        attempt.session attempt.before := by
  obtain ⟨operation, rest, hdrop, hof⟩ := attemptOf_of_getElem? hattempt
  have hoperation : attempt.operation = operation := by rw [hof]; rfl
  rw [← hoperation] at hdrop hof
  exact ⟨rest, hdrop, hof⟩

theorem operation_of_attempt (hattempt : chain.attempts[j]? = some attempt) :
    chain.operations[j]? = some attempt.operation := by
  obtain ⟨rest, hdrop, _⟩ := exists_attemptOf hattempt
  have hhead : (chain.operations.drop j)[0]? = some attempt.operation := by rw [hdrop]; rfl
  rwa [List.getElem?_drop, Nat.add_zero] at hhead

theorem lt_length_of_attempt (hattempt : chain.attempts[j]? = some attempt) :
    j < chain.operations.length :=
  (List.getElem?_eq_some_iff.mp (operation_of_attempt hattempt)).1

theorem goesOn_of_lt (hattempt : chain.attempts[j]? = some attempt)
    (hlater : j + 1 < chain.attempts.length) : attempt.GoesOn := by
  obtain ⟨previous, hprevious, hgoes, _⟩ := attemptsFrom_succ (List.getElem?_eq_getElem hlater)
  rw [← Chain.attempts, hattempt] at hprevious
  cases hprevious
  exact hgoes

theorem length_attempts_of_not_goesOn (hattempt : chain.attempts[j]? = some attempt)
    (hstop : ¬ attempt.GoesOn) : chain.attempts.length = j + 1 :=
  length_attemptsFrom_of_not_goesOn hattempt hstop

theorem length_attempts_of_goesOn (hnext : ∀ attempt ∈ chain.attempts, attempt.GoesOn) :
    chain.attempts.length = chain.operations.length :=
  length_attemptsFrom_of_goesOn hnext

/-- The last attempt decides what the chain answers. -/
theorem run_of_last (hattempt : chain.attempts[j]? = some attempt)
    (hlength : chain.attempts.length = j + 1) : chain.run = endingAfter attempt j := by
  have hlast : chain.attempts.getLast? = some attempt := by
    rw [List.getLast?_eq_getElem?, hlength]
    exact hattempt
  rw [Chain.run, exec_runFrom, ← Chain.attempts, hlast, hlength]
  simp only [Nat.zero_add, Nat.add_sub_cancel]

theorem run_of_attempts_nil (hnone : chain.attempts = []) :
    chain.run = (.ok ⟨chain.session.results.answers, none⟩, chain.world) := by
  rw [Chain.run, exec_runFrom, ← Chain.attempts, hnone, List.getLast?_nil]

/-! ## The slots of a chain -/

/-- What the results hold when the first `count` operations were executed: their
records, but for those that were cleared since. -/
structure SlotsAfter (chain : Chain σ) (count : Nat) (results : Results) : Prop where
  length : results.slots.length = chain.operations.length
  captured : ∀ i < count, (∀ k < count, i < k → ¬ chain.attempts.Clears k i) →
    ∃ record, chain.attempts.Produced i record ∧ results.slots[i]? = some (.captured record)
  cleared : ∀ i < count, (∃ k < count, i < k ∧ chain.attempts.Clears k i) →
    results.slots[i]? = some .cleared
  pending : ∀ i, count ≤ i → i < chain.operations.length → results.slots[i]? = some .pending

theorem slotsAfter_zero : chain.SlotsAfter 0 chain.session.results where
  length := by rw [chain.fresh, Results.slots_ofLength, List.length_replicate]
  captured _ hi := absurd hi (Nat.not_lt_zero _)
  cleared _ hi := absurd hi (Nat.not_lt_zero _)
  pending i _ hi := by
    rw [chain.fresh, Results.slots_ofLength, List.getElem?_replicate_of_lt hi]

/-- The slots that an operation leaves: its own holds its record, and no other is
changed but the one that it cleared. -/
theorem slots_left {record : Record} (hattempt : chain.attempts[j]? = some attempt)
    (hrecord : attempt.record? = some record)
    (hslots : chain.SlotsAfter j attempt.session.results) :
    (attempt.left j).results.slots.length = chain.operations.length ∧
      (attempt.left j).results.slots[j]? = some (.captured record) ∧
      (∀ i, attempt.Clears i → i < j ∧ (attempt.left j).results.slots[i]? = some .cleared) ∧
      ∀ i, i ≠ j → ¬ attempt.Clears i →
        (attempt.left j).results.slots[i]? = attempt.session.results.slots[i]? := by
  have hj : j < attempt.session.results.slots.length := by
    rw [hslots.length]
    exact lt_length_of_attempt hattempt
  obtain ⟨rest, _, hof⟩ := exists_attemptOf hattempt
  rcases results_left_of_record hof hrecord with
    ⟨place, results, hplace, hclear, hleft⟩ | ⟨hnone, hleft⟩
  · obtain ⟨same, hsame, hlength, rfl⟩ := Results.clear_eq_ok hclear
    obtain rfl : place = same := by omega
    -- From the own slot on all are pending still, and a pending slot cannot be
    -- cleared.
    have hbefore : place < j := by
      refine Nat.lt_of_not_le fun hle => ?_
      rw [hslots.length] at hlength
      exact Results.clear_ne_ok_of_pending (hslots.pending place hle hlength) hclear
    have honly : ∀ i, attempt.Clears i → i = place := by
      rintro i ⟨_, _, index, hindex, hi⟩
      obtain ⟨_, _, named, hnamed, hplace⟩ := hplace
      rw [hindex] at hnamed
      cases hnamed
      omega
    rw [hleft, Results.slots_capture record (by simpa using hj)]
    refine ⟨by simp [hslots.length], by simp [hj], ?_, ?_⟩
    · intro i hi
      obtain rfl := honly i hi
      exact ⟨hbefore, by simp [hlength, Nat.ne_of_gt hbefore]⟩
    · intro i hi hother
      have hne : place ≠ i := by
        rintro rfl
        exact hother hplace
      simp [List.getElem?_set_ne (Ne.symm hi), List.getElem?_set_ne hne]
  · rw [hleft, Results.slots_capture record hj]
    refine ⟨by simp [hslots.length], by simp [hj], fun i hi => absurd hi (hnone i), ?_⟩
    intro i hi _
    rw [List.getElem?_set_ne (Ne.symm hi)]

/-- One more operation that produced a record. -/
theorem SlotsAfter.succ {record : Record} (hattempt : chain.attempts[j]? = some attempt)
    (hrecord : attempt.record? = some record)
    (hslots : chain.SlotsAfter j attempt.session.results) :
    chain.SlotsAfter (j + 1) (attempt.left j).results := by
  obtain ⟨hlength, hown, hcleared, hkept⟩ := slots_left hattempt hrecord hslots
  have hclears : ∀ i, chain.attempts.Clears j i ↔ attempt.Clears i := by
    intro i
    constructor
    · rintro ⟨same, hsame, hi⟩
      rw [hattempt] at hsame
      cases hsame
      exact hi
    · exact fun hi => ⟨attempt, hattempt, hi⟩
  refine ⟨hlength, ?_, ?_, ?_⟩
  -- The own slot is new; an earlier one keeps what it had, unless it is cleared
  -- now.
  · intro i hi hnever
    rcases Nat.eq_or_lt_of_le (Nat.le_of_lt_succ hi) with rfl | hlt
    · exact ⟨record, ⟨attempt, hattempt, hrecord⟩, hown⟩
    · obtain ⟨earlier, hearlier, hslot⟩ :=
        hslots.captured i hlt fun k hk => hnever k (Nat.lt_succ_of_lt hk)
      have hnot : ¬ attempt.Clears i :=
        fun h => hnever j (Nat.lt_succ_self j) hlt ((hclears i).mpr h)
      exact ⟨earlier, hearlier, (hkept i (Nat.ne_of_lt hlt) hnot).trans hslot⟩
  · rintro i hi ⟨k, hk, hik, hclear⟩
    by_cases hlast : attempt.Clears i
    · exact (hcleared i hlast).2
    · have hlt : k < j := by
        refine Nat.lt_of_le_of_ne (Nat.le_of_lt_succ hk) ?_
        rintro rfl
        exact hlast ((hclears i).mp hclear)
      rw [hkept i (Nat.ne_of_lt (Nat.lt_trans hik hlt)) hlast]
      exact hslots.cleared i (Nat.lt_trans hik hlt) ⟨k, hlt, hik, hclear⟩
  · intro i hi hin
    have hnot : ¬ attempt.Clears i := fun h => by
      have := (hcleared i h).1
      omega
    rw [hkept i (Nat.ne_of_gt hi) hnot]
    exact hslots.pending i (Nat.le_of_succ_le hi) hin

/-- Every operation that is reached finds the slots that the operations before it
have left. -/
theorem slotsAfter_of_attempt (hattempt : chain.attempts[j]? = some attempt) :
    chain.SlotsAfter j attempt.session.results := by
  induction j generalizing attempt with
  | zero =>
      rw [(attemptsFrom_zero hattempt).1]
      exact slotsAfter_zero
  | succ j ih =>
      obtain ⟨previous, hprevious, ⟨record, next, hending⟩, hsession, _⟩ :=
        attemptsFrom_succ hattempt
      rw [Nat.zero_add] at hsession
      rw [hsession]
      exact (ih hprevious).succ hprevious (Attempt.record?_next hending)

end Chain

end OperationChain
