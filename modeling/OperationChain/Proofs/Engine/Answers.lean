import OperationChain.Proofs.Engine.Stopping
import OperationChain.Store.Nested

/-! # The shape of an answer

The results of a chain are listed under consecutive indices from zero on. A failure
has the next index; a chain without one has executed all its operations, or was
ended by a `prepare`. Each listed result is the record that its operation produced,
or an empty list of rows where a later `clear` named it. Only where chains nest too
deep does a request have no answer.
-/

namespace OperationChain

variable {σ : Type} [Store σ]

namespace Chain

variable {chain : Chain σ} {j : Nat} {attempt : Attempt σ}

/-- How far a chain has come when it answers: `count` operations have succeeded, and
what the answer lists is what they left. -/
structure Answered (chain : Chain σ) (count : Nat) (response : Response) : Prop where
  results : ∃ results, chain.SlotsAfter count results ∧ response.results = results.answers
  succeeded : ∀ k i, chain.attempts.Clears k i → k < count
  failed : ∀ failure, response.failure = some failure → failure.index = count
  finished : response.failure = none → count = chain.operations.length ∨
    0 < count ∧ ∃ last, chain.operations[count - 1]? = some last ∧ last.kind = .prepare

theorem clears_lt_length {k i : Nat} (hclears : chain.attempts.Clears k i) :
    k < chain.attempts.length := by
  obtain ⟨attempt, hattempt, _⟩ := hclears
  exact (List.getElem?_eq_some_iff.mp hattempt).1

/-- An operation that produced no record has cleared nothing. -/
theorem not_clears_of_record?_none {i : Nat} (hattempt : chain.attempts[j]? = some attempt)
    (hnone : attempt.record? = none) : ¬ chain.attempts.Clears j i := by
  rintro ⟨same, hsame, _, hrecord, _⟩
  rw [hattempt] at hsame
  cases hsame
  rw [hnone] at hrecord
  cases hrecord

/-- A chain whose last operation failed answers what the operations before it left. -/
theorem answered_of_failed {error : Error} (hlast : chain.attempts[j]? = some attempt)
    (hlength : chain.attempts.length = j + 1) (hfailed : attempt.error? = some error) :
    chain.run = (.ok ⟨attempt.session.results.answers, some ⟨j, error⟩⟩, attempt.after) ∧
      chain.Answered j ⟨attempt.session.results.answers, some ⟨j, error⟩⟩ := by
  have hnone := Attempt.record?_of_failed hfailed
  obtain ⟨rest, _, hof⟩ := exists_attemptOf hlast
  refine ⟨?_, ⟨_, slotsAfter_of_attempt hlast, rfl⟩, fun k i hclears => ?_,
    fun failure heq => ?_, nofun⟩
  · rw [run_of_last hlast hlength, endingAfter_of_failed hfailed, left_of_failed hof hfailed]
  · have hk := clears_lt_length hclears
    refine Nat.lt_of_le_of_ne (by omega) ?_
    rintro rfl
    exact not_clears_of_record?_none hlast hnone hclears
  · cases heq
    rfl

/-- A chain whose last operation produced a record has executed all its operations,
or was ended by this one, a `prepare`. -/
theorem finished_of_record {record : Record} (hlast : chain.attempts[j]? = some attempt)
    (hlength : chain.attempts.length = j + 1) (hrecord : attempt.record? = some record) :
    j + 1 = chain.operations.length ∨ attempt.operation.kind = .prepare := by
  rcases Attempt.ending_of_record hrecord with ⟨next, hending⟩ | hending
  · refine .inl (hlength.symm.trans (length_attempts_of_goesOn fun found hfound => ?_))
    obtain ⟨i, hi⟩ := List.mem_iff_getElem?.mp hfound
    have hi' := (List.getElem?_eq_some_iff.mp hi).1
    have hle : i ≤ j := by omega
    rcases Nat.eq_or_lt_of_le hle with rfl | hlt
    · rw [hlast] at hi
      cases hi
      exact ⟨record, next, hending⟩
    · exact goesOn_of_lt hi (by omega)
  · obtain ⟨rest, _, hof⟩ := exists_attemptOf hlast
    exact .inr (kind_of_ending_halt hof hending)

/-- A chain whose last operation produced a record answers all of them. -/
theorem answered_of_record {record : Record} (hlast : chain.attempts[j]? = some attempt)
    (hlength : chain.attempts.length = j + 1) (hrecord : attempt.record? = some record) :
    chain.run = (.ok ⟨(attempt.left j).results.answers, none⟩, attempt.after) ∧
      chain.Answered (j + 1) ⟨(attempt.left j).results.answers, none⟩ := by
  have hslots := (slotsAfter_of_attempt hlast).succ hlast hrecord
  refine ⟨?_, ⟨_, hslots, rfl⟩, fun k i hclears => ?_, nofun, fun _ => ?_⟩
  · rw [run_of_last hlast hlength, endingAfter_of_record hrecord]
  · exact Nat.lt_of_lt_of_eq (clears_lt_length hclears) hlength
  · rcases finished_of_record hlast hlength hrecord with hall | hprepare
    · exact .inl hall
    · exact .inr ⟨Nat.succ_pos j, attempt.operation, operation_of_attempt hlast, hprepare⟩

theorem exists_answered {response : Response} {after : World σ}
    (hrun : chain.run = (.ok response, after)) : ∃ count, chain.Answered count response := by
  cases hlength : chain.attempts.length with
  | zero =>
      have hnone := List.eq_nil_of_length_eq_zero hlength
      have hall := chain.length_attempts_of_goesOn (by simp [hnone])
      rw [run_of_attempts_nil hnone] at hrun
      cases hrun
      refine ⟨0, ⟨_, slotsAfter_zero, rfl⟩, ?_, nofun, fun _ => .inl (hlength.symm.trans hall)⟩
      exact fun k i hclears => Nat.lt_of_lt_of_eq (clears_lt_length hclears) hlength
  | succ j =>
      obtain ⟨last, hlast⟩ : ∃ last, chain.attempts[j]? = some last :=
        ⟨_, List.getElem?_eq_getElem (by omega)⟩
      -- The attempts before the last let the chain go on, so the last alone
      -- decides.
      rcases last.ending_cases with ⟨record, hrecord⟩ | ⟨error, herror⟩ | ⟨stop, hending, hstop⟩
      · obtain ⟨hrun', hanswered⟩ := answered_of_record hlast hlength hrecord
        rw [hrun'] at hrun
        cases hrun
        exact ⟨j + 1, hanswered⟩
      · obtain ⟨hrun', hanswered⟩ := answered_of_failed hlast hlength herror
        rw [hrun'] at hrun
        cases hrun
        exact ⟨j, hanswered⟩
      · rw [run_of_last hlast hlength, endingAfter, hending] at hrun
        cases stop with
        | failed error => exact absurd rfl (hstop error)
        | overdue level => cases hrun
        | unfinished => cases hrun

/-- An executed slot shows what was captured there, or an empty list of rows once a
`clear` has named it. -/
theorem SlotsAfter.shown {count i : Nat} {results : Results}
    (hslots : chain.SlotsAfter count results) (hi : i < count) :
    (∃ k < count, i < k ∧ chain.attempts.Clears k i) ∧
        results.slots[i]?.bind Results.Slot.answer? = some (.rows []) ∨
      (¬ ∃ k < count, i < k ∧ chain.attempts.Clears k i) ∧
        ∃ record, chain.attempts.Produced i record ∧
          results.slots[i]?.bind Results.Slot.answer? = some record := by
  by_cases hcleared : ∃ k < count, i < k ∧ chain.attempts.Clears k i
  · refine .inl ⟨hcleared, ?_⟩
    rw [hslots.cleared i hi hcleared]
    rfl
  · have hnever : ∀ k < count, i < k → ¬ chain.attempts.Clears k i :=
      fun k hk hik hclear => hcleared ⟨k, hk, hik, hclear⟩
    obtain ⟨record, hproduced, hslot⟩ := hslots.captured i hi hnever
    refine .inr ⟨hcleared, record, hproduced, ?_⟩
    rw [hslot]
    rfl

/-- A slot shows something exactly when its operation was executed. -/
theorem SlotsAfter.isSome_shown {count : Nat} {results : Results}
    (hslots : chain.SlotsAfter count results) (i : Nat) :
    (results.slots[i]?.bind Results.Slot.answer?).isSome ↔ i < count := by
  constructor
  · intro hshown
    refine Nat.lt_of_not_le fun hle => ?_
    by_cases hi : i < chain.operations.length
    · rw [hslots.pending i hle hi] at hshown
      cases hshown
    · rw [List.getElem?_eq_none (by rw [hslots.length]; omega)] at hshown
      cases hshown
  · intro hi
    rcases hslots.shown hi with ⟨_, hshown⟩ | ⟨_, record, _, hshown⟩
    · rw [hshown]
      rfl
    · rw [hshown]
      rfl

namespace Answered

variable {count : Nat} {response : Response}

theorem keys (hanswered : chain.Answered count response) :
    response.results.map (·.1) = List.range count := by
  obtain ⟨results, hslots, hresults⟩ := hanswered.results
  rw [hresults, Results.answers, Results.keys_collectFrom count 0 hslots.isSome_shown,
    List.range_eq_range']

/-- A listed result is what its operation produced, unless it was cleared. -/
theorem record (hanswered : chain.Answered count response) {i : Nat} {record : Record}
    (hmem : (i, record) ∈ response.results) :
    ((∃ k, i < k ∧ chain.attempts.Clears k i) → record = .rows []) ∧
      ((¬ ∃ k, i < k ∧ chain.attempts.Clears k i) → chain.attempts.Produced i record) := by
  obtain ⟨results, hslots, hresults⟩ := hanswered.results
  rw [hresults, Results.answers, Results.mem_collectFrom] at hmem
  have hshown := hmem.2
  have hi := (hslots.isSome_shown i).mp (Option.isSome_of_mem hshown)
  rcases hslots.shown hi with ⟨⟨k, _, hclear⟩, heq⟩ | ⟨hnever, same, hproduced, heq⟩
  · rw [Nat.sub_zero, heq] at hshown
    cases hshown
    exact ⟨fun _ => rfl, fun h => absurd ⟨k, hclear⟩ h⟩
  · rw [Nat.sub_zero, heq] at hshown
    cases hshown
    refine ⟨?_, fun _ => hproduced⟩
    rintro ⟨k, hik, hclear⟩
    exact absurd ⟨k, hanswered.succeeded k i hclear, hik, hclear⟩ hnever

end Answered

end Chain

/-! ## Requests -/

namespace Engine

variable {engine : Engine σ} {clock : Clock} {depth : Nat} {request : Request}

/-- The attempts of the chain of a request. -/
def attempts (engine : Engine σ) (clock : Clock) (depth : Nat) (request : Request) : Attempts σ :=
  match engine.startSession request with
  | .error _ => []
  | .ok session =>
    attemptsFrom (runChain (depth - 1)) [] none 0 request.operations session ⟨engine, clock⟩

/-- An answer to a request that has a session is what the chain of the request ran to. -/
theorem exists_chain_of_execute {response : Response} {world : World σ} {session : Session}
    (hsession : engine.startSession request = .ok session)
    (hexecute : engine.execute clock depth request = some (response, world)) :
    ∃ chain : Chain σ, chain.operations = request.operations ∧
      chain.attempts = engine.attempts clock depth request ∧
      chain.run = (.ok response, world) := by
  cases depth with
  | zero =>
      rw [execute, hsession] at hexecute
      cases hexecute
  | succ depth =>
      rw [Chain.execute_eq_run hsession] at hexecute
      refine ⟨Chain.ofRequest engine clock depth request session hsession, rfl, ?_, ?_⟩
      · rw [attempts, hsession]
        rfl
      · split at hexecute
        next found after hfound =>
          cases hexecute
          exact hfound
        next hfound => cases hexecute

/-- A request has an answer unless its chains nest too deep. The results of an answer
stand under the indices from zero on, as many as operations have succeeded: all of
them, or all up to a `prepare`, or all before the one that failed. Each is what its
operation produced, or an empty list of rows once a later operation has cleared it. -/
theorem results_of_execute (engine : Engine σ) (clock : Clock) (depth : Nat) (request : Request) :
    (engine.execute clock depth request = none →
      ∃ session world, engine.startSession request = .ok session ∧
        (runChain depth [] request.operations session none).exec ⟨engine, clock⟩ =
          (.error .unfinished, world)) ∧
    ∀ response world, engine.execute clock depth request = some (response, world) →
      ∃ count, response.results.map (·.1) = List.range count ∧
        (∀ failure, response.failure = some failure → failure.index = count) ∧
        (response.failure = none → count = request.operations.length ∨
          0 < count ∧ ∃ last, request.operations[count - 1]? = some last ∧
            last.kind = .prepare) ∧
        ∀ i record, (i, record) ∈ response.results →
          ((∃ k, i < k ∧ (engine.attempts clock depth request).Clears k i) →
            record = .rows []) ∧
          ((¬ ∃ k, i < k ∧ (engine.attempts clock depth request).Clears k i) →
            (engine.attempts clock depth request).Produced i record) := by
  refine ⟨unfinished_of_execute_eq_none, fun response world hexecute => ?_⟩
  cases hsession : engine.startSession request with
  | error error =>
      rw [execute, hsession] at hexecute
      cases hexecute
      refine ⟨0, rfl, ?_, ?_, ?_⟩
      · intro failure heq
        cases heq
        rfl
      · intro hnone
        cases hnone
      · intro i record hmem
        cases hmem
  | ok session =>
      obtain ⟨chain, hoperations, hattempts, hrun⟩ := exists_chain_of_execute hsession hexecute
      obtain ⟨count, hanswered⟩ := Chain.exists_answered hrun
      rw [← hoperations, ← hattempts]
      exact ⟨count, hanswered.keys, hanswered.failed, hanswered.finished,
        fun i record hmem => hanswered.record hmem⟩

/-- A saved state is cleared again before a `prepare` ends the chain, so that its
last operation is not executed. -/
theorem results_of_execute_cleared_prepared :
    let engine : Engine NestedStore := { store := {} }
    let request : Request := { operations := [{ kind := .saveState },
      Operation.literal { kind := .clear } "index" (.int 0), { kind := .prepare },
      { kind := .query }] }
    ∃ response world, engine.execute { readings := fun _ => 0 } 1 request = some (response, world) ∧
      response.results.length = 3 ∧ (0, .rows []) ∈ response.results ∧
      ∃ count, response.results.map (·.1) = List.range count ∧
        (response.failure = none → count = request.operations.length ∨
          0 < count ∧ ∃ last, request.operations[count - 1]? = some last ∧
            last.kind = .prepare) := by
  intro engine request
  have hexecute : engine.execute { readings := fun _ => 0 } 1 request = some (_, _) := rfl
  obtain ⟨count, hkeys, _, hfinished, _⟩ := (results_of_execute _ _ _ _).2 _ _ hexecute
  exact ⟨_, _, hexecute, rfl, List.mem_cons_self, count, hkeys, hfinished⟩

end Engine

end OperationChain
