import OperationChain.Proofs.Engine.Chains
import OperationChain.Proofs.Ordered.Map
import OperationChain.Store.Nested

/-! # What references point at

A reference of an operation has a value exactly when an earlier operation of the
same chain produced a record that has the field, and no `clear` has named that
operation since. The value is then read from that very record. An operation with a
parameter that has no value ends its chain, and nothing else becomes of it.
-/

namespace OperationChain

/-! ## Fields of a record -/

/-- The fields that a record has, and the value of each. -/
inductive Record.Carries : Record → Option String → Value → Prop
  | list (rows : List Row) : Carries (.rows rows) none (.list (rows.map Row.toValue))
  | rows (rows : List Row) : Carries (.rows rows) (some "rows") (.list (rows.map Row.toValue))
  | component {field : String} {component : Component} {first : Row} {value : Value}
      (more : List Row) (hname : Component.parse field = .ok component)
      (hvalue : first.component component = some value) :
      Carries (.rows (first :: more)) (some field) value
  | scalar (value : Value) : Carries (.scalar value) none value
  | value (value : Value) : Carries (.scalar value) (some "value") value
  | ok : Carries .ok none (.text "OK")
  | okValue : Carries .ok (some "value") (.text "OK")

namespace Record

variable {index : Int64} {value found : Value}

theorem rowsField_eq_ok_iff {rows : List Row} {field : Option String} :
    rowsField index rows field = .ok value ↔ (Record.rows rows).Carries field value := by
  constructor
  · intro hfield
    unfold rowsField at hfield
    split at hfield
    · cases hfield
      exact .list rows
    · cases hfield
      exact .rows rows
    next name _ =>
      split at hfield
      · cases hfield
      next component hname =>
        split at hfield
        · cases hfield
        next first more =>
          split at hfield
          next found hfound =>
            cases hfield
            exact .component more hname hfound
          · cases hfield
  · intro hcarries
    cases hcarries with
    | list => rfl
    | rows => rfl
    | component more hname hvalue =>
        unfold rowsField
        split
        next heq => cases heq
        next heq =>
          -- The word for all rows is no name of a component.
          cases heq
          cases hname
        next heq =>
          cases heq
          rw [hname]
          dsimp only
          rw [hvalue]

theorem valueField_eq_ok_iff {field : Option String} :
    valueField index found field = .ok value ↔
      (field = none ∨ field = some "value") ∧ found = value := by
  unfold valueField
  split
  · simp
  · simp
  next name hname =>
    constructor
    · intro heq
      cases heq
    · rintro ⟨hnone | hvalue, _⟩
      · cases hnone
      · cases hvalue
        exact absurd rfl hname

/-- A field has a value exactly when the record has that field, and it is the one
that the record carries there. -/
theorem field_eq_ok_iff {record : Record} {field : Option String} :
    record.field index field = .ok value ↔ record.Carries field value := by
  cases record with
  | rows rows => exact rowsField_eq_ok_iff
  | ok =>
      rw [Record.field, valueField_eq_ok_iff]
      constructor
      · rintro ⟨rfl | rfl, rfl⟩
        · exact .ok
        · exact .okValue
      · intro hcarries
        cases hcarries with
        | ok => exact ⟨.inl rfl, rfl⟩
        | okValue => exact ⟨.inr rfl, rfl⟩
  | scalar held =>
      rw [Record.field, valueField_eq_ok_iff]
      constructor
      · rintro ⟨rfl | rfl, rfl⟩
        · exact .scalar held
        · exact .value held
      · intro hcarries
        cases hcarries with
        | scalar => exact ⟨.inl rfl, rfl⟩
        | value => exact ⟨.inr rfl, rfl⟩

end Record

theorem Reference.resolve_eq_ok_iff {reference : Reference} {results : Results} {value : Value} :
    reference.resolve results = .ok value ↔
      ∃ record, results.get reference.index.toInt = .ok record ∧
        record.Carries reference.field value := by
  simp only [Reference.resolve, Except.bind_eq_ok_iff, Record.field_eq_ok_iff]

/-! ## The first parameter without a value -/

/-- The entries up to the first one whose parameter has no value. -/
theorem exists_first_unresolved {results : Results} {binds : Option Binds}
    {entries : List (String × Param)} {error : Error}
    (herror : resolveEntries results binds entries = .error error) :
    ∃ before key param cause after, entries = before ++ (key, param) :: after ∧
      (∀ entry ∈ before, ∃ value, entry.2.resolve results binds = .ok value) ∧
      param.resolve results binds = .error cause ∧ error = cause.inParameter key := by
  induction entries generalizing error with
  | nil => cases herror
  | cons entry rest ih =>
      obtain ⟨key, param⟩ := entry
      rw [resolveEntries] at herror
      cases hparam : param.resolve results binds with
      | error cause =>
          rw [hparam] at herror
          cases herror
          exact ⟨[], key, param, cause, rest, rfl, nofun, hparam, rfl⟩
      | ok value =>
          rw [hparam] at herror
          dsimp only at herror
          cases hrest : resolveEntries results binds rest with
          | ok values =>
              rw [hrest] at herror
              cases herror
          | error later =>
              rw [hrest] at herror
              cases herror
              obtain ⟨before, first, found, cause, after, heq, hbefore, hcause, rfl⟩ := ih hrest
              refine ⟨(key, param) :: before, first, found, cause, after, ?_, ?_, hcause, rfl⟩
              · rw [heq, List.cons_append]
              · intro entry hentry
                rcases List.mem_cons.mp hentry with rfl | hentry
                · exact ⟨value, hparam⟩
                · exact hbefore entry hentry

/-- Resolution fails where one of the parameters has no value. -/
theorem resolveEntries_ne_ok {results : Results} {binds : Option Binds}
    {entries : List (String × Param)} {values : List (String × Value)} {entry : String × Param}
    (hentry : entry ∈ entries) (hnone : ∀ value, entry.2.resolve results binds ≠ .ok value) :
    resolveEntries results binds entries ≠ .ok values := by
  induction entries generalizing values with
  | nil => cases hentry
  | cons head rest ih =>
      obtain ⟨key, param⟩ := head
      rw [resolveEntries]
      cases hparam : param.resolve results binds with
      | error cause => nofun
      | ok value =>
          rcases List.mem_cons.mp hentry with rfl | hlater
          · exact absurd hparam (hnone value)
          · dsimp only
            cases hrest : resolveEntries results binds rest with
            | error later => nofun
            | ok found => exact absurd hrest (ih hlater)

namespace Operation

variable {operation : Operation} {results : Results} {binds : Option Binds}

/-- The parameter that fails an operation is the one with the least key among those
that have no value. -/
theorem resolve_eq_error_of_unresolved {entry : String × Param}
    (hentry : entry ∈ operation.params.entries)
    (hnone : ∀ value, entry.2.resolve results binds ≠ .ok value) :
    ∃ key param cause, (key, param) ∈ operation.params.entries ∧
      param.resolve results binds = .error cause ∧
      (∀ other ∈ operation.params.entries, compare other.1 key = .lt →
        ∃ value, other.2.resolve results binds = .ok value) ∧
      operation.resolve results binds = .error (cause.inParameter key) := by
  rw [Operation.resolve]
  cases hvalues : resolveEntries results binds operation.params.entries with
  | ok values => exact absurd hvalues (resolveEntries_ne_ok hentry hnone)
  | error error =>
      obtain ⟨before, key, param, cause, after, heq, hbefore, hcause, rfl⟩ :=
        exists_first_unresolved hvalues
      have hascending := operation.params.ascending
      rw [heq] at hascending ⊢
      refine ⟨key, param, cause, by simp, hcause, fun other hother hlt => ?_, rfl⟩
      rcases List.mem_append.mp hother with hother | hother
      · exact hbefore other hother
      · have hlater := (List.pairwise_append.mp hascending).2.1
        rcases List.mem_cons.mp hother with rfl | hother
        · exact absurd rfl (Entries.ne_of_lt hlt)
        · have hgt : compare key other.1 = .lt := (List.pairwise_cons.mp hlater).1 other hother
          rw [Std.OrientedCmp.gt_of_lt hgt] at hlt
          cases hlt

end Operation

/-! ## References of a chain -/

namespace Chain

variable {σ : Type} [Store σ] {chain : Chain σ} {j : Nat} {attempt : Attempt σ}

/-- The captured slots are those of the earlier operations that were not cleared
since. -/
theorem get_eq_ok_iff (hattempt : chain.attempts[j]? = some attempt) {index : Int}
    {record : Record} :
    attempt.session.results.get index = .ok record ↔
      ∃ i : Nat, index = i ∧ i < j ∧ (∀ k < j, i < k → ¬ chain.attempts.Clears k i) ∧
        chain.attempts.Produced i record := by
  have hslots := slotsAfter_of_attempt hattempt
  rw [Results.get_eq_ok_iff]
  constructor
  · rintro ⟨i, hindex, hslot⟩
    -- The slots of this operation and of those after it are pending.
    have hi : i < j := by
      refine Nat.lt_of_not_le fun hle => ?_
      have hlength := (List.getElem?_eq_some_iff.mp hslot).1
      rw [hslots.length] at hlength
      rw [hslots.pending i hle hlength] at hslot
      cases hslot
    have hnever : ∀ k < j, i < k → ¬ chain.attempts.Clears k i := by
      intro k hk hik hclear
      rw [hslots.cleared i hi ⟨k, hk, hik, hclear⟩] at hslot
      cases hslot
    obtain ⟨same, hproduced, hsame⟩ := hslots.captured i hi hnever
    rw [hslot] at hsame
    cases hsame
    exact ⟨i, hindex, hi, hnever, hproduced⟩
  · rintro ⟨i, hindex, hi, hnever, attempt', hattempt', hrecord⟩
    obtain ⟨same, ⟨_, hsame, hproduced⟩, hslot⟩ := hslots.captured i hi hnever
    rw [hattempt'] at hsame
    cases hsame
    rw [hrecord] at hproduced
    cases hproduced
    exact ⟨i, hindex, hslot⟩

/-- An operation that cannot be resolved ends the chain; the world and the session
stay as they were. -/
theorem run_of_unresolved {error : Error} (hattempt : chain.attempts[j]? = some attempt)
    (herror : attempt.operation.resolve attempt.session.results chain.binds = .error error) :
    chain.attempts.length = j + 1 ∧ attempt.after = attempt.before ∧
      attempt.left j = attempt.session ∧
      chain.run = (.ok ⟨attempt.session.results.answers, some ⟨j, error⟩⟩, attempt.before) := by
  obtain ⟨rest, _, hof⟩ := exists_attemptOf hattempt
  have hrun := runOperation_unresolved chain.nested chain.deadlines rest attempt.before herror
  have hending : attempt.ending = .error (.failed error) := by
    rw [hof, attemptOf, hrun]
  have hafter : attempt.after = attempt.before := by
    rw [hof, attemptOf, hrun]
  have hlength : chain.attempts.length = j + 1 := by
    refine length_attempts_of_not_goesOn hattempt ?_
    rintro ⟨record, next, hnext⟩
    rw [hending] at hnext
    cases hnext
  refine ⟨hlength, hafter, by rw [Attempt.left, hending], ?_⟩
  rw [run_of_last hattempt hlength, endingAfter, hending]
  dsimp only
  rw [hafter]

/-- A reference has a value exactly when it points at a field of the record of an
earlier operation that was not cleared since. The parameter with the least key among
those without a value ends the chain with its error, and leaves the session and the
world as its operation found them. -/
theorem references_of_reached (hreached : chain.attempts[j]? = some attempt) :
    (∀ (reference : Reference) (value : Value),
      (Param.reference reference).resolve attempt.session.results chain.binds = .ok value ↔
        ∃ (i : Nat) (record : Record), reference.index.toInt = i ∧ i < j ∧
          (∀ k < j, i < k → ¬ chain.attempts.Clears k i) ∧ chain.attempts.Produced i record ∧
          record.Carries reference.field value) ∧
      ((∃ entry ∈ attempt.operation.params.entries, ∀ value,
          entry.2.resolve attempt.session.results chain.binds ≠ .ok value) →
        ∃ key param error, (key, param) ∈ attempt.operation.params.entries ∧
          param.resolve attempt.session.results chain.binds = .error error ∧
          (∀ other ∈ attempt.operation.params.entries, compare other.1 key = .lt →
            ∃ value, other.2.resolve attempt.session.results chain.binds = .ok value) ∧
          chain.attempts.length = j + 1 ∧ attempt.after = attempt.before ∧
          attempt.left j = attempt.session ∧
          chain.run = (.ok ⟨attempt.session.results.answers, some ⟨j, error.inParameter key⟩⟩,
            attempt.before)) := by
  constructor
  · intro reference value
    rw [Param.resolve, Reference.resolve_eq_ok_iff]
    constructor
    · rintro ⟨record, hget, hcarries⟩
      obtain ⟨i, hindex, hi, hnever, hproduced⟩ := (get_eq_ok_iff hreached).mp hget
      exact ⟨i, record, hindex, hi, hnever, hproduced, hcarries⟩
    · rintro ⟨i, record, hindex, hi, hnever, hproduced, hcarries⟩
      exact ⟨record, (get_eq_ok_iff hreached).mpr ⟨i, hindex, hi, hnever, hproduced⟩, hcarries⟩
  · rintro ⟨entry, hentry, hnone⟩
    obtain ⟨key, param, cause, hmem, hcause, hleast, herror⟩ :=
      Operation.resolve_eq_error_of_unresolved hentry hnone
    exact ⟨key, param, cause, hmem, hcause, hleast, run_of_unresolved hreached herror⟩

/-- A parameter that points at the first operation has its number as value, and one
that points at its own operation fails it. -/
theorem references_of_reached_second :
    let operation : Operation := Operation.param
      (Operation.param { kind := .restoreState } "id" (.reference ⟨0, none⟩)) "other"
      (.reference ⟨1, none⟩)
    let world : World NestedStore := ⟨{ store := {} }, { readings := fun _ => 0 }⟩
    let chain := inside 0 [] [{ kind := .saveState }, operation] (Session.start .one 2) none world
    ∃ attempt, chain.attempts[1]? = some attempt ∧
      (∃ i record, i < 1 ∧ chain.attempts.Produced i record ∧ record.Carries none (.int 1)) ∧
      ∃ (key : String) (error : Error), chain.run =
        (.ok ⟨attempt.session.results.answers, some ⟨1, error.inParameter key⟩⟩,
          attempt.before) := by
  intro operation world chain
  have hreached : chain.attempts[1]? = some _ := rfl
  obtain ⟨hvalue, hfails⟩ := references_of_reached hreached
  refine ⟨_, hreached, ?_, ?_⟩
  · obtain ⟨i, record, _, hi, _, hproduced, hcarries⟩ := (hvalue ⟨0, none⟩ (.int 1)).mp rfl
    exact ⟨i, record, hi, hproduced, hcarries⟩
  · obtain ⟨key, _, error, _, _, _, _, _, _, hrun⟩ := hfails
      ⟨("other", .reference ⟨1, none⟩), List.mem_cons_of_mem _ List.mem_cons_self, nofun⟩
    exact ⟨key, error, hrun⟩

end Chain

end OperationChain
