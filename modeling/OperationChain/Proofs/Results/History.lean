import Mathlib.Data.List.Basic
import OperationChain.Proofs.History
import OperationChain.Proofs.Results

/-! # What results hold after calls

Slots come into being as results are captured, and each of them goes from one state to another in
any order. What they hold is told by the calls alone: what the last call left under an index that
captured something there or cleared it, and how far the captures reached.
-/

namespace OperationChain.Results

/-! ## Calls -/

/-- A call on the results of a chain. -/
inductive Call where
  | capture (index : Nat) (record : Record)
  | clear (index : Int)
  | get (index : Int)
  | rowLists

/-- What a call on the results of a chain answers. -/
inductive Reply where
  | captured
  | cleared
  | found (record : Record)
  | listed (lists : List (Nat × List Row))

/-- Makes a call: its answer, and the results after it. -/
def perform (results : Results) : Call → Except Error Reply × Results
  | .capture index record => (.ok .captured, results.capture index record)
  | .clear index =>
    match results.clear index with
    | .ok after => (.ok .cleared, after)
    | .error error => (.error error, results)
  | .get index => ((results.get index).map .found, results)
  | .rowLists => (.ok (.listed results.rowLists), results)

/-- The results after calls. -/
def performed (results : Results) (calls : List Call) : Results :=
  calls.foldl (fun results call => (results.perform call).2) results

theorem performed_concat (results : Results) (calls : List Call) (call : Call) :
    results.performed (calls ++ [call]) = ((results.performed calls).perform call).2 :=
  List.foldl_concat ..

/-- The index at which a call captures a result. -/
def Call.captured? : Call → Option Nat
  | .capture index _ => some index
  | _ => none

/-- The indices at which calls capture results. -/
def captured (calls : List Call) : List Nat := calls.filterMap Call.captured?

/-- What a call leaves under an index: the result that it captures there, or a cleared slot if it
clears the index and succeeds. -/
inductive Leaves (results : Results) (place : Nat) : Call → Slot → Prop
  | captured (record : Record) : Leaves results place (.capture place record) (.captured record)
  | cleared (hcleared : (results.perform (.clear place)).1 = .ok .cleared) :
    Leaves results place (.clear place) .cleared

/-- What the last of the calls left under an index that left anything there. -/
def LastLeft (start : Results) (calls : List Call) (place : Nat) (slot : Slot) : Prop :=
  Latest (fun earlier => (start.performed earlier).Leaves place) calls slot

/-! ## One call -/

section Calls

variable {results after : Results} {call : Call} {index : Int} {place : Nat} {slot : Slot}

/-- Clearing is refused, or it clears the slot of an operation that was executed. -/
theorem perform_clear_cases (results : Results) (index : Int) :
    (∃ error, results.perform (.clear index) = (.error error, results)) ∨
      ∃ place : Nat, index = place ∧ results.slotAt place ≠ .pending ∧
        results.perform (.clear index) = (.ok .cleared, ⟨results.slots.set place .cleared⟩) := by
  rw [perform]
  split
  next after hclear =>
    obtain ⟨place, hindex, hexecuted, rfl⟩ := clear_eq_ok_iff.mp hclear
    exact .inr ⟨place, hindex, hexecuted, rfl⟩
  next error _ => exact .inl ⟨error, rfl⟩

/-- A call that is refused leaves the results as they are. -/
theorem perform_of_error {error : Error} (herror : (results.perform call).1 = .error error) :
    (results.perform call).2 = results := by
  cases call with
  | capture index record => cases herror
  | get index => rfl
  | rowLists => rfl
  | clear index =>
      obtain ⟨_, hrefused⟩ | ⟨_, _, _, hcleared⟩ := results.perform_clear_cases index
      · rw [hrefused]
      · rw [hcleared] at herror
        cases herror

theorem slotAt_perform_of_leaves (hleaves : results.Leaves place call slot) :
    (results.perform call).2.slotAt place = slot := by
  cases hleaves with
  | captured record => exact (slotAt_capture ..).trans (if_pos rfl)
  | cleared hanswer =>
      obtain ⟨_, hrefused⟩ | ⟨same, hsame, hexecuted, hcleared⟩ :=
        results.perform_clear_cases place
      · rw [hrefused] at hanswer
        cases hanswer
      · obtain rfl := Int.ofNat_inj.mp hsame
        rw [hcleared, slotAt_set (lt_length_of_executed hexecuted), if_pos rfl]

/-- A call that leaves nothing under an index does not change what is there. -/
theorem slotAt_perform_of_not (hnot : ∀ slot, ¬ results.Leaves place call slot) :
    (results.perform call).2.slotAt place = results.slotAt place := by
  cases call with
  | get index => rfl
  | rowLists => rfl
  | capture index record =>
      refine (slotAt_capture ..).trans (if_neg ?_)
      rintro rfl
      exact hnot _ (.captured record)
  | clear index =>
      obtain ⟨_, hrefused⟩ | ⟨other, rfl, hexecuted, hcleared⟩ := results.perform_clear_cases index
      · rw [hrefused]
      · rw [hcleared, slotAt_set (lt_length_of_executed hexecuted)]
        refine if_neg ?_
        rintro rfl
        exact hnot _ (.cleared (congrArg Prod.fst hcleared))

theorem Leaves.ne_pending (hleaves : results.Leaves place call slot) : slot ≠ .pending := by
  cases hleaves <;> rintro ⟨⟩

/-- A call takes the place of what is under an index, or leaves it there. -/
theorem slotAt_perform_iff :
    (results.perform call).2.slotAt place = slot ∧ slot ≠ .pending ↔
      results.Leaves place call slot ∨
        (results.slotAt place = slot ∧ slot ≠ .pending) ∧
          ∀ other, ¬ results.Leaves place call other := by
  by_cases hleaves : ∃ left, results.Leaves place call left
  · obtain ⟨left, hleft⟩ := hleaves
    rw [slotAt_perform_of_leaves hleft]
    constructor
    · rintro ⟨rfl, -⟩
      exact .inl hleft
    · rintro (hslot | ⟨-, hnone⟩)
      · refine ⟨?_, hslot.ne_pending⟩
        rw [← slotAt_perform_of_leaves hleft, slotAt_perform_of_leaves hslot]
      · exact absurd hleft (hnone left)
  · rw [not_exists] at hleaves
    rw [slotAt_perform_of_not hleaves, or_iff_right (hleaves slot), and_iff_left hleaves]

/-- An operation counts as executed from the first capture under its index on. -/
theorem executed_perform_iff :
    (results.perform call).2.slotAt place ≠ .pending ↔
      results.slotAt place ≠ .pending ∨ call.captured? = some place := by
  cases call with
  | get index => simp [perform, Call.captured?]
  | rowLists => simp [perform, Call.captured?]
  | capture index record =>
      by_cases hsame : place = index
      · simp [perform, slotAt_capture, Call.captured?, hsame]
      · simp [perform, slotAt_capture, Call.captured?, hsame, Ne.symm hsame]
  | clear index =>
      have hnone : (Call.clear index).captured? ≠ some place := by rintro ⟨⟩
      rw [or_iff_left hnone]
      obtain ⟨_, hrefused⟩ | ⟨other, rfl, hexecuted, hcleared⟩ := results.perform_clear_cases index
      · rw [hrefused]
      · rw [hcleared, slotAt_set (lt_length_of_executed hexecuted)]
        split
        next hsame =>
          rw [hsame]
          exact iff_of_true (by rintro ⟨⟩) hexecuted
        next => rfl

theorem length_perform (results : Results) (call : Call) :
    (results.perform call).2.length = max results.length (call.captured?.elim 0 (· + 1)) := by
  cases call with
  | get index => exact (Nat.max_zero _).symm
  | rowLists => exact (Nat.max_zero _).symm
  | capture index record => exact length_capture results index record
  | clear index =>
      refine Eq.trans ?_ (Nat.max_zero _).symm
      obtain ⟨_, hrefused⟩ | ⟨_, _, _, hcleared⟩ := results.perform_clear_cases index
      · rw [hrefused]
      · rw [hcleared]
        exact List.length_set

theorem slot_clear_of_ne {other : Int} (hclear : results.clear index = .ok after)
    (hother : other ≠ index) : after.slot other = results.slot other := by
  obtain ⟨place, rfl, -, rfl⟩ := clear_eq_ok_iff.mp hclear
  unfold slot
  simp only [length, List.length_set]
  split
  next hsign => rw [List.getElem?_set_ne (by omega)]
  next => rfl

end Calls

/-! ## Sequences of calls -/

section Histories

variable {start : Results} {calls : List Call} {place : Nat} {slot : Slot}

/-- Results of which none was captured hold what calls have left. -/
theorem lastLeft_iff (hpending : ∀ place, start.slotAt place = .pending) :
    start.LastLeft calls place slot ↔
      (start.performed calls).slotAt place = slot ∧ slot ≠ .pending := by
  induction calls using List.reverseRecOn generalizing slot with
  | nil =>
      refine iff_of_false not_latest_nil ?_
      rintro ⟨rfl, hexecuted⟩
      exact hexecuted (hpending place)
  | append_singleton calls call ih =>
      rw [performed_concat, slotAt_perform_iff, ← ih]
      exact latest_concat

theorem executed_performed_iff (hpending : ∀ place, start.slotAt place = .pending) :
    (start.performed calls).slotAt place ≠ .pending ↔ place ∈ captured calls := by
  induction calls using List.reverseRecOn with
  | nil => exact iff_of_false (not_not.mpr (hpending place)) List.not_mem_nil
  | append_singleton calls call ih =>
      rw [performed_concat, executed_perform_iff, ih, captured, captured, List.filterMap_append,
        List.mem_append]
      simp

theorem length_performed (start : Results) (calls : List Call) :
    (start.performed calls).length =
      max start.length ((captured calls).max?.elim 0 (· + 1)) := by
  -- From the front, where the greatest index of a list is taken apart.
  induction calls generalizing start with
  | nil => exact (Nat.max_zero _).symm
  | cons call rest ih =>
      have hrest := ih (start.perform call).2
      rw [length_perform] at hrest
      refine hrest.trans ?_
      rw [Nat.max_assoc, captured, captured, List.filterMap_cons]
      congr 1
      cases hcall : call.captured? with
      | none => exact Nat.zero_max ..
      | some index =>
          dsimp only
          rw [List.max?_cons]
          cases (rest.filterMap Call.captured?).max? with
          | none => exact Nat.max_zero _
          | some greatest => exact Nat.add_max_add_right ..

end Histories

/-- Whatever calls were made on new results: an index gives the result that was captured there
last, unless it was cleared with success since. It can be cleared if anything was captured there,
which changes no other index. A refusal tells whether the index lies outside, was never captured or
was cleared, and leaves the results as they are. The rows are listed of those indices that give
lists of rows, in their order. Taking the results gives all indices that were captured, in their
order, with no rows for those that are cleared, and leaves nothing. There are as many slots as at
the start, or as many as the greatest captured index needs. -/
theorem recorded_of_performed (length : Nat) (calls : List Call) :
    let start := ofLength length
    let results := start.performed calls
    (∀ (index : Int) record, results.get index = .ok record ↔
        ∃ place : Nat, index = place ∧ start.LastLeft calls place (.captured record)) ∧
      (∀ index : Int, (∃ after, results.clear index = .ok after) ↔
        ∃ place ∈ captured calls, index = place) ∧
      (∀ (index : Int) after, results.clear index = .ok after →
        ∀ other : Int, other ≠ index → after.slot other = results.slot other) ∧
      (∀ index : Int, ¬ (0 ≤ index ∧ index < results.length) →
        results.get index = .error (.reference (.outOfRange index results.length)) ∧
          results.clear index = .error (.reference (.outOfRange index results.length))) ∧
      (∀ place : Nat, place < results.length → place ∉ captured calls →
        results.get place = .error (.reference (.pending place)) ∧
          results.clear place = .error (.reference (.pendingClear place))) ∧
      (∀ place : Nat, start.LastLeft calls place .cleared →
        results.get place = .error (.reference (.cleared place))) ∧
      (∀ call error, (results.perform call).1 = .error error →
        (results.perform call).2 = results) ∧
      ((results.rowLists.map (·.1)).Pairwise (· < ·) ∧
        ∀ (place : Nat) rows,
          (place, rows) ∈ results.rowLists ↔ results.get place = .ok (.rows rows)) ∧
      ((results.take.1.map (·.1)).Pairwise (· < ·) ∧
        (∀ place : Nat, place ∈ results.take.1.map (·.1) ↔ place ∈ captured calls) ∧
        (∀ (place : Nat) record, (place, record) ∈ results.take.1 ↔
          results.get place = .ok record ∨
            start.LastLeft calls place .cleared ∧ record = .rows []) ∧
        results.take.2 = ofLength 0) ∧
      results.length = max length ((captured calls).max?.elim 0 (· + 1)) := by
  intro start results
  have hpending (place : Nat) : start.slotAt place = .pending := slotAt_ofLength length place
  have hexecuted (place : Nat) : results.slotAt place ≠ .pending ↔ place ∈ captured calls :=
    executed_performed_iff hpending
  have hcaptured (place : Nat) (record : Record) :
      start.LastLeft calls place (.captured record) ↔ results.slotAt place = .captured record :=
    (lastLeft_iff hpending).trans (and_iff_left (by rintro ⟨⟩))
  have hcleared (place : Nat) :
      start.LastLeft calls place .cleared ↔ results.slotAt place = .cleared :=
    (lastLeft_iff hpending).trans (and_iff_left (by rintro ⟨⟩))
  refine ⟨?_, ?_, ?_, ?_, ?_, ?_, ?_, ⟨?_, ?_⟩, ⟨?_, ?_, ?_, rfl⟩, ?_⟩
  · intro index record
    simp only [get_eq_ok_iff, hcaptured, slotAt_eq_captured_iff]
  · intro index
    constructor
    · rintro ⟨after, hclear⟩
      obtain ⟨place, hindex, hplace, -⟩ := clear_eq_ok_iff.mp hclear
      exact ⟨place, (hexecuted place).mp hplace, hindex⟩
    · rintro ⟨place, hplace, hindex⟩
      exact ⟨_, clear_eq_ok_iff.mpr ⟨place, hindex, (hexecuted place).mpr hplace, rfl⟩⟩
  · intro index after hclear other hother
    exact slot_clear_of_ne hclear hother
  · intro index houtside
    exact refused_of_outside houtside
  · intro place hplace hnever
    rw [← hexecuted, not_not] at hnever
    exact refused_of_pending hplace hnever
  · intro place hplace
    exact get_of_cleared ((hcleared place).mp hplace)
  · exact fun call error => perform_of_error
  · exact pairwise_collectFrom ..
  · intro place rows
    rw [mem_rowLists, get_natCast_eq_ok_iff]
  · exact pairwise_collectFrom ..
  · intro place
    exact mem_keys_answers.trans (hexecuted place)
  · intro place record
    rw [get_natCast_eq_ok_iff, hcleared]
    exact mem_answers
  · have hstart : start.length = length := List.length_replicate
    have hlength : results.length = _ := length_performed start calls
    rwa [hstart] at hlength

/-- A slot beyond the end brings those before it along, and only what was executed is cleared. -/
example (record : Record) :
    ((ofLength 1).performed [.capture 2 record, .clear 2, .clear 1, .capture 0 record]).take.1 =
      [(0, record), (2, .rows [])] := rfl

end OperationChain.Results
