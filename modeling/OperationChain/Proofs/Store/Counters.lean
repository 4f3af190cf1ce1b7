import OperationChain.Proofs.DataType.Words
import OperationChain.Proofs.Store.Calls
import Mathlib.Algebra.Ring.Int.Defs

/-! # Counters

A column that nothing but increments has ever changed holds the sum of what they
added, whatever else happens to the store in between. An increment fails only where
that sum would not fit into a word, and then the column stays as it is.
-/

namespace OperationChain

/-! ## Counting -/

/-- What a call adds to a column if it succeeds. -/
def Store.Call.delta? (target : TableName) (rowkey name : Bytes) : Store.Call → Option Int64
  | .increment other key column delta _ =>
    if other = target ∧ key = rowkey ∧ column = name then some delta else none
  | _ => none

namespace Store

variable {σ : Type} [Store σ]

/-- A store after calls, each with its reading of the clock. -/
def performed (store : σ) (calls : List (Timestamp × Call)) : σ :=
  calls.foldl (fun store call => (perform store call.1 call.2).2) store

/-- What a call adds to a column, if it succeeds. -/
def addition (target : TableName) (rowkey name : Bytes) (store : σ) (now : Timestamp)
    (call : Call) : Option Int64 :=
  (call.delta? target rowkey name).filter fun _ => (perform store now call).1.isOk

/-- What those of the calls that succeed add to a column, in their order. -/
def added (target : TableName) (rowkey name : Bytes) (store : σ) :
    List (Timestamp × Call) → List Int64
  | [] => []
  | (now, call) :: rest =>
    (addition target rowkey name store now call).toList ++
      added target rowkey name (perform store now call).2 rest

end Store

/-- Whether a whole number is a signed word of 64 bits. -/
def FitsWord (n : Int) : Prop := -2 ^ 63 ≤ n ∧ n < 2 ^ 63

theorem FitsWord.toInt64?_eq {n : Int} (hfits : FitsWord n) :
    Numeral.toInt64? n = some (Int64.ofInt n) :=
  if_pos hfits

theorem toInt64?_eq_none {n : Int} (hover : ¬ FitsWord n) : Numeral.toInt64? n = none :=
  if_neg hover

/-- The exact sum of words. -/
def exactSum (deltas : List Int64) : Int := (deltas.map (·.toInt)).sum

/-- What a column holds that nothing but additions have changed: nothing before the
first of them, and from then on their exact sum as a word of eight bytes, which does
not expire. -/
structure Counted (held : Option Cell) (deltas : List Int64) : Prop where
  absent : deltas = [] → held = none
  sum : deltas ≠ [] → ∃ cell total, held = some cell ∧ cell.ttl = none ∧
    cell.value = Bytes.ofInt64 total ∧ total.toInt = exactSum deltas

namespace Counted

variable {held : Option Cell} {deltas : List Int64}

theorem empty : Counted none [] := ⟨fun _ => rfl, fun hne => absurd rfl hne⟩

theorem isLive_of_ttl_none {cell : Cell} (httl : cell.ttl = none) (now : Timestamp) :
    cell.isLive now = true := by
  rw [Cell.isLive, httl]
  rfl

/-- What a counter has counted so far, as an addition finds it. -/
theorem current (hcounted : Counted held deltas) (now : Timestamp) :
    ∃ total : Int64, total.toInt = exactSum deltas ∧
      ((held.filter fun cell => cell.isLive now).map (·.value)).elim (some 0) Bytes.toInt64? =
        some total := by
  by_cases hdeltas : deltas = []
  · rw [hcounted.absent hdeltas, hdeltas]
    exact ⟨0, rfl, rfl⟩
  · obtain ⟨cell, total, hcell, httl, hvalue, htotal⟩ := hcounted.sum hdeltas
    have hlive := isLive_of_ttl_none httl now
    refine ⟨total, htotal, ?_⟩
    rw [hcell, Option.filter_some, if_pos hlive, Option.map_some, Option.elim_some, hvalue,
      Bytes.toInt64?_ofInt64]

/-- An addition to a counter whose new sum is a word. -/
theorem addToCounter_of_fits (hcounted : Counted held deltas) (now : Timestamp) (name : Bytes)
    {delta : Int64} (hfits : FitsWord (exactSum deltas + delta.toInt)) :
    addToCounter name ((held.filter fun cell => cell.isLive now).map (·.value)) delta =
      .ok (Bytes.ofInt64 (Int64.ofInt (exactSum deltas + delta.toInt))) := by
  obtain ⟨total, htotal, hcurrent⟩ := hcounted.current now
  rw [addToCounter, hcurrent, ← htotal]
  rw [← htotal] at hfits
  dsimp only
  rw [hfits.toInt64?_eq]

/-- An addition to a counter whose new sum is too large or too small. -/
theorem addToCounter_of_not_fits (hcounted : Counted held deltas) (now : Timestamp) (name : Bytes)
    {delta : Int64} (hover : ¬ FitsWord (exactSum deltas + delta.toInt)) :
    addToCounter name ((held.filter fun cell => cell.isLive now).map (·.value)) delta =
      .error (.store .counterOverflow) := by
  obtain ⟨total, htotal, hcurrent⟩ := hcounted.current now
  rw [addToCounter, hcurrent]
  rw [← htotal] at hover
  dsimp only
  rw [toInt64?_eq_none hover]

theorem append {delta : Int64} {cell : Cell}
    (hfits : FitsWord (exactSum deltas + delta.toInt)) (httl : cell.ttl = none)
    (hvalue : cell.value = Bytes.ofInt64 (Int64.ofInt (exactSum deltas + delta.toInt))) :
    Counted (some cell) (deltas ++ [delta]) where
  absent hnil := by simp at hnil
  sum _ := by
    refine ⟨cell, _, rfl, httl, hvalue, ?_⟩
    rw [Int64.toInt_ofInt_of_le hfits.1 hfits.2]
    simp [exactSum]

end Counted

section Increment

variable {now : Timestamp} {target : TableName} {rowkey name : Bytes} {delta : Int64}
  {level : Consistency}

theorem TableStore.perform_increment_of_ok {store : TableStore} {value : Bytes}
    (hcheck : store.check target level false = .ok ())
    (hvalue : addToCounter name (store.counter? now target rowkey name) delta = .ok value) :
    Store.perform store now (.increment target rowkey name delta level) =
      (.ok .done, { store with
        cells := replace ⟨target, rowkey, name, value, now, none⟩ store.cells }) := by
  have hexec := exec_increment store now target rowkey name delta level
  rw [hcheck, hvalue] at hexec
  exact congrArg (fun run => (run.1.map fun _ => Store.Reply.done, run.2)) hexec

theorem TableStore.perform_increment_of_error {store : TableStore} {error : Error}
    (hcheck : store.check target level false = .ok ())
    (hvalue : addToCounter name (store.counter? now target rowkey name) delta = .error error) :
    Store.perform store now (.increment target rowkey name delta level) =
      (.error error, store) := by
  have hexec := exec_increment store now target rowkey name delta level
  rw [hcheck, hvalue] at hexec
  exact congrArg (fun run => (run.1.map fun _ => Store.Reply.done, run.2)) hexec

namespace Storage

variable {storage : Storage} {deltas : List Int64}

/-- An increment of a counter whose new sum is a word. -/
theorem perform_increment_of_fits (hkeyed : TableStore.Keyed storage.contents.cells)
    (hcheck : storage.contents.check target level false = .ok ())
    (hcounted : Counted (storage.cell? target rowkey name) deltas)
    (hfits : FitsWord (exactSum deltas + delta.toInt)) :
    (Store.perform storage now (.increment target rowkey name delta level)).1 = .ok .done ∧
      Counted ((Store.perform storage now (.increment target rowkey name delta level)).2.cell?
        target rowkey name) (deltas ++ [delta]) := by
  have hperform := TableStore.perform_increment_of_ok hcheck
    (hcounted.addToCounter_of_fits now name hfits)
  obtain ⟨hreply, hafter⟩ :=
    perform_contents storage now (.increment target rowkey name delta level)
  rw [hperform] at hreply hafter
  refine ⟨hreply, ?_⟩
  let row : CellRow := ⟨target, rowkey, name,
    Bytes.ofInt64 (Int64.ofInt (exactSum deltas + delta.toInt)), now, none⟩
  have hself : TableStore.cellIn (TableStore.replace row storage.contents.cells) row.target
      row.rowkey row.cell.name = some row.cell := TableStore.cellIn_replace_self hkeyed
  have hcell := (hafter.cell? target rowkey name).trans hself
  rw [hcell]
  exact .append hfits rfl rfl

/-- An increment of a counter whose new sum is too large or too small. -/
theorem perform_increment_of_not_fits
    (hcheck : storage.contents.check target level false = .ok ())
    (hcounted : Counted (storage.cell? target rowkey name) deltas)
    (hover : ¬ FitsWord (exactSum deltas + delta.toInt)) :
    (Store.perform storage now (.increment target rowkey name delta level)).1 =
        .error (.store .counterOverflow) ∧
      (Store.perform storage now (.increment target rowkey name delta level)).2.cell?
        target rowkey name = storage.cell? target rowkey name := by
  have hperform := TableStore.perform_increment_of_error hcheck
    (hcounted.addToCounter_of_not_fits now name hover)
  obtain ⟨hreply, hafter⟩ :=
    perform_contents storage now (.increment target rowkey name delta level)
  rw [hperform] at hreply hafter
  exact ⟨hreply, hafter.cell? target rowkey name⟩

end Storage

end Increment

/-! ## Sequences of calls -/

theorem Store.Call.delta?_increment_self {target : TableName} {rowkey name : Bytes}
    {delta : Int64} {level : Consistency} :
    (increment target rowkey name delta level).delta? target rowkey name = some delta := by
  simp [delta?]

theorem Store.Call.delta?_eq_none {target : TableName} {rowkey name : Bytes} {call : Store.Call}
    (hother : ¬ call.Changes target rowkey name) : call.delta? target rowkey name = none := by
  cases call with
  | increment other key column delta level => exact if_neg hother
  | _ => rfl

namespace Storage

variable {storage : Storage} {target : TableName} {rowkey name : Bytes} {deltas : List Int64}
  {calls : List (Timestamp × Store.Call)}

theorem check_perform {level : Consistency} {reading : Bool}
    (hcheck : storage.contents.check target level reading = .ok ()) (now : Timestamp)
    (call : Store.Call) :
    (Store.perform storage now call).2.contents.check target level reading = .ok () := by
  rw [(perform_contents storage now call).2.check]
  exact (TableStore.knows_perform storage.contents now call).check hcheck

theorem check_performed {level : Consistency} {reading : Bool}
    (hcheck : storage.contents.check target level reading = .ok ()) :
    (Store.performed storage calls).contents.check target level reading = .ok () := by
  induction calls generalizing storage with
  | nil => exact hcheck
  | cons call rest ih => exact ih (check_perform hcheck call.1 call.2)

theorem keyed_performed (hkeyed : TableStore.Keyed storage.contents.cells) :
    TableStore.Keyed (Store.performed storage calls).contents.cells := by
  induction calls generalizing storage with
  | nil => exact hkeyed
  | cons call rest ih => exact ih (keyed_perform hkeyed call.1 call.2)

/-- The column changes by increments only, and they are allowed. -/
def OnlyCounts (storage : Storage) (target : TableName) (rowkey name : Bytes)
    (call : Store.Call) : Prop :=
  call.Changes target rowkey name → ∃ delta level,
    call = .increment target rowkey name delta level ∧
      storage.contents.check target level false = .ok ()

theorem OnlyCounts.perform {call : Store.Call}
    (hcall : storage.OnlyCounts target rowkey name call) (now : Timestamp) (earlier : Store.Call) :
    (Store.perform storage now earlier).2.OnlyCounts target rowkey name call := by
  intro hchanges
  obtain ⟨delta, level, hincrement, hcheck⟩ := hcall hchanges
  exact ⟨delta, level, hincrement, check_perform hcheck now earlier⟩

/-- One call more. -/
theorem counted_perform (hkeyed : TableStore.Keyed storage.contents.cells)
    (hcounted : Counted (storage.cell? target rowkey name) deltas) (now : Timestamp)
    {call : Store.Call} (hcall : storage.OnlyCounts target rowkey name call) :
    Counted ((Store.perform storage now call).2.cell? target rowkey name)
      (deltas ++ (Store.addition target rowkey name storage now call).toList) := by
  by_cases hchanges : call.Changes target rowkey name
  · obtain ⟨delta, level, rfl, hcheck⟩ := hcall hchanges
    by_cases hfits : FitsWord (exactSum deltas + delta.toInt)
    · obtain ⟨hreply, hafter⟩ := perform_increment_of_fits hkeyed hcheck hcounted hfits
      rw [Store.addition, Store.Call.delta?_increment_self, hreply]
      exact hafter
    · obtain ⟨hreply, hafter⟩ := perform_increment_of_not_fits hcheck hcounted hfits
      rw [Store.addition, Store.Call.delta?_increment_self, hreply, hafter,
        Option.filter_some_neg (by decide)]
      simpa using hcounted
  · have hafter : (Store.perform storage now call).2.cell? target rowkey name =
        storage.cell? target rowkey name :=
      ((perform_contents storage now call).2.cell? target rowkey name).trans
        (TableStore.find?_perform_of_not_changes hchanges)
    rw [Store.addition, Store.Call.delta?_eq_none hchanges, hafter]
    simpa using hcounted

theorem counted_performed (hkeyed : TableStore.Keyed storage.contents.cells)
    (hcounted : Counted (storage.cell? target rowkey name) deltas)
    (hcalls : ∀ call ∈ calls, storage.OnlyCounts target rowkey name call.2) :
    Counted ((Store.performed storage calls).cell? target rowkey name)
      (deltas ++ Store.added target rowkey name storage calls) := by
  induction calls generalizing storage deltas with
  | nil => simpa [Store.performed, Store.added] using hcounted
  | cons call rest ih =>
      have hnext := counted_perform hkeyed hcounted call.1 (hcalls call List.mem_cons_self)
      have hrest : ∀ later ∈ rest, (Store.perform storage call.1 call.2).2.OnlyCounts target rowkey
          name later.2 :=
        fun later hlater => (hcalls later (List.mem_cons_of_mem _ hlater)).perform call.1 call.2
      have hafter := ih (keyed_perform hkeyed call.1 call.2) hnext hrest
      rw [List.append_assoc] at hafter
      exact hafter

/-- Let a column be absent at first and changed by nothing but increments, which are
allowed, while calls do whatever they like with other columns, tables and keyspaces.
After the calls it is absent if no increment of it has succeeded, and else holds the
exact sum of what the successful ones added. The next increment of it fails if and
only if the sum would not be a word, and then the column stays as it is. -/
theorem counted_of_performed (hkeyed : TableStore.Keyed storage.contents.cells)
    (habsent : storage.cell? target rowkey name = none)
    (hcalls : ∀ call ∈ calls, storage.OnlyCounts target rowkey name call.2) :
    let after := Store.performed storage calls
    let deltas := Store.added target rowkey name storage calls
    Counted (after.cell? target rowkey name) deltas ∧
      ∀ now delta level, storage.contents.check target level false = .ok () →
        let next := Store.perform after now (.increment target rowkey name delta level)
        ((∃ error, next.1 = .error error) ↔ ¬ FitsWord (exactSum deltas + delta.toInt)) ∧
          ((∃ error, next.1 = .error error) →
            next.2.cell? target rowkey name = after.cell? target rowkey name) := by
  intro after deltas
  have hstart : Counted (storage.cell? target rowkey name) [] := by
    rw [habsent]
    exact .empty
  have hcounted : Counted (after.cell? target rowkey name) deltas :=
    counted_performed hkeyed hstart hcalls
  refine ⟨hcounted, fun now delta level hcheck => ?_⟩
  intro next
  have hcheck : after.contents.check target level false = .ok () := check_performed hcheck
  by_cases hfits : FitsWord (exactSum deltas + delta.toInt)
  · have hreply : next.1 = .ok .done :=
      (perform_increment_of_fits (keyed_performed hkeyed) hcheck hcounted hfits).1
    simp [hreply, hfits]
  · obtain ⟨hreply, hafter⟩ := perform_increment_of_not_fits hcheck hcounted hfits
    exact ⟨⟨fun _ => hfits, fun _ => ⟨_, hreply⟩⟩, fun _ => hafter⟩

/-- A column counts up and down while another is written; what would not fit any more
is refused. -/
theorem counted_of_performed_refused :
    let target : TableName := ⟨"ks", "t"⟩
    let storage : Storage := .tables { keyspaces := [⟨"ks", 1⟩], tables := [target] }
    let calls : List (Timestamp × Store.Call) :=
      [(5, .increment target [1] [2] 7 .one), (6, .write ⟨target, [1], ⟨[3], [4], 9, none⟩⟩ .one),
        (7, .increment target [1] [2] Int64.maxValue .one),
        (4, .increment target [1] [2] (-9) .quorum)]
    Counted ((Store.performed storage calls).cell? target [1] [2]) [7, -9] ∧
      ∃ error, (Store.perform (Store.performed storage calls) 0
        (.increment target [1] [2] Int64.minValue .one)).1 = .error error := by
  intro target storage calls
  have hcheck (level : Consistency) (hlevel : level = .one ∨ level = .quorum) :
      storage.contents.check target level false = .ok () := by
    rcases hlevel with rfl | rfl <;> rfl
  have hcalls : ∀ call ∈ calls, storage.OnlyCounts target [1] [2] call.2 := by
    intro call hcall hchanges
    simp only [calls, List.mem_cons, List.not_mem_nil, or_false] at hcall
    rcases hcall with rfl | rfl | rfl | rfl
    · exact ⟨7, .one, rfl, hcheck .one (.inl rfl)⟩
    · simp [Store.Call.Changes] at hchanges
    · exact ⟨_, .one, rfl, hcheck .one (.inl rfl)⟩
    · exact ⟨-9, .quorum, rfl, hcheck .quorum (.inr rfl)⟩
  have hdeltas : Store.added target [1] [2] storage calls = [7, -9] := by decide
  have hkeyed : TableStore.Keyed storage.contents.cells := .nil
  have habsent : storage.cell? target [1] [2] = none := rfl
  obtain ⟨hcounted, hnext⟩ := counted_of_performed hkeyed habsent hcalls
  rw [hdeltas] at hcounted hnext
  refine ⟨hcounted, (hnext 0 Int64.minValue .one (hcheck .one (.inl rfl))).1.mpr ?_⟩
  rw [FitsWord]
  decide

end Storage

end OperationChain
