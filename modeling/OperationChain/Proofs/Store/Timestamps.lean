import OperationChain.Proofs.Store.Counters

/-! # The timestamps of columns

No call takes a column out of a store, and the timestamp of its cell goes back at one
kind of call only. An increment stamps what the clock says, also over a cell that is
dated ahead of the clock, where a write of the same cell would have lost.
-/

namespace OperationChain

/-! ## Cells that are no older -/

/-- What a column holds later is there if it was there before, and no older. -/
def Cell.Forward (held later : Option Cell) : Prop :=
  ∀ cell, held = some cell → ∃ next, later = some next ∧ cell.timestamp ≤ next.timestamp

namespace Cell.Forward

variable {held between later : Option Cell}

theorem refl (held : Option Cell) : Forward held held :=
  fun cell hcell => ⟨cell, hcell, Int64.le_refl _⟩

theorem trans (hfirst : Forward held between) (hsecond : Forward between later) :
    Forward held later := by
  intro cell hcell
  obtain ⟨next, hnext, hle⟩ := hfirst cell hcell
  obtain ⟨last, hlast, hle'⟩ := hsecond next hnext
  exact ⟨last, hlast, Int64.le_trans hle hle'⟩

/-- The last write wins only where it is at least as new. -/
theorem writtenOver (held : Option Cell) (cells : List Cell) :
    Forward held (Cell.writtenOver held cells) := by
  rintro cell rfl
  have hsome : (Cell.writtenOver (some cell) cells).isSome :=
    isSome_writtenOver.mpr (by simp)
  obtain ⟨next, hnext⟩ := Option.isSome_iff_exists.mp hsome
  exact ⟨next, hnext, (isNewest_of_writtenOver hnext).timestamp_le (by simp)⟩

/-- A cell that is put in place of another without regard to its timestamp. -/
theorem some_iff {next : Cell} :
    Forward held (some next) ↔ ¬ ∃ cell, held = some cell ∧ next.timestamp < cell.timestamp := by
  constructor
  · rintro hforward ⟨cell, hcell, hlt⟩
    obtain ⟨found, hfound, hle⟩ := hforward cell hcell
    cases hfound
    exact Int64.not_lt.mpr hle hlt
  · intro hnot cell hcell
    exact ⟨next, rfl, Int64.not_lt.mp fun hlt => hnot ⟨cell, hcell, hlt⟩⟩

end Cell.Forward

/-! ## One call -/

namespace Storage

variable {storage : Storage} {target : TableName} {rowkey name : Bytes}

/-- The call is an increment of the column, and it succeeds by a clock that is behind
the timestamp of the cell that is there. -/
def TurnsBack (storage : Storage) (target : TableName) (rowkey name : Bytes) (now : Timestamp)
    (call : Store.Call) : Prop :=
  ∃ delta level, call = .increment target rowkey name delta level ∧
    (Store.perform storage now call).1 = .ok .done ∧
    ∃ cell, storage.cell? target rowkey name = some cell ∧ now < cell.timestamp

/-- A batch of writes, be it done or refused. -/
theorem forward_batchWrite (now : Timestamp) (mutations : List Mutation) (level : Consistency) :
    Cell.Forward (storage.cell? target rowkey name)
      ((Store.perform storage now (.batchWrite mutations level)).2.cell? target rowkey name) := by
  rw [Store.perform, Store.performUpdate, exec_batchWrite]
  cases hcheck : storage.contents.checkAll level mutations with
  | error error => exact .refl _
  | ok _ =>
      have hknown : ∀ mutation ∈ mutations, mutation.target ∈ storage.contents.tables :=
        fun mutation hmutation => TableStore.mem_of_check
          (TableStore.checkAll_eq_ok_iff.mp hcheck mutation hmutation)
      change Cell.Forward _ ((mutations.foldl applied storage).cell? target rowkey name)
      rw [cell?_foldl_applied hknown]
      exact .writtenOver _ _

/-- An increment is refused, or what the column holds then has been stamped by the
clock. -/
theorem perform_increment_cases (hkeyed : TableStore.Keyed storage.contents.cells)
    (now : Timestamp) (delta : Int64) (level : Consistency) :
    let after := Store.perform storage now (.increment target rowkey name delta level)
    (after.1 ≠ .ok .done ∧ after.2.cell? target rowkey name = storage.cell? target rowkey name) ∨
      (after.1 = .ok .done ∧
        ∃ value, after.2.cell? target rowkey name = some ⟨name, value, now, none⟩) := by
  intro after
  obtain ⟨hreply, hafter⟩ :=
    perform_contents storage now (.increment target rowkey name delta level)
  have hcell : after.2.cell? target rowkey name = _ := hafter.cell? target rowkey name
  cases hcheck : storage.contents.check target level false with
  | error error =>
      have hexec := TableStore.exec_increment storage.contents now target rowkey name delta level
      rw [hcheck] at hexec
      have hperform : Store.perform storage.contents now
          (.increment target rowkey name delta level) = (.error error, storage.contents) :=
        congrArg (fun run => (run.1.map fun _ => Store.Reply.done, run.2)) hexec
      rw [hperform] at hreply hcell
      exact .inl ⟨by simp [after, hreply], hcell⟩
  | ok _ =>
      cases hvalue : addToCounter name (storage.contents.counter? now target rowkey name) delta with
      | error error =>
          rw [TableStore.perform_increment_of_error hcheck hvalue] at hreply hcell
          exact .inl ⟨by simp [after, hreply], hcell⟩
      | ok value =>
          rw [TableStore.perform_increment_of_ok hcheck hvalue] at hreply hcell
          let row : CellRow := ⟨target, rowkey, name, value, now, none⟩
          have hself : TableStore.cellIn (TableStore.replace row storage.contents.cells) row.target
              row.rowkey row.cell.name = some row.cell := TableStore.cellIn_replace_self hkeyed
          exact .inr ⟨hreply, value, hcell.trans hself⟩

/-- A call turns the timestamp of a column back exactly where it is an increment by a
clock that is behind. -/
theorem forward_perform_iff (hkeyed : TableStore.Keyed storage.contents.cells) {now : Timestamp}
    {call : Store.Call} :
    Cell.Forward (storage.cell? target rowkey name)
        ((Store.perform storage now call).2.cell? target rowkey name) ↔
      ¬ storage.TurnsBack target rowkey name now call := by
  by_cases hchanges : call.Changes target rowkey name
  · cases call with
    | write mutation level =>
        refine iff_of_true (forward_batchWrite now [mutation] level) ?_
        rintro ⟨_, _, hcall, _⟩
        cases hcall
    | batchWrite mutations level =>
        refine iff_of_true (forward_batchWrite now mutations level) ?_
        rintro ⟨_, _, hcall, _⟩
        cases hcall
    | increment other key column delta level =>
        obtain ⟨rfl, rfl, rfl⟩ := hchanges
        rcases perform_increment_cases hkeyed now delta level with
          ⟨hrefused, hcell⟩ | ⟨hdone, value, hcell⟩
        · rw [hcell]
          refine iff_of_true (.refl _) ?_
          rintro ⟨_, _, _, hdone, _⟩
          exact hrefused hdone
        · rw [hcell, Cell.Forward.some_iff]
          refine not_congr ⟨fun hahead => ⟨delta, level, rfl, hdone, hahead⟩, ?_⟩
          rintro ⟨_, _, _, _, hahead⟩
          exact hahead
    | _ => cases hchanges
  · have hcell : (Store.perform storage now call).2.cell? target rowkey name =
        storage.cell? target rowkey name :=
      ((perform_contents storage now call).2.cell? target rowkey name).trans
        (TableStore.find?_perform_of_not_changes hchanges)
    rw [hcell]
    refine iff_of_true (.refl _) ?_
    rintro ⟨_, _, rfl, _⟩
    exact hchanges ⟨rfl, rfl, rfl⟩

/-! ## Sequences of calls -/

/-- None of the calls turns the timestamp of a column back. -/
def Steady (storage : Storage) (target : TableName) (rowkey name : Bytes) :
    List (Timestamp × Store.Call) → Prop
  | [] => True
  | (now, call) :: rest =>
    ¬ storage.TurnsBack target rowkey name now call ∧
      (Store.perform storage now call).2.Steady target rowkey name rest

theorem forward_performed {calls : List (Timestamp × Store.Call)}
    (hkeyed : TableStore.Keyed storage.contents.cells)
    (hsteady : storage.Steady target rowkey name calls) :
    Cell.Forward (storage.cell? target rowkey name)
      ((Store.performed storage calls).cell? target rowkey name) := by
  induction calls generalizing storage with
  | nil => exact .refl _
  | cons call rest ih =>
      have hfirst := (forward_perform_iff hkeyed).mpr hsteady.1
      exact hfirst.trans (ih (keyed_perform hkeyed call.1 call.2) hsteady.2)

theorem keyed_empty (mode : StorageMode) (nodes : UInt32) :
    TableStore.Keyed (empty mode nodes).contents.cells := by
  cases mode with
  | nested => exact NestedStore.keyed_contents _
  | tables => exact .nil

/-- Whatever calls have been made of a store, one call more leaves what a column holds
there and no older, unless it is an increment of the column by a clock that is behind
the timestamp there, which then becomes what the clock says. Over calls none of which
is such an increment, the timestamp never goes back. -/
theorem forward_of_performed (mode : StorageMode) (nodes : UInt32)
    (earlier calls : List (Timestamp × Store.Call)) (target : TableName) (rowkey name : Bytes) :
    let storage := Store.performed (Storage.empty mode nodes) earlier
    (∀ now call,
      let after := (Store.perform storage now call).2
      (Cell.Forward (storage.cell? target rowkey name) (after.cell? target rowkey name) ↔
          ¬ storage.TurnsBack target rowkey name now call) ∧
        (storage.TurnsBack target rowkey name now call →
          ∃ next, after.cell? target rowkey name = some next ∧ next.timestamp = now)) ∧
      (storage.Steady target rowkey name calls →
        Cell.Forward (storage.cell? target rowkey name)
          ((Store.performed storage calls).cell? target rowkey name)) := by
  intro storage
  have hkeyed : TableStore.Keyed storage.contents.cells := keyed_performed (keyed_empty mode nodes)
  refine ⟨fun now call => ⟨forward_perform_iff hkeyed, ?_⟩, forward_performed hkeyed⟩
  rintro ⟨delta, level, rfl, hdone, _⟩
  rcases perform_increment_cases hkeyed now delta level with ⟨hrefused, _⟩ | ⟨_, value, hcell⟩
  · exact absurd hdone hrefused
  · exact ⟨_, hcell, rfl⟩

/-- A column counts, is written from ahead of the clock, and counts on when the clock has
caught up; what happens to another column in between is of no account. -/
theorem forward_of_performed_caught_up :
    let target : TableName := ⟨"ks", "t"⟩
    let earlier : List (Timestamp × Store.Call) :=
      [(0, .createKeyspace "ks" 1), (0, .createTable target),
        (5, .increment target [1] [2] 7 .one)]
    let calls : List (Timestamp × Store.Call) :=
      [(6, .write ⟨target, [1], ⟨[2], [0, 0, 0, 0, 0, 0, 0, 8], 9, none⟩⟩ .one),
        (7, .increment target [1] [3] 1 .one), (9, .increment target [1] [2] 1 .one)]
    let storage := Store.performed (Storage.empty .nested 1) earlier
    storage.Steady target [1] [2] calls ∧
      Cell.Forward (storage.cell? target [1] [2])
        ((Store.performed storage calls).cell? target [1] [2]) := by
  intro target earlier calls storage
  have hheld : (Store.performed storage (calls.take 2)).cell? target [1] [2] =
      some ⟨[2], [0, 0, 0, 0, 0, 0, 0, 8], 9, none⟩ := by decide +zetaReduce
  have hsteady : storage.Steady target [1] [2] calls := by
    refine ⟨?_, ?_, ?_, trivial⟩
    · rintro ⟨_, _, hcall, _⟩
      cases hcall
    · rintro ⟨_, _, hcall, _⟩
      cases hcall
    · rintro ⟨_, _, _, _, cell, hcell, hahead⟩
      cases hheld.symm.trans hcell
      exact absurd hahead (by decide)
  exact ⟨hsteady, (forward_of_performed .nested 1 earlier calls target [1] [2]).2 hsteady⟩

/-- A counter that adds nothing to a cell from ahead of the clock takes its timestamp
back, in a store of either form. -/
theorem not_forward_of_performed :
    let target : TableName := ⟨"ks", "t"⟩
    let earlier : List (Timestamp × Store.Call) :=
      [(0, .createKeyspace "ks" 1), (0, .createTable target),
        (6, .write ⟨target, [1], ⟨[2], [0, 0, 0, 0, 0, 0, 0, 8], 9, none⟩⟩ .one)]
    let held (mode : StorageMode) := Store.performed (Storage.empty mode 1) earlier
    let later (mode : StorageMode) :=
      (Store.perform (held mode) 7 (.increment target [1] [2] 0 .one)).2
    ¬ Cell.Forward ((held .nested).cell? target [1] [2]) ((later .nested).cell? target [1] [2]) ∧
      ¬ Cell.Forward ((held .tables).cell? target [1] [2])
        ((later .tables).cell? target [1] [2]) := by
  intro target earlier held later
  have hturned (mode : StorageMode)
      (hheld : (held mode).cell? target [1] [2] =
        some ⟨[2], [0, 0, 0, 0, 0, 0, 0, 8], 9, none⟩)
      (hlater : (later mode).cell? target [1] [2] =
        some ⟨[2], [0, 0, 0, 0, 0, 0, 0, 8], 7, none⟩) :
      ¬ Cell.Forward ((held mode).cell? target [1] [2]) ((later mode).cell? target [1] [2]) := by
    intro hforward
    obtain ⟨next, hnext, hle⟩ := hforward _ hheld
    cases hlater.symm.trans hnext
    exact absurd hle (by decide)
  exact ⟨hturned .nested (by decide +zetaReduce) (by decide +zetaReduce),
    hturned .tables (by decide +zetaReduce) (by decide +zetaReduce)⟩

end Storage

end OperationChain
