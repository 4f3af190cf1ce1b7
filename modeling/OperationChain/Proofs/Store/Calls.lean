import OperationChain.Proofs.Store.LastWrite

/-! # What calls leave alone

A call changes the columns that it writes and no others, and no call makes a store
forget a keyspace or a table, so that a check that passes goes on to pass. What holds
of calls on flat tables holds of a store of either form, by way of its contents.
-/

namespace OperationChain

/-! ## What a call can change -/

/-- Whether a call can change a column. -/
def Store.Call.Changes (target : TableName) (rowkey name : Bytes) : Store.Call → Prop
  | .write mutation _ =>
    mutation.target = target ∧ mutation.rowkey = rowkey ∧ mutation.cell.name = name
  | .batchWrite mutations _ => ∃ mutation ∈ mutations,
    mutation.target = target ∧ mutation.rowkey = rowkey ∧ mutation.cell.name = name
  | .increment other key column _ _ => other = target ∧ key = rowkey ∧ column = name
  | _ => False

/-- The store knows every keyspace and table that the other knows. -/
structure TableStore.Knows (after store : TableStore) : Prop where
  nodes : after.nodes = store.nodes
  keyspaces : store.keyspaces <+: after.keyspaces
  tables : store.tables ⊆ after.tables

namespace TableStore

variable {store after : TableStore} {target : TableName} {rowkey name : Bytes}

theorem Knows.refl (store : TableStore) : store.Knows store where
  nodes := rfl
  keyspaces := List.prefix_rfl
  tables := List.Subset.refl _

/-- A check that passes goes on to pass. -/
theorem Knows.check {level : Consistency} {reading : Bool} (hknows : after.Knows store)
    (hcheck : store.check target level reading = .ok ()) :
    after.check target level reading = .ok () := by
  obtain ⟨replication, hreplication, hlevel⟩ := Except.bind_eq_ok_iff.mp hcheck
  refine Except.bind_eq_ok_iff.mpr ⟨replication, ?_, by rw [hknows.nodes]; exact hlevel⟩
  have htable := hknows.tables (mem_of_check hcheck)
  obtain ⟨added, hadded⟩ := hknows.keyspaces
  unfold TableStore.replication at hreplication ⊢
  split at hreplication
  · cases hreplication
  next row hrow =>
    split at hreplication
    · rw [← hadded, List.find?_append, hrow, Option.some_or]
      exact (if_pos (by simpa using htable)).trans hreplication
    · cases hreplication

theorem foldl_written (store : TableStore) (mutations : List Mutation) :
    mutations.foldl written store =
      { store with cells := (mutations.foldl written store).cells } := by
  induction mutations generalizing store with
  | nil => rfl
  | cons mutation rest ih =>
      rw [List.foldl_cons, ih]
      rfl

theorem knows_batchWrite (store : TableStore) (mutations : List Mutation) (level : Consistency) :
    ((batchWrite mutations level).exec store).2.Knows store := by
  rw [exec_batchWrite]
  split
  · exact .refl store
  · rw [foldl_written]
    exact ⟨rfl, List.prefix_rfl, List.Subset.refl _⟩

/-- No call makes a store forget a keyspace or a table. -/
theorem knows_perform (store : TableStore) (now : Timestamp) (call : Store.Call) :
    (Store.perform store now call).2.Knows store := by
  cases call with
  | read target rowkey names level => exact .refl store
  | readSlice target rowkey range level => exact .refl store
  | write mutation level => exact knows_batchWrite store [mutation] level
  | batchWrite mutations level => exact knows_batchWrite store mutations level
  | increment target rowkey name delta level =>
      change ((increment now target rowkey name delta level).exec store).2.Knows store
      rw [exec_increment]
      split
      · exact .refl store
      · split
        · exact .refl store
        · exact ⟨rfl, List.prefix_rfl, List.Subset.refl _⟩
  | createKeyspace name replication =>
      change ((createKeyspace name replication).exec store).2.Knows store
      rw [exec_createKeyspace]
      split
      · exact .refl store
      · split
        · exact .refl store
        · exact ⟨rfl, List.prefix_append _ _, List.Subset.refl _⟩
  | createTable target =>
      change ((createTable target).exec store).2.Knows store
      rw [exec_createTable]
      split
      · split
        · exact .refl store
        · exact ⟨rfl, List.prefix_rfl, List.subset_append_left _ _⟩
      · exact .refl store
  | listKeyspaces => exact .refl store
  | listTables keyspace => exact .refl store
  | query keyspace statement version level => exact .refl store

theorem find?_foldl_written {mutations : List Mutation}
    (hother : ¬ ∃ mutation ∈ mutations, mutation.target = target ∧ mutation.rowkey = rowkey ∧
      mutation.cell.name = name) :
    (mutations.foldl written store).find? target rowkey name =
      store.find? target rowkey name := by
  induction mutations generalizing store with
  | nil => rfl
  | cons mutation rest ih =>
      have hrest : ¬ ∃ later ∈ rest, later.target = target ∧ later.rowkey = rowkey ∧
          later.cell.name = name :=
        fun ⟨later, hlater, hsame⟩ => hother ⟨later, List.mem_cons_of_mem _ hlater, hsame⟩
      rw [List.foldl_cons, ih hrest]
      exact cellIn_upsert_of_ne fun hsame => hother ⟨mutation, List.mem_cons_self, hsame⟩

theorem find?_batchWrite {mutations : List Mutation} {level : Consistency}
    (hother : ¬ ∃ mutation ∈ mutations, mutation.target = target ∧ mutation.rowkey = rowkey ∧
      mutation.cell.name = name) :
    ((batchWrite mutations level).exec store).2.find? target rowkey name =
      store.find? target rowkey name := by
  rw [exec_batchWrite]
  split
  · rfl
  · exact find?_foldl_written hother

/-- A call leaves alone the columns that it cannot change. -/
theorem find?_perform_of_not_changes {now : Timestamp} {call : Store.Call}
    (hother : ¬ call.Changes target rowkey name) :
    (Store.perform store now call).2.find? target rowkey name =
      store.find? target rowkey name := by
  cases call with
  | read target rowkey names level => rfl
  | readSlice target rowkey range level => rfl
  | write mutation level =>
      have hother : ¬ ∃ other ∈ [mutation], other.target = target ∧ other.rowkey = rowkey ∧
          other.cell.name = name := by
        simpa [Store.Call.Changes] using hother
      exact find?_batchWrite hother
  | batchWrite mutations level => exact find?_batchWrite hother
  | increment other key column delta level =>
      change ((increment now other key column delta level).exec store).2.find? _ _ _ = _
      rw [exec_increment]
      split
      · rfl
      · split
        · rfl
        · exact cellIn_replace_of_ne hother
  | createKeyspace name replication =>
      change ((createKeyspace name replication).exec store).2.find? _ _ _ = _
      rw [exec_createKeyspace]
      split
      · rfl
      · split <;> rfl
  | createTable target =>
      change ((createTable target).exec store).2.find? _ _ _ = _
      rw [exec_createTable]
      split
      · split <;> rfl
      · rfl
  | listKeyspaces => rfl
  | listTables keyspace => rfl
  | query keyspace statement version level => rfl

end TableStore

/-! ## Calls on a store of either form -/

namespace Storage

variable {storage : Storage} {target : TableName} {rowkey name : Bytes}

/-- A call on a store of one form is the call on what it wraps. -/
theorem perform_form {σ : Type} [Store σ] {form : σ → Storage}
    (hask : ∀ {α : Type} (question : {σ : Type} → [Store σ] → σ → Except Error α) (store : σ),
      (form store).ask question = question store)
    (hupdate : ∀ (update : {σ : Type} → [Store σ] → Update σ Unit) (store : σ),
      (Storage.update update).exec (form store) =
        ((update.exec store).1, form (update.exec store).2))
    (store : σ) (now : Timestamp) (call : Store.Call) :
    Store.perform (form store) now call =
      ((Store.perform store now call).1, form (Store.perform store now call).2) := by
  have hperform (update : {σ : Type} → [Store σ] → Update σ Unit) :
      Store.performUpdate (form store) (Storage.update update) =
        ((Store.performUpdate store update).1, form (Store.performUpdate store update).2) := by
    rw [Store.performUpdate, hupdate]
    rfl
  have hreply {α : Type} (question : {σ : Type} → [Store σ] → σ → Except Error α)
      (answer : α → Store.Reply) :
      (((form store).ask question).map answer, form store) =
        ((question store).map answer, form store) := by
    rw [hask]
  cases call with
  | read target rowkey names level =>
      exact hreply (fun store => Store.read store now target rowkey names level) .cells
  | readSlice target rowkey range level =>
      exact hreply (fun store => Store.readSlice store now target rowkey range level) .cells
  | write mutation level => exact hperform (Store.batchWrite [mutation] level)
  | batchWrite mutations level => exact hperform (Store.batchWrite mutations level)
  | increment target rowkey name delta level =>
      exact hperform (Store.increment now target rowkey name delta level)
  | createKeyspace name replication => exact hperform (Store.createKeyspace name replication)
  | createTable target => exact hperform (Store.createTable target)
  | listKeyspaces => exact hreply (fun store => Store.listKeyspaces store) .names
  | listTables keyspace => exact hreply (fun store => Store.listTables store keyspace) .names
  | query keyspace statement version level =>
      exact hreply (fun store => Store.query store now keyspace statement version level) .cells

theorem perform_nested (store : NestedStore) (now : Timestamp) (call : Store.Call) :
    Store.perform (nested store) now call =
      ((Store.perform store now call).1, nested (Store.perform store now call).2) :=
  perform_form (fun _ _ => rfl) exec_update_nested store now call

theorem perform_tables (store : TableStore) (now : Timestamp) (call : Store.Call) :
    Store.perform (tables store) now call =
      ((Store.perform store now call).1, tables (Store.perform store now call).2) :=
  perform_form (fun _ _ => rfl) exec_update_tables store now call

/-- What a call replies, what columns hold after it and which checks pass then are the
same on the contents. -/
structure SameOn (after : Storage) (tables : TableStore) : Prop where
  cell? : ∀ target rowkey name, after.cell? target rowkey name = tables.find? target rowkey name
  check : ∀ target level reading,
    after.contents.check target level reading = tables.check target level reading

theorem perform_contents (storage : Storage) (now : Timestamp) (call : Store.Call) :
    (Store.perform storage now call).1 = (Store.perform storage.contents now call).1 ∧
      SameOn (Store.perform storage now call).2 (Store.perform storage.contents now call).2 := by
  cases storage with
  | nested store =>
      obtain ⟨hreply, hafter⟩ := store.mirrors_contents.perform now call
      rw [perform_nested]
      refine ⟨hreply, fun target rowkey name => ?_, fun target level reading => ?_⟩
      · rw [cell?_nested, TableStore.find?_eq]
        exact (hafter.cells target rowkey name).symm
      · have hmirrors := (Store.perform store now call).2.mirrors_contents
        exact (hmirrors.check_eq target level reading).trans
          (hafter.check_eq target level reading).symm
  | tables store =>
      rw [perform_tables]
      exact ⟨rfl, fun _ _ _ => rfl, fun _ _ _ => rfl⟩

end Storage

end OperationChain
