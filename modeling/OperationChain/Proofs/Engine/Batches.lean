import Mathlib.Data.List.Forall2
import OperationChain.Proofs.Engine.Copies
import OperationChain.Proofs.Engine.References

/-! # Batches

A batch writes its rows as a chain of `set` operations would, one for each row under the
settings of the batch, but all of them or none. Both name their columns by rules of their
own, which agree wherever a row says what it says in the form that is asked for.
-/

namespace OperationChain

/-! ## Rows of a batch -/

namespace BatchRow

variable {fields : List (String × Value)} {key : String} {value : Value}

/-- The name under a key, if it is a text. -/
def name? (fields : List (String × Value)) (key : String) : Option String :=
  (field? fields key).bind Value.text?

/-- The table that a row names, under either of its two keys. -/
def table? (fields : List (String × Value)) : Option String :=
  (name? fields "table").or (name? fields "columnfamily")

/-- The row has a whole number as its timestamp, and as its time to live if it has one. -/
structure Dated (fields : List (String × Value)) : Prop where
  timestamp : ∃ timestamp, Entries.find? "timestamp" fields = some (.int timestamp)
  ttl : ∀ value ∈ Entries.find? "ttl" fields, value = .null ∨ ∃ seconds, value = .int seconds

/-- Whatever the row names its keyspace and its table by is a text. -/
def Named (fields : List (String × Value)) : Prop :=
  ∀ key ∈ ["keyspace", "table", "columnfamily"], ∀ value ∈ field? fields key,
    ∃ name, value = .text name

theorem field?_eq_some_iff :
    field? fields key = some value ↔ Entries.find? key fields = some value ∧ value ≠ .null := by
  have hnull : value.isNull = false ↔ value ≠ .null := by cases value <;> simp [Value.isNull]
  rw [field?, Option.filter_eq_some_iff, Bool.not_eq_true', hnull]

theorem required_eq_ok_iff : required fields key = .ok value ↔ field? fields key = some value := by
  rw [required]
  cases field? fields key <;> simp

theorem text?_eq_ok_iff {given : Option String} :
    text? fields key = .ok given ↔
      (∀ value ∈ field? fields key, ∃ name, value = .text name) ∧ given = name? fields key := by
  unfold text? name?
  cases field? fields key with
  | none => simp [eq_comm]
  | some value => cases value <;> simp [Value.text?, eq_comm]

end BatchRow

/-! ## The write of a row -/

section Mutation

variable {ctx : Context} {session : Session} {now : Timestamp} {fields : List (String × Value)}
  {mutation : Mutation}

open BatchRow

/-- The write of a row to a table. -/
def BatchRow.write (fields : List (String × Value)) (ctx : Context) (session : Session)
    (now : Timestamp) (target : TableName) : Except Error Mutation := do
  let rowkey ← encodeNatural (← required fields "rowkey")
  let name ← session.encodeName target (← required fields "name")
  let value ← session.encodeValue target (← required fields "value")
  let timestamp ← session.timestamp (← integer? fields "timestamp") now
  let ttl ← ctx.ttlOf (← integer? fields "ttl")
  return ⟨target, rowkey, name, value, timestamp, ttl⟩

theorem batchMutation_map :
    batchMutation ctx session now (.map fields) = (do
      let keyspace ← (← text? fields "keyspace").elim ctx.keyspace .ok
      let table? ← text? fields "table"
      let columnfamily? ← text? fields "columnfamily"
      let table ← (table?.or columnfamily?).elim ctx.table .ok
      BatchRow.write fields ctx session now ⟨keyspace, table⟩) := by
  rw [batchMutation, Except.ok_bind]
  refine bind_congr fun keyspace? => ?_
  cases keyspace?
  all_goals
    refine bind_congr fun keyspace => bind_congr fun table? => bind_congr fun columnfamily? => ?_
    cases table?.or columnfamily? <;> rfl

/-- What the write of a row of a batch takes from the row, and from the settings otherwise. -/
theorem batchMutation_eq_ok_iff :
    batchMutation ctx session now (.map fields) = .ok mutation ↔
      Named fields ∧
        (name? fields "keyspace").elim ctx.keyspace .ok = .ok mutation.target.keyspace ∧
        (table? fields).elim ctx.table .ok = .ok mutation.target.table ∧
        (∃ key, required fields "rowkey" = .ok key ∧ encodeNatural key = .ok mutation.rowkey) ∧
        (∃ name, required fields "name" = .ok name ∧
          session.encodeName mutation.target name = .ok mutation.cell.name) ∧
        (∃ value, required fields "value" = .ok value ∧
          session.encodeValue mutation.target value = .ok mutation.cell.value) ∧
        (∃ given, integer? fields "timestamp" = .ok given ∧
          session.timestamp given now = .ok mutation.cell.timestamp) ∧
        ∃ given, integer? fields "ttl" = .ok given ∧ ctx.ttlOf given = .ok mutation.cell.ttl := by
  simp only [batchMutation_map, BatchRow.write, Except.bind_eq_ok_iff, text?_eq_ok_iff]
  constructor
  · rintro ⟨_, ⟨hkeyspaces, rfl⟩, keyspace, hkeyspace, _, ⟨htables, rfl⟩, _, ⟨hfamilies, rfl⟩,
      table, htable, key, hkey, rowkey, hrowkey, name, hname, encoded, hencoded, value, hvalue,
      written, hwritten, given, hgiven, timestamp, htimestamp, seconds, hseconds, ttl, httl,
      hmutation⟩
    cases hmutation
    refine ⟨?_, hkeyspace, htable, ⟨key, hkey, hrowkey⟩, ⟨name, hname, hencoded⟩,
      ⟨value, hvalue, hwritten⟩, ⟨given, hgiven, htimestamp⟩, seconds, hseconds, httl⟩
    simp only [Named, List.forall_mem_cons, List.not_mem_nil, false_implies, implies_true, and_true]
    exact ⟨hkeyspaces, htables, hfamilies⟩
  · rintro ⟨hnamed, hkeyspace, htable, ⟨key, hkey, hrowkey⟩, ⟨name, hname, hencoded⟩,
      ⟨value, hvalue, hwritten⟩, ⟨given, hgiven, htimestamp⟩, seconds, hseconds, httl⟩
    exact ⟨_, ⟨hnamed _ (by simp), rfl⟩, _, hkeyspace, _, ⟨hnamed _ (by simp), rfl⟩, _,
      ⟨hnamed _ (by simp), rfl⟩, _, htable, key, hkey, _, hrowkey, name, hname, _, hencoded, value,
      hvalue, _, hwritten, given, hgiven, _, htimestamp, seconds, hseconds, _, httl, rfl⟩

end Mutation

/-! ## The operation of a row -/

namespace BatchRow

/-- What a `set` asks for. -/
def columns : List String := ["rowkey", "name", "value", "timestamp", "ttl"]

/-- The settings of a batch, in which the row comes first. -/
def overrides (fields : List (String × Value)) (batch : Overrides) : Overrides :=
  { batch with
    keyspace := (name? fields "keyspace").or batch.keyspace
    table := (table? fields).or batch.table }

end BatchRow

namespace Operation

/-- The batch of rows under these settings. -/
def batchSet (rows : List (List (String × Value))) (overrides : Overrides) : Operation :=
  (ofLiterals .batchSet [("rows", .list (rows.map .map))]).under overrides

/-- The `set` that stands for a row of a batch. -/
def rowSet (batch : Operation) (fields : List (String × Value)) : Operation :=
  (ofLiterals .set (BatchRow.columns.filterMap fun key =>
    (Entries.find? key fields).map fun value => (key, value))).under
      (BatchRow.overrides fields batch.overrides)

theorem kind_ofLiterals (kind : OperationKind) (params : List (String × Value)) :
    (ofLiterals kind params).kind = kind := by
  have hkind (operation : Operation) : (params.foldl (fun operation entry =>
      operation.literal entry.1 entry.2) operation).kind = operation.kind := by
    induction params generalizing operation with
    | nil => rfl
    | cons entry rest ih => exact ih _
  exact hkind _

theorem find?_foldl_literal (fields : List (String × Value)) (keys : List String)
    (operation : Operation) (key : String) :
    ((keys.filterMap fun key => (Entries.find? key fields).map fun value => (key, value)).foldl
        (fun operation entry => operation.literal entry.1 entry.2) operation).params.find? key =
      if key ∈ keys then
        ((Entries.find? key fields).map .literal).or (operation.params.find? key)
      else operation.params.find? key := by
  induction keys generalizing operation with
  | nil => simp
  | cons first rest ih =>
      rw [List.filterMap_cons]
      cases hfirst : Entries.find? first fields with
      | none =>
          rw [Option.map_none]
          dsimp only
          rw [ih]
          by_cases hkey : key = first
          · simp [hkey, hfirst]
          · simp [hkey]
      | some value =>
          rw [Option.map_some]
          dsimp only
          rw [List.foldl_cons, ih]
          by_cases hkey : key = first
          · subst hkey
            simp [hfirst, literal, param, Map.find?_insert_self]
          · simp [hkey, literal, param, Map.find?_insert_of_ne hkey]

theorem find?_rowSet (batch : Operation) (fields : List (String × Value)) (key : String) :
    (batch.rowSet fields).params.find? key =
      if key ∈ BatchRow.columns then (Entries.find? key fields).map .literal else none := by
  change (ofLiterals .set _).params.find? key = _
  rw [ofLiterals, find?_foldl_literal]
  simp [Map.find?_empty]

end Operation

/-- A resolved parameter is found under its key. -/
theorem find?_of_resolveEntries {results : Results} {binds : Option Binds}
    {entries : List (String × Param)} {values : List (String × Value)}
    (hvalues : resolveEntries results binds entries = .ok values) (key : String) :
    Entries.find? key values =
      (Entries.find? key entries).bind fun param => (param.resolve results binds).toOption := by
  induction entries generalizing values with
  | nil =>
      cases hvalues
      rfl
  | cons entry rest ih =>
      obtain ⟨first, param⟩ := entry
      rw [resolveEntries] at hvalues
      cases hparam : param.resolve results binds with
      | error error =>
          rw [hparam] at hvalues
          cases hvalues
      | ok value =>
          rw [hparam] at hvalues
          dsimp only at hvalues
          cases hrest : resolveEntries results binds rest with
          | error error =>
              rw [hrest] at hvalues
              cases hvalues
          | ok found =>
              rw [hrest] at hvalues
              cases hvalues
              rw [Entries.find?, Entries.find?]
              split
              · rw [Option.bind_some, hparam]
                rfl
              · exact ih hrest

section Row

variable {batch : Operation} {fields : List (String × Value)} {results : Results}
  {binds : Option Binds} {args : Arguments}

/-- The arguments of the `set` of a row are the fields of the row. -/
theorem get?_rowSet (hargs : (batch.rowSet fields).resolve results binds = .ok args) {key : String}
    (hkey : key ∈ BatchRow.columns) : args.get? key = BatchRow.field? fields key := by
  obtain ⟨values, hvalues, rfl⟩ := Except.map_eq_ok_iff.mp hargs
  have hparam := (batch.find?_rowSet fields key).trans (if_pos hkey)
  have hvalue := find?_of_resolveEntries hvalues key
  change _ = ((batch.rowSet fields).params.find? key).bind _ at hvalue
  rw [Arguments.get?, BatchRow.field?, hvalue, hparam]
  cases hfound : Entries.find? key fields with
  | none => rfl
  | some value =>
      rw [hfound] at hparam
      have hresolves : (Param.literal value).resolve results binds = .ok value := by
        cases hmarker : value.isMalformedMarker with
        | false => simp [Param.resolve, hmarker]
        | true =>
            refine absurd hvalues (resolveEntries_ne_ok (Map.mem_entries_iff.mpr hparam) ?_)
            simp [Param.resolve, hmarker]
      rw [Option.map_some, Option.bind_some, hresolves]
      cases value <;> rfl

/-- The `set` of a row has arguments, unless a field of the row looks like a marker. -/
theorem exists_malformed_of_rowSet {error : Error}
    (herror : (batch.rowSet fields).resolve results binds = .error error) :
    ∃ key ∈ BatchRow.columns, ∃ value ∈ Entries.find? key fields,
      value.isMalformedMarker = true := by
  obtain ⟨_, key, param, cause, _, hentries, _, hcause, _⟩ :=
    exists_first_unresolved (Except.map_eq_error_iff.mp herror)
  have hparam : (batch.rowSet fields).params.find? key = some param := by
    rw [← Map.mem_entries_iff, hentries]
    simp
  rw [Operation.find?_rowSet, Option.ite_none_right_eq_some] at hparam
  obtain ⟨hkey, hparam⟩ := hparam
  obtain ⟨value, hvalue, rfl⟩ := Option.map_eq_some_iff.mp hparam
  refine ⟨key, hkey, value, hvalue, ?_⟩
  cases hmarker : value.isMalformedMarker with
  | false => simp [Param.resolve, hmarker] at hcause
  | true => rfl

theorem required_rowSet (hargs : (batch.rowSet fields).resolve results binds = .ok args)
    {key : String} (hkey : key ∈ BatchRow.columns) {value : Value} :
    args.required key = .ok value ↔ BatchRow.required fields key = .ok value := by
  rw [Arguments.required_eq_ok_iff, get?_rowSet hargs hkey, BatchRow.required_eq_ok_iff]

theorem integer?_rowSet (hargs : (batch.rowSet fields).resolve results binds = .ok args)
    {key : String} (hkey : key ∈ BatchRow.columns)
    (hwhole : ∀ value ∈ BatchRow.field? fields key, ∃ n, value = .int n) :
    args.integer? key = BatchRow.integer? fields key := by
  rw [Arguments.integer?, Arguments.optional, get?_rowSet hargs hkey, BatchRow.integer?]
  cases hfield : BatchRow.field? fields key with
  | none => rfl
  | some value =>
      obtain ⟨n, rfl⟩ := hwhole value hfield
      rfl

theorem Context.target_eq_ok_iff {ctx : Context} {target : TableName} :
    ctx.target = .ok target ↔
      ctx.keyspace = .ok target.keyspace ∧ ctx.table = .ok target.table := by
  simp only [Context.target, Except.bind_eq_ok_iff]
  constructor
  · rintro ⟨keyspace, hkeyspace, table, htable, heq⟩
    cases heq
    exact ⟨hkeyspace, htable⟩
  · rintro ⟨hkeyspace, htable⟩
    exact ⟨_, hkeyspace, _, htable, rfl⟩

/-- A row comes before the settings of its batch, and those before the session. -/
theorem target_rowSet {session : Session} {timeout : UInt64} {target : TableName} :
    (Context.of session (batch.rowSet fields) timeout).target = .ok target ↔
      (BatchRow.name? fields "keyspace").elim (Context.of session batch timeout).keyspace .ok =
          .ok target.keyspace ∧
        (BatchRow.table? fields).elim (Context.of session batch timeout).table .ok =
          .ok target.table := by
  have hkeyspace : (Context.of session (batch.rowSet fields) timeout).keyspace =
      (BatchRow.name? fields "keyspace").elim (Context.of session batch timeout).keyspace .ok := by
    change Context.keyspace ⟨((BatchRow.name? fields "keyspace").or _).or _, _, _, _, _⟩ = _
    cases BatchRow.name? fields "keyspace" <;> rfl
  have htable : (Context.of session (batch.rowSet fields) timeout).table =
      (BatchRow.table? fields).elim (Context.of session batch timeout).table .ok := by
    change Context.table ⟨_, ((BatchRow.table? fields).or _).or _, _, _, _⟩ = _
    cases BatchRow.table? fields <;> rfl
  rw [Context.target_eq_ok_iff, hkeyspace, htable]

namespace BatchRow.Dated

variable (hdated : Dated fields)
include hdated

theorem whole_ttl : ∀ value ∈ field? fields "ttl", ∃ n, value = .int n := by
  intro value hvalue
  obtain ⟨hfound, hnull⟩ := field?_eq_some_iff.mp hvalue
  exact (hdated.ttl value hfound).resolve_left hnull

theorem field_timestamp : ∃ timestamp, field? fields "timestamp" = some (.int timestamp) := by
  obtain ⟨timestamp, hfound⟩ := hdated.timestamp
  exact ⟨timestamp, field?_eq_some_iff.mpr ⟨hfound, nofun⟩⟩

end BatchRow.Dated

/-- The `set` of a row writes what the row stands for in a batch. -/
theorem setMutation_rowSet_iff (hdated : BatchRow.Dated fields) (hnamed : BatchRow.Named fields)
    (hargs : (batch.rowSet fields).resolve results binds = .ok args) {session : Session}
    {timeout : UInt64} {now now' : Timestamp} {mutation : Mutation} :
    setMutation (Context.of session (batch.rowSet fields) timeout) args session now =
        .ok mutation ↔
      batchMutation (Context.of session batch timeout) session now' (.map fields) =
        .ok mutation := by
  obtain ⟨timestamp, htimestamp⟩ := hdated.field_timestamp
  have hread : BatchRow.integer? fields "timestamp" = .ok (some timestamp) := by
    rw [BatchRow.integer?, htimestamp]
    rfl
  have hreads : args.integer? "timestamp" = .ok (some timestamp) := by
    rw [integer?_rowSet hargs (by decide), hread]
    rw [htimestamp]
    rintro value ⟨⟩
    exact ⟨_, rfl⟩
  rw [setMutation_eq_ok_iff, batchMutation_eq_ok_iff, Arguments.column_eq_ok_iff,
    integer?_rowSet hargs (by decide) hdated.whole_ttl, hread, hreads]
  simp only [required_rowSet hargs (show "rowkey" ∈ BatchRow.columns by decide),
    required_rowSet hargs (show "name" ∈ BatchRow.columns by decide),
    required_rowSet hargs (show "value" ∈ BatchRow.columns by decide), target_rowSet, hnamed,
    true_and, and_assoc, Except.ok.injEq, exists_eq_left', Session.timestamp]
  exact Iff.rfl

/-- A value that looks like a marker is none that the write of a row can hold. -/
theorem batchMutation_ne_ok_of_malformed (hdated : BatchRow.Dated fields) {key : String}
    (hkey : key ∈ BatchRow.columns) {value : Value} (hvalue : value ∈ Entries.find? key fields)
    (hmarker : value.isMalformedMarker = true) {ctx : Context} {session : Session}
    {now : Timestamp} {mutation : Mutation} :
    batchMutation ctx session now (.map fields) ≠ .ok mutation := by
  intro hmutation
  obtain ⟨_, _, _, ⟨rowkey, hrowkey, hrow⟩, ⟨name, hname, hencoded⟩, ⟨written, hwritten, hraw⟩,
    _⟩ := batchMutation_eq_ok_iff.mp hmutation
  have hsame {found : Value} (hfound : BatchRow.required fields key = .ok found) :
      found = value := by
    obtain ⟨hfind, _⟩ := BatchRow.field?_eq_some_iff.mp (BatchRow.required_eq_ok_iff.mp hfound)
    exact Option.some.inj (hfind.symm.trans hvalue)
  have hdata {raw : Bytes} {assumed : Option DataType} : encode value assumed ≠ .ok raw := by
    intro hencode
    rw [Value.isMalformedMarker_of_encode hencode] at hmarker
    cases hmarker
  simp only [BatchRow.columns, List.mem_cons, List.not_mem_nil, or_false] at hkey
  rcases hkey with rfl | rfl | rfl | rfl | rfl
  · rw [hsame hrowkey] at hrow
    exact hdata (show encode value none = .ok mutation.rowkey from hrow)
  · rw [hsame hname] at hencoded
    exact hdata hencoded
  · rw [hsame hwritten] at hraw
    exact hdata hraw
  · obtain ⟨timestamp, htimestamp⟩ := hdated.timestamp
    rw [htimestamp] at hvalue
    cases hvalue
    cases hmarker
  · rcases hdated.ttl value hvalue with rfl | ⟨seconds, rfl⟩
    · cases hmarker
    · cases hmarker

end Row

/-! ## The chain of the rows -/

section Chain

variable {nested : Nested Storage} {deadlines : Deadlines} {binds : Option Binds} {index : Nat}
  {batch : Operation} {fields : List (String × Value)} {rows : List (List (String × Value))}
  {rest : List Operation} {session : Session} {world : World Storage}
  {mutation : Mutation} {mutations : List Mutation}

theorem mutation_rowSet_iff (hdated : BatchRow.Dated fields) (hnamed : BatchRow.Named fields)
    (now : Timestamp) :
    (attemptOf nested deadlines binds (batch.rowSet fields) rest session world).mutation =
        .ok mutation ↔
      batchMutation (Context.of session batch world.engine.timeout) session now (.map fields) =
        .ok mutation := by
  change ((batch.rowSet fields).resolve session.results binds >>= fun args =>
    setMutation (Context.of session (batch.rowSet fields) world.engine.timeout) args session
      world.clock.next) = .ok mutation ↔ _
  cases hargs : (batch.rowSet fields).resolve session.results binds with
  | ok args =>
      rw [Except.ok_bind]
      exact setMutation_rowSet_iff hdated hnamed hargs
  | error error =>
      obtain ⟨key, hkey, value, hvalue, hmarker⟩ := exists_malformed_of_rowSet hargs
      rw [Except.error_bind]
      constructor
      · rintro ⟨⟩
      · exact fun hmutation =>
          absurd hmutation (batchMutation_ne_ok_of_malformed hdated hkey hvalue hmarker)

/-- The rows stand for these writes, and the store takes each of them. -/
def Engine.Takes (engine : Engine Storage) (ctx : Context) (session : Session)
    (rows : List (List (String × Value))) (mutations : List Mutation) : Prop :=
  List.Forall₂ (fun fields mutation =>
    batchMutation ctx session 0 (.map fields) = .ok mutation ∧
      engine.store.contents.check mutation.target ctx.consistency false = .ok ()) rows mutations

/-- A write that is taken makes no difference to which ones are taken. -/
theorem Engine.takes_applied {engine : Engine Storage} {ctx : Context}
    (hknown : mutation.target ∈ engine.store.contents.tables) :
    Engine.Takes { engine with store := engine.store.applied mutation } ctx session rows
      mutations ↔ engine.Takes ctx session rows mutations := by
  simp only [Takes, Storage.check_applied hknown]

/-- The `set` of a row succeeds where the store takes the write of the row, if it is not
late. -/
theorem ending_rowSet_iff (hdated : BatchRow.Dated fields) (hnamed : BatchRow.Named fields)
    {record : Record} {after : Session} :
    (attemptOf nested deadlines binds (batch.rowSet fields) rest session world).ending =
        .ok (.next record after) ↔
      (attemptOf nested deadlines binds (batch.rowSet fields) rest session world).InTime ∧
        after = session ∧ record = .ok ∧ ∃ mutation,
          batchMutation (Context.of session batch world.engine.timeout) session 0 (.map fields) =
            .ok mutation ∧
          world.engine.store.contents.check mutation.target
            (Context.of session batch world.engine.timeout).consistency false = .ok () := by
  have hkind : (attemptOf nested deadlines binds (batch.rowSet fields) rest session
      world).operation.kind = .set := Operation.kind_ofLiterals .set _
  simp only [Attempt.ending_of_set_iff rfl hkind, mutation_rowSet_iff hdated hnamed 0]
  exact Iff.rfl

/-- A chain of rows goes on behind a row whose write the store takes. -/
theorem exec_rowSets_cons (hdated : BatchRow.Dated fields) (hnamed : BatchRow.Named fields)
    (hintime : (attemptOf nested deadlines binds (batch.rowSet fields) (rows.map batch.rowSet)
      session world).InTime)
    (hmutation : batchMutation (Context.of session batch world.engine.timeout) session 0
      (.map fields) = .ok mutation)
    (hcheck : world.engine.store.contents.check mutation.target
      (Context.of session batch world.engine.timeout).consistency false = .ok ()) :
    ∃ (results : Results) (clock : Clock),
      (runFrom nested deadlines binds index ((fields :: rows).map batch.rowSet) session).exec
          world =
        (runFrom nested deadlines binds (index + 1) (rows.map batch.rowSet)
          { session with results }).exec
            ⟨{ world.engine with store := world.engine.store.applied mutation }, clock⟩ := by
  generalize hattempt : attemptOf nested deadlines binds (batch.rowSet fields)
    (rows.map batch.rowSet) session world = attempt
  have hkind : attempt.operation.kind = .set := by
    rw [← hattempt]
    exact Operation.kind_ofLiterals .set _
  have hwritten : attempt.mutation = .ok mutation := by
    rw [← hattempt]
    exact (mutation_rowSet_iff hdated hnamed 0).mpr hmutation
  have hallowed : attempt.before.engine.store.contents.check mutation.target
      attempt.context.consistency false = .ok () := by
    rw [← hattempt]
    exact hcheck
  have hengine : attempt.after.engine =
      { world.engine with store := world.engine.store.applied mutation } := by
    rw [attempt.engine_of_set hattempt.symm hkind hwritten hallowed, ← hattempt]
    rfl
  have hending : attempt.ending = .ok (.next .ok session) := by
    rw [← hattempt, ending_rowSet_iff hdated hnamed]
    exact ⟨hintime, rfl, rfl, mutation, hmutation, hcheck⟩
  rw [List.map_cons, exec_runFrom_of_next hattempt.symm hending, ← hengine]
  exact ⟨_, _, rfl⟩

variable (nested deadlines binds index) in
/-- The chain of the rows succeeds where the store takes all their writes, and makes them, if
none of its operations is late. -/
theorem exec_rowSets_of_takes
    (hrows : ∀ fields ∈ rows, BatchRow.Dated fields ∧ BatchRow.Named fields)
    (hchain : ¬ LateAnswer ((runFrom nested deadlines binds index (rows.map batch.rowSet)
      session).exec world).1)
    (htakes : world.engine.Takes (Context.of session batch world.engine.timeout) session rows
      mutations) :
    ∃ response after,
      (runFrom nested deadlines binds index (rows.map batch.rowSet) session).exec world =
        (.ok response, after) ∧ response.failure = none ∧
      after.engine = { world.engine with
        store := mutations.foldl Storage.applied world.engine.store } := by
  induction rows generalizing index session world mutations with
  | nil =>
      cases htakes
      exact ⟨_, _, rfl, rfl, rfl⟩
  | cons fields rest ih =>
      cases htakes with
      | @cons _ mutation _ mutations hfirst hrest =>
          obtain ⟨hmutation, hcheck⟩ := hfirst
          obtain ⟨hdated, hnamed⟩ := hrows fields List.mem_cons_self
          have hlater := (Engine.takes_applied (TableStore.mem_of_check hcheck)).mpr hrest
          have hintime := Attempt.inTime_of_exec_runFrom hchain
          obtain ⟨results, clock, hrun⟩ :=
            exec_rowSets_cons hdated hnamed hintime hmutation hcheck
          rw [hrun] at hchain ⊢
          exact ih _ (fun later hmem => hrows later (List.mem_cons_of_mem _ hmem)) hchain hlater

/-- Where a chain of rows succeeds the store takes all their writes. -/
theorem takes_of_exec_rowSets
    (hrows : ∀ fields ∈ rows, BatchRow.Dated fields ∧ BatchRow.Named fields)
    {response : Response} {after : World Storage}
    (hrun : (runFrom nested deadlines binds index (rows.map batch.rowSet) session).exec world =
        (.ok response, after)) (hdone : response.failure = none) :
    ∃ mutations, world.engine.Takes (Context.of session batch world.engine.timeout) session rows
      mutations := by
  induction rows generalizing index session world with
  | nil => exact ⟨[], .nil⟩
  | cons fields rest ih =>
      obtain ⟨hdated, hnamed⟩ := hrows fields List.mem_cons_self
      by_cases hnext : (attemptOf nested deadlines binds (batch.rowSet fields)
          (rest.map batch.rowSet) session world).GoesOn
      · obtain ⟨record, next, hending⟩ := hnext
        obtain ⟨hintime, _, _, mutation, hmutation, hcheck⟩ :=
          (ending_rowSet_iff hdated hnamed).mp hending
        obtain ⟨results, clock, hstep⟩ := exec_rowSets_cons hdated hnamed hintime hmutation hcheck
        rw [hstep] at hrun
        obtain ⟨mutations, hlater⟩ :=
          ih (fun later hmem => hrows later (List.mem_cons_of_mem _ hmem)) hrun
        have hrest := (Engine.takes_applied (TableStore.mem_of_check hcheck)).mp hlater
        exact ⟨mutation :: mutations, .cons ⟨hmutation, hcheck⟩ hrest⟩
      · rw [List.map_cons, exec_runFrom_of_not_goesOn hnext] at hrun
        obtain ⟨record, hrecord⟩ := record_of_endingAfter hrun hdone
        rcases Attempt.ending_of_record hrecord with ⟨next, hending⟩ | hending
        · exact absurd ⟨record, next, hending⟩ hnext
        · have hprepare := kind_of_ending_halt rfl hending
          have hset : (batch.rowSet fields).kind = .set := Operation.kind_ofLiterals .set _
          rw [hset] at hprepare
          cases hprepare

end Chain

/-! ## The batch -/

section Batch

variable {ctx : Context} {args : Arguments} {session : Session}

/-- The rows of a batch stand for these writes, each under a reading of the clock. -/
def StandsFor (ctx : Context) (session : Session) (rows : List Value)
    (mutations : List Mutation) : Prop :=
  List.Forall₂ (fun row mutation => ∃ now, batchMutation ctx session now row = .ok mutation) rows
    mutations

variable (ctx session) in
/-- A row that has no write ends a batch before anything is written. -/
theorem exec_batchMutations (rows : List Value) (world : World Storage) :
    ∃ (clock : Clock) (result : Except Error (List Mutation)),
      (batchMutations ctx session rows).exec world =
        (result.mapError .failed, { world with clock }) ∧
      (∀ mutations, result = .ok mutations → StandsFor ctx session rows mutations) ∧
      ∀ error, result = .error error →
        ∃ row ∈ rows, ∃ now, batchMutation ctx session now row = .error error := by
  induction rows generalizing world with
  | nil =>
      refine ⟨world.clock, .ok [], rfl, ?_, by rintro _ ⟨⟩⟩
      rintro _ ⟨⟩
      exact .nil
  | cons row rest ih =>
      let next : World Storage := { world with clock.taken := world.clock.taken + 1 }
      rw [batchMutations, Program.exec_bind_ok (Run.exec_now world)]
      cases hmutation : batchMutation ctx session (world.clock.readings world.clock.taken) row with
      | error error =>
          refine ⟨next.clock, .error error, rfl, by rintro _ ⟨⟩, ?_⟩
          rintro _ ⟨⟩
          exact ⟨row, List.mem_cons_self, _, hmutation⟩
      | ok mutation =>
          obtain ⟨clock, result, hexec, hstands, hfails⟩ := ih next
          refine ⟨clock, result.map (mutation :: ·), ?_, ?_, ?_⟩
          · rw [Program.exec_bind_ok (Run.exec_lift_ok mutation _), Program.exec_bind_pure, hexec]
            cases result <;> rfl
          · intro mutations hresult
            obtain ⟨later, hlater, rfl⟩ := Except.map_eq_ok_iff.mp hresult
            exact .cons ⟨_, hmutation⟩ (hstands later hlater)
          · intro error hresult
            obtain ⟨other, hother, hfailed⟩ := hfails error (Except.map_eq_error_iff.mp hresult)
            exact ⟨other, List.mem_cons_of_mem _ hother, hfailed⟩

/-- The store behind a batch that has come to these writes, or to an error. -/
def Storage.afterBatch (storage : Storage) : Except Error (List Mutation) → Storage
  | .ok mutations => mutations.foldl applied storage
  | .error _ => storage

variable (ctx session) in
/-- A batch makes all the writes that its rows stand for, if the store takes them all, and
otherwise none. -/
theorem exists_comesTo_runBatchSet {rows : List Value} (hrows : args.list "rows" = .ok rows)
    (world : World Storage) :
    ∃ written : Except Error (List Mutation),
      (∀ deadlines, (runBatchSet ctx args session deadlines).ComesTo world
        (written.map fun _ => .ok)
        { world.engine with store := world.engine.store.afterBatch written }) ∧
      (∀ mutations, written = .ok mutations → StandsFor ctx session rows mutations ∧
        ∀ mutation ∈ mutations,
          world.engine.store.contents.check mutation.target ctx.consistency false = .ok ()) ∧
      ∀ error, written = .error error →
        (∃ row ∈ rows, ∃ now, batchMutation ctx session now row = .error error) ∨
          ∃ mutations, StandsFor ctx session rows mutations ∧ ∃ mutation ∈ mutations,
            world.engine.store.contents.check mutation.target ctx.consistency false ≠ .ok () := by
  obtain ⟨clock, result, hexec, hstands, hfails⟩ := exec_batchMutations ctx session rows world
  cases result with
  | error error =>
      refine ⟨.error error, fun deadlines => ?_, by rintro _ ⟨⟩, ?_⟩
      · rw [runBatchSet, hrows, Run.lift_ok_bind]
        exact .of_bind_error hexec
      · rintro _ ⟨⟩
        exact .inl (hfails error rfl)
  | ok mutations =>
      have hstands := hstands mutations rfl
      have hruns (deadlines : Deadlines) {written : Except Error (List Mutation)}
          (hwrite : (Store.batchWrite mutations ctx.consistency : Update Storage Unit).exec
            world.engine.store = (written.map fun _ => (), world.engine.store.afterBatch written)) :
          (runBatchSet ctx args session deadlines).ComesTo world (written.map fun _ => .ok)
            { world.engine with store := world.engine.store.afterBatch written } := by
        rw [runBatchSet, hrows, Run.lift_ok_bind]
        refine .of_bind_ok hexec ?_
        have hupdate := (Run.ComesTo.update deadlines (Store.batchWrite mutations ctx.consistency)
          ({ world with clock } : World Storage)).bind_pure fun _ => Record.ok
        rw [hwrite] at hupdate
        cases written <;> exact hupdate
      have hwrite : (Store.batchWrite mutations ctx.consistency : Update Storage Unit).exec
          world.engine.store = _ := Storage.exec_batchWrite _ _ _
      cases hchecks : world.engine.store.contents.checkAll ctx.consistency mutations with
      | error error =>
          rw [hchecks] at hwrite
          refine ⟨.error error, fun deadlines => hruns deadlines hwrite, by rintro _ ⟨⟩,
            fun _ _ => .inr ⟨mutations, hstands, ?_⟩⟩
          by_contra hall
          simp only [not_exists, not_and, not_not] at hall
          rw [TableStore.checkAll_eq_ok_iff.mpr hall] at hchecks
          cases hchecks
      | ok _ =>
          rw [hchecks] at hwrite
          refine ⟨.ok mutations, fun deadlines => hruns deadlines hwrite, ?_, by rintro _ ⟨⟩⟩
          rintro _ ⟨⟩
          exact ⟨hstands, TableStore.checkAll_eq_ok_iff.mp hchecks⟩

/-- A row with a timestamp of its own does not look at the clock. -/
theorem batchMutation_now {fields : List (String × Value)} (hdated : BatchRow.Dated fields)
    (now now' : Timestamp) :
    batchMutation ctx session now (.map fields) = batchMutation ctx session now' (.map fields) := by
  obtain ⟨timestamp, htimestamp⟩ := hdated.field_timestamp
  have hread : BatchRow.integer? fields "timestamp" = .ok (some timestamp) := by
    rw [BatchRow.integer?, htimestamp]
    rfl
  simp only [batchMutation_map, BatchRow.write, hread, Except.ok_bind, Session.timestamp]

theorem Engine.takes_iff {engine : Engine Storage} {rows : List (List (String × Value))}
    {mutations : List Mutation} (hdated : ∀ fields ∈ rows, BatchRow.Dated fields) :
    engine.Takes ctx session rows mutations ↔
      StandsFor ctx session (rows.map .map) mutations ∧ ∀ mutation ∈ mutations,
        engine.store.contents.check mutation.target ctx.consistency false = .ok () := by
  -- The readings of the clock do not matter, and what the store takes is asked of each write.
  have hnow : ∀ fields ∈ rows, ∀ mutation,
      (∃ now, batchMutation ctx session now (.map fields) = .ok mutation) ↔
        batchMutation ctx session 0 (.map fields) = .ok mutation := by
    intro fields hmem mutation
    simp only [batchMutation_now (hdated fields hmem) _ 0, exists_const]
  rw [StandsFor, List.forall₂_map_left_iff]
  constructor
  · intro htakes
    induction htakes with
    | nil => exact ⟨.nil, nofun⟩
    | cons hfirst _ ih =>
        obtain ⟨hlater, hchecks⟩ :=
          ih (fun other hother => hdated other (List.mem_cons_of_mem _ hother))
            fun other hother => hnow other (List.mem_cons_of_mem _ hother)
        exact ⟨.cons ⟨0, hfirst.1⟩ hlater, List.forall_mem_cons.mpr ⟨hfirst.2, hchecks⟩⟩
  · rintro ⟨hstands, hchecks⟩
    induction hstands with
    | nil => exact .nil
    | cons hfirst _ ih =>
        obtain ⟨hcheck, hlater⟩ := List.forall_mem_cons.mp hchecks
        refine .cons ⟨(hnow _ List.mem_cons_self _).mp hfirst, hcheck⟩ (ih ?_ ?_ hlater)
        · exact fun other hother => hdated other (List.mem_cons_of_mem _ hother)
        · exact fun other hother => hnow other (List.mem_cons_of_mem _ hother)

theorem StandsFor.exists_of_mem {rows : List Value} {mutations : List Mutation}
    (hstands : StandsFor ctx session rows mutations) {row : Value} (hrow : row ∈ rows) :
    ∃ now mutation, batchMutation ctx session now row = .ok mutation := by
  induction hstands with
  | nil => cases hrow
  | cons hfirst _ ih =>
      rcases List.mem_cons.mp hrow with rfl | hlater
      · obtain ⟨now, hmutation⟩ := hfirst
        exact ⟨now, _, hmutation⟩
      · exact ih hlater

/-- Rows with timestamps of their own stand for one list of writes. -/
theorem StandsFor.unique {rows : List (List (String × Value))} {mutations others : List Mutation}
    (hdated : ∀ fields ∈ rows, BatchRow.Dated fields)
    (hstands : StandsFor ctx session (rows.map .map) mutations)
    (hothers : StandsFor ctx session (rows.map .map) others) : mutations = others := by
  induction rows generalizing mutations others with
  | nil =>
      cases hstands
      cases hothers
      rfl
  | cons fields rest ih =>
      cases hstands with
      | cons hfirst hrest =>
          cases hothers with
          | cons hfirst' hrest' =>
              obtain ⟨now, hmutation⟩ := hfirst
              obtain ⟨now', hmutation'⟩ := hfirst'
              rw [batchMutation_now (hdated fields List.mem_cons_self) now now',
                hmutation'] at hmutation
              cases hmutation
              have hlater := fun other hother => hdated other (List.mem_cons_of_mem _ hother)
              rw [ih hlater hrest hrest']

end Batch

/-! ## A batch and its rows -/

namespace Attempt

variable {nested : Nested Storage} {deadlines : Deadlines} {binds : Option Binds}
  {rows : List (List (String × Value))} {overrides : Overrides} {rest : List Operation}
  {session : Session} {world : World Storage} {attempt : Attempt Storage}
  (hattempt : attempt = attemptOf nested deadlines binds (.batchSet rows overrides) rest session
    world)
include hattempt

/-- A batch has made all its writes, and fails only if it is late; or it fails and has made
none. -/
theorem batchSet_cases :
    (∃ mutations, StandsFor attempt.context session (rows.map .map) mutations ∧
        (∀ mutation ∈ mutations, world.engine.store.contents.check mutation.target
          attempt.context.consistency false = .ok ()) ∧
        attempt.after.engine = { world.engine with
          store := mutations.foldl Storage.applied world.engine.store } ∧
        attempt.Ends (.ok .ok)) ∨
      ∃ error, attempt.Ends (.error error) ∧ attempt.after.engine = world.engine ∧
        ((∃ fields ∈ rows, ∃ now,
            batchMutation attempt.context session now (.map fields) = .error error) ∨
          ∃ mutations, StandsFor attempt.context session (rows.map .map) mutations ∧
            ∃ mutation ∈ mutations, world.engine.store.contents.check mutation.target
              attempt.context.consistency false ≠ .ok ()) := by
  have hoperation : attempt.operation = .batchSet rows overrides := by rw [hattempt]; rfl
  have hsession : attempt.session = session := by rw [hattempt]; rfl
  have hbefore : attempt.before = world := by rw [hattempt]; rfl
  let args : Arguments := ⟨.batchSet, [("rows", .list (rows.map .map))]⟩
  have hargs : attempt.args = .ok args := by
    rw [Attempt.args, hoperation]
    rfl
  have hbody : timedRun? nested attempt.context args attempt.session =
      some (runBatchSet attempt.context args attempt.session) := rfl
  have hrows : args.list "rows" = .ok (rows.map .map) := rfl
  obtain ⟨written, hruns, hdone, hfails⟩ :=
    exists_comesTo_runBatchSet attempt.context attempt.session hrows attempt.before
  obtain ⟨hends, hengine⟩ := attempt.run_of_resolved hattempt hargs hbody hruns
  rw [hbefore] at hengine hdone hfails
  rw [hsession] at hdone hfails
  cases written with
  | ok mutations =>
      obtain ⟨hstands, hchecks⟩ := hdone mutations rfl
      exact .inl ⟨mutations, hstands, hchecks, hengine, hends⟩
  | error error =>
      refine .inr ⟨error, hends, hengine, (hfails error rfl).imp_left ?_⟩
      rintro ⟨row, hrow, hfailed⟩
      obtain ⟨fields, hfields, rfl⟩ := List.mem_map.mp hrow
      exact ⟨fields, hfields, hfailed⟩

/-- Where a row names its keyspace or table by anything but a text nothing is written. -/
theorem batchSet_unnamed {fields : List (String × Value)} (hfields : fields ∈ rows)
    (hnamed : ¬ BatchRow.Named fields) :
    attempt.record? = none ∧ attempt.after.engine = world.engine := by
  rcases batchSet_cases hattempt with ⟨mutations, hstands, _⟩ | ⟨error, hends, hengine, _⟩
  · obtain ⟨now, mutation, hmutation⟩ := hstands.exists_of_mem (List.mem_map_of_mem hfields)
    exact absurd (batchMutation_eq_ok_iff.mp hmutation).1 hnamed
  · exact ⟨hends.record?_eq_none, hengine⟩

/-- A batch of rows with timestamps of their own succeeds where the store takes the writes of
all its rows, if it is not late. -/
theorem batchSet_takes_iff (hdated : ∀ fields ∈ rows, BatchRow.Dated fields) :
    attempt.record?.isSome ↔ attempt.InTime ∧
      ∃ mutations, world.engine.Takes attempt.context session rows mutations := by
  simp only [Engine.takes_iff hdated]
  rcases batchSet_cases hattempt with
    ⟨mutations, hstands, hchecks, _, hends⟩ | ⟨error, hends, _, hfails⟩
  · rw [hends.record?_isSome_iff]
    exact and_congr_right' ⟨fun _ => ⟨mutations, hstands, hchecks⟩, fun _ => ⟨_, rfl⟩⟩
  · rw [hends.record?_eq_none]
    constructor
    · rintro ⟨⟩
    · rintro ⟨_, mutations, hstands, hchecks⟩
      rcases hfails with ⟨fields, hfields, now, hfailed⟩ | ⟨others, hothers, mutation, hmem, hcheck⟩
      · obtain ⟨now', mutation, hmutation⟩ := hstands.exists_of_mem (List.mem_map_of_mem hfields)
        rw [batchMutation_now (hdated fields hfields) now' now, hfailed] at hmutation
        cases hmutation
      · rw [StandsFor.unique hdated hothers hstands] at hmem
        exact absurd (hchecks mutation hmem) hcheck

theorem engine_of_batchSet (hdated : ∀ fields ∈ rows, BatchRow.Dated fields)
    {mutations : List Mutation}
    (htakes : world.engine.Takes attempt.context session rows mutations)
    (hdone : attempt.record?.isSome) :
    attempt.after.engine = { world.engine with
      store := mutations.foldl Storage.applied world.engine.store } := by
  rcases batchSet_cases hattempt with ⟨others, hothers, _, hengine, _⟩ | ⟨error, hends, _⟩
  · rw [StandsFor.unique hdated ((Engine.takes_iff hdated).mp htakes).1 hothers]
    exact hengine
  · rw [hends.record?_eq_none] at hdone
    cases hdone

/-- A batch that fails has changed nothing, unless it fails for being late. -/
theorem unchanged_of_batchSet (hnone : attempt.record? = none) (hintime : attempt.InTime) :
    attempt.after.engine = world.engine := by
  rcases batchSet_cases hattempt with ⟨mutations, _, _, _, hends⟩ | ⟨error, _, hengine, _⟩
  · rw [record?_next (hends hintime)] at hnone
    cases hnone
  · exact hengine

/-- A batch of rows that each have a timestamp of their own, and name their keyspace and table
by texts if at all, succeeds where the chain of a `set` for each row succeeds, and leaves the
engine that this chain leaves. Either of them can be late where the other is not. A batch that
fails has changed nothing, unless it is only late. -/
theorem batchSet_as_rowSets (index : Nat) :
    let sets := (runFrom nested deadlines binds index
      (rows.map (Operation.batchSet rows overrides).rowSet) session).exec world
    let succeed := ∃ response, sets.1 = .ok response ∧ response.failure = none
    ((∀ fields ∈ rows, BatchRow.Dated fields ∧ BatchRow.Named fields) →
      (succeed → attempt.InTime → attempt.record?.isSome) ∧
      (attempt.record?.isSome → ¬ LateAnswer sets.1 → succeed) ∧
      (attempt.record?.isSome → succeed → sets.2.engine = attempt.after.engine)) ∧
    ((∃ fields ∈ rows, ¬ BatchRow.Named fields) →
      attempt.record? = none ∧ attempt.after.engine = world.engine) ∧
    (attempt.record? = none → attempt.InTime → attempt.after.engine = world.engine) := by
  intro sets succeed
  refine ⟨fun hrows => ?_, fun ⟨fields, hfields, hnamed⟩ => ?_, fun hnone hintime => ?_⟩
  · have hdated := fun fields hfields => (hrows fields hfields).1
    have htakes := batchSet_takes_iff hattempt hdated
    have hcontext : attempt.context =
        Context.of session (.batchSet rows overrides) world.engine.timeout := by
      rw [hattempt]
      rfl
    have hruns (hdone : attempt.record?.isSome) (hchain : ¬ LateAnswer sets.1) :
        succeed ∧ sets.2.engine = attempt.after.engine := by
      obtain ⟨_, mutations, htaken⟩ := htakes.mp hdone
      rw [engine_of_batchSet hattempt hdated htaken hdone]
      rw [hcontext] at htaken
      obtain ⟨response, after, hrun, hcomplete, hengine⟩ :=
        exec_rowSets_of_takes nested deadlines binds index hrows hchain htaken
      have hsets : sets = (.ok response, after) := hrun
      rw [hsets]
      exact ⟨⟨response, by rw [hsets], hcomplete⟩, hengine⟩
    refine ⟨?_, fun hdone hchain => (hruns hdone hchain).1, ?_⟩
    · rintro ⟨response, hresponse, hcomplete⟩ hintime
      rw [htakes, hcontext]
      exact ⟨hintime, takes_of_exec_rowSets hrows (Prod.ext hresponse rfl) hcomplete⟩
    · rintro hdone ⟨response, hresponse, hcomplete⟩
      refine (hruns hdone ?_).2
      rw [hresponse]
      exact not_lateAnswer_of_complete hcomplete
  · exact batchSet_unnamed hattempt hfields hnamed
  · exact unchanged_of_batchSet hattempt hnone hintime

omit hattempt in
/-- A row of the table of the batch and one with a table and a time to live of its own. -/
theorem batchSet_as_rowSets_two :
    let keyspace : Keyspace :=
      { replication := 1, tables := ((∅ : Map String Rows).insert "t" ∅).insert "u" ∅ }
    let store : NestedStore := { keyspaces := (∅ : Map String Keyspace).insert "ks" keyspace }
    let world : World Storage := ⟨{ store := .nested store }, { readings := fun _ => 0 }⟩
    let first : List (String × Value) := [("name", .text "a"), ("rowkey", .text "r"),
      ("timestamp", .int 1), ("ttl", .null), ("value", .text "v")]
    let second : List (String × Value) := [("name", .text "b"), ("rowkey", .text "r"),
      ("table", .text "u"), ("timestamp", .int 2), ("ttl", .int 9), ("value", .bool true)]
    let batch := Operation.batchSet [first, second] { keyspace := "ks", table := "t" }
    let session := Session.start .one 1
    let attempt := attemptOf (runChain 0) [] none batch [] session world
    let sets :=
      (runFrom (runChain 0) [] none 0 ([first, second].map batch.rowSet) session).exec world
    let succeed := ∃ response, sets.1 = .ok response ∧ response.failure = none
    attempt.InTime ∧ attempt.record?.isSome ∧ ¬ LateAnswer sets.1 ∧ succeed ∧
      sets.2.engine = attempt.after.engine := by
  intro keyspace store world first second batch session attempt sets succeed
  have hfirst : BatchRow.Dated first ∧ BatchRow.Named first := by
    refine ⟨⟨⟨1, rfl⟩, ?_⟩, ?_⟩
    · rintro value ⟨⟩
      exact .inl rfl
    · simp [BatchRow.Named, BatchRow.field?, Entries.find?, first]
  have hsecond : BatchRow.Dated second ∧ BatchRow.Named second := by
    refine ⟨⟨⟨2, rfl⟩, ?_⟩, ?_⟩
    · rintro value ⟨⟩
      exact .inr ⟨9, rfl⟩
    · simp [BatchRow.Named, BatchRow.field?, Entries.find?, second, Option.filter]
  have hrows : ∀ fields ∈ [first, second], BatchRow.Dated fields ∧ BatchRow.Named fields :=
    List.forall_mem_cons.mpr ⟨hfirst, List.forall_mem_singleton.mpr hsecond⟩
  obtain ⟨_, hsucceed, hengine⟩ := (batchSet_as_rowSets (rfl : attempt = _) 0).1 hrows
  have hdone : attempt.record?.isSome := by decide +zetaReduce
  have hchain : ¬ LateAnswer sets.1 := by
    have hcomplete : (sets.1.toOption.map fun response => response.failure.isNone) = some true := by
      decide +zetaReduce
    obtain ⟨response, hanswer, hfailure⟩ := Option.map_eq_some_iff.mp hcomplete
    rw [Except.toOption_eq_some_iff.mp hanswer]
    exact not_lateAnswer_of_complete (Option.isNone_iff_eq_none.mp hfailure)
  exact ⟨inTime_of_record hdone, hdone, hchain, hsucceed hdone hchain,
    hengine hdone (hsucceed hdone hchain)⟩

omit hattempt in
/-- A batch that is late has made its writes, and one with a row that names its table twice,
the second time by a number, makes none where the `set` of the row writes it. -/
theorem not_batchSet_as_rowSets :
    let keyspace : Keyspace := { replication := 1, tables := (∅ : Map String Rows).insert "t" ∅ }
    let store : NestedStore := { keyspaces := (∅ : Map String Keyspace).insert "ks" keyspace }
    let world : World Storage := ⟨{ store := .nested store }, { readings := fun _ => 0 }⟩
    let row : List (String × Value) := [("name", .text "a"), ("rowkey", .text "r"),
      ("table", .text "t"), ("timestamp", .int 1), ("value", .text "v")]
    let session := Session.start .one 1
    let late := attemptOf (runChain 0) [] none
      (.batchSet [row] { keyspace := "ks", timeout := some 0 }) [] session world
    let odd := ("columnfamily", .int 5) :: row
    let batch := Operation.batchSet [odd] { keyspace := "ks" }
    let unread := attemptOf (runChain 0) [] none batch [] session world
    late.record? = none ∧
      late.after.engine.store.contents.cells ≠ world.engine.store.contents.cells ∧
      unread.record? = none ∧ ∃ response after,
        (runFrom (runChain 0) [] none 0 [batch.rowSet odd] session).exec world =
          (.ok response, after) ∧ response.failure = none := by
  intro keyspace store world row session late odd batch unread
  have hchain : ∃ response after, (runFrom (runChain 0) [] none 0 [batch.rowSet odd] session).exec
      world = (.ok response, after) ∧ response.failure = none := by
    have hdone : (((runFrom (runChain 0) [] none 0 [batch.rowSet odd] session).exec
        world).1.toOption.map fun response => response.failure.isNone) = some true := by
      decide +zetaReduce
    obtain ⟨response, hanswer, hfailure⟩ := Option.map_eq_some_iff.mp hdone
    exact ⟨response, _, Prod.ext (Except.toOption_eq_some_iff.mp hanswer) rfl,
      Option.isNone_iff_eq_none.mp hfailure⟩
  exact ⟨by decide +zetaReduce, by decide +zetaReduce, by decide +zetaReduce, hchain⟩

end Attempt

end OperationChain
