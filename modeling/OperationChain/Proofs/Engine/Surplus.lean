import OperationChain.Proofs.Engine.Operation
import OperationChain.Proofs.Ordered.Map
import OperationChain.Store.Nested
import Mathlib.Data.List.Forall2

/-! # Parameters that nobody reads

Each kind of operation reads its parameters under keys of its own. A literal under any
other key is resolved and then forgotten, so that a chain that carries such literals runs
as it runs without them. A `prepare` is the exception: it keeps the operations after it
with all that they carry.
-/

namespace OperationChain

variable {σ : Type}

/-- The keys under which a kind reads its parameters. -/
def OperationKind.parameters : OperationKind → List String
  | .set => ["rowkey", "name", "value", "timestamp", "ttl"]
  | .get => ["rowkey", "name"]
  | .slice => ["rowkey", "start", "end", "limit"]
  | .sliceByNames => ["rowkey", "names"]
  | .batchSet => ["rows"]
  | .counter => ["rowkey", "name", "delta"]
  | .createKeyspace => ["name", "keyspace", "replication"]
  | .createTable => ["name", "table", "columnfamily", "keyspace"]
  | .listTables | .setKeyspace => ["keyspace"]
  | .setTable => ["table", "columnfamily"]
  | .setConsistency => ["level"]
  | .setAutoTimestamp => ["enabled"]
  | .assume => ["keyspace", "table", "columnfamily", "role", "type"]
  | .createProcessor | .createMultiProcessor | .createFilter | .createServiceProcess =>
    ["name", "loader", "source"]
  | .process => ["name", "input"]
  | .multiProcess => ["name", "params", "inputs"]
  | .serviceProcess => ["name", "params"]
  | .filterMode => ["enabled", "name"]
  | .query => ["statement", "version", "convert"]
  | .executePrepared => ["id", "binds"]
  | .restoreState => ["id"]
  | .clear => ["index"]
  | .componentSelect => ["components"]
  | .listKeyspaces | .prepare | .saveState | .unknown _ => []

/-! ## Arguments -/

namespace Arguments

/-- The arguments without those that their kind does not read. -/
def pertinent (args : Arguments) : Arguments :=
  ⟨args.kind, args.values.filter fun entry => args.kind.parameters.contains entry.1⟩

variable {args : Arguments} {key : String}

@[simp] theorem pertinent_kind (args : Arguments) : args.pertinent.kind = args.kind := rfl

variable (hkey : args.kind.parameters.contains key = true)
include hkey

theorem get?_pertinent : args.pertinent.get? key = args.get? key := by
  rw [get?, get?, pertinent, Entries.find?_filter args.kind.parameters.contains hkey]

theorem required_pertinent : args.pertinent.required key = args.required key := by
  rw [required, required, get?_pertinent hkey]
  rfl

theorem optional_pertinent {α : Type} (read : Value → Except Error α) :
    args.pertinent.optional key read = args.optional key read := by
  rw [optional, optional, get?_pertinent hkey]

theorem needed_pertinent {α : Type} (read : Value → Except Error α) :
    args.pertinent.needed key read = args.needed key read := by
  rw [needed, needed, required_pertinent hkey]

theorem text?_pertinent : args.pertinent.text? key = args.text? key :=
  optional_pertinent hkey _

theorem text_pertinent : args.pertinent.text key = args.text key := needed_pertinent hkey _

theorem integer?_pertinent : args.pertinent.integer? key = args.integer? key :=
  optional_pertinent hkey _

theorem integer_pertinent : args.pertinent.integer key = args.integer key :=
  needed_pertinent hkey _

theorem boolean?_pertinent : args.pertinent.boolean? key = args.boolean? key :=
  optional_pertinent hkey _

theorem list_pertinent : args.pertinent.list key = args.list key := needed_pertinent hkey _

theorem map_pertinent : args.pertinent.map key = args.map key :=
  congrArg _ (optional_pertinent hkey _)

theorem handle_pertinent : args.pertinent.handle key = args.handle key := by
  rw [handle, handle, integer_pertinent hkey]

theorem sliceBound_pertinent (session : Session) (target : TableName) :
    sliceBound args.pertinent session target key = sliceBound args session target key := by
  rw [sliceBound, sliceBound, get?_pertinent hkey]

omit hkey

theorem table?_pertinent (htable : args.kind.parameters.contains "table" = true)
    (hfamily : args.kind.parameters.contains "columnfamily" = true) :
    args.pertinent.table? = args.table? := by
  rw [table?, table?, text?_pertinent htable, text?_pertinent hfamily]

theorem keyspaceOf_pertinent (hkey : args.kind.parameters.contains "keyspace" = true)
    (ctx : Context) : ctx.keyspaceOf args.pertinent = ctx.keyspaceOf args := by
  rw [Context.keyspaceOf, Context.keyspaceOf, text?_pertinent hkey]

theorem tableOf_pertinent (htable : args.kind.parameters.contains "table" = true)
    (hfamily : args.kind.parameters.contains "columnfamily" = true) (ctx : Context) :
    ctx.tableOf args.pertinent = ctx.tableOf args := by
  rw [Context.tableOf, Context.tableOf, table?_pertinent htable hfamily]

end Arguments

/-! ## What a kind reads -/

section Kinds

open Arguments

theorem administer?_pertinent (registry : Registry) (ctx : Context) (args : Arguments) :
    administer? registry ctx args.pertinent = administer? registry ctx args := by
  obtain ⟨kind, values⟩ := args
  cases kind <;> simp only [administer?, pertinent_kind]
  case setKeyspace => rw [text_pertinent rfl]
  case setTable => rw [table?_pertinent rfl rfl]
  case setConsistency => rw [text_pertinent rfl]
  case setAutoTimestamp => rw [boolean?_pertinent rfl]
  case assume =>
    rw [keyspaceOf_pertinent rfl, tableOf_pertinent rfl rfl, text_pertinent rfl,
      text_pertinent rfl]
  case filterMode => rw [boolean?_pertinent rfl, text_pertinent rfl]
  case componentSelect => rw [list_pertinent rfl]
  case clear => rw [integer_pertinent rfl]

theorem registerCapability_pertinent (registry : Registry) {shape : Shape} {args : Arguments}
    (hshape : registeredShape? args.kind = some shape) :
    registerCapability registry shape args.pertinent = registerCapability registry shape args := by
  have hkeys : args.kind.parameters = ["name", "loader", "source"] := by
    cases hkind : args.kind <;> rw [hkind] at hshape <;> cases hshape <;> rfl
  have hkey (key : String) (hmem : ["name", "loader", "source"].contains key = true) :
      args.kind.parameters.contains key = true := by rwa [hkeys]
  rw [registerCapability, registerCapability, text_pertinent (hkey "name" rfl),
    text?_pertinent (hkey "loader" rfl), text_pertinent (hkey "source" rfl)]

variable [Store σ]

theorem dataRun?_pertinent (ctx : Context) (args : Arguments) (session : Session) :
    (dataRun? ctx args.pertinent session : Option (Deadlines → Run σ Record)) =
      dataRun? ctx args session := by
  obtain ⟨kind, values⟩ := args
  cases kind <;> simp only [dataRun?, pertinent_kind]
  all_goals refine congrArg some (funext fun _ => ?_)
  case set =>
    have hmutation : setMutation ctx (pertinent ⟨.set, values⟩) session =
        setMutation ctx ⟨.set, values⟩ session := by
      funext now
      rw [setMutation, setMutation, required_pertinent rfl, required_pertinent rfl,
        required_pertinent rfl, integer?_pertinent rfl, integer?_pertinent rfl]
    rw [runSet, runSet, hmutation]
  case get => rw [runGet, runGet, required_pertinent rfl, required_pertinent rfl]
  case slice =>
    have hrange : sliceRange (pertinent ⟨.slice, values⟩) session =
        sliceRange ⟨.slice, values⟩ session := by
      funext target
      rw [sliceRange, sliceRange, integer?_pertinent rfl, sliceBound_pertinent rfl,
        sliceBound_pertinent rfl]
    rw [runSlice, runSlice, hrange, required_pertinent rfl]
  case sliceByNames =>
    rw [runSliceByNames, runSliceByNames, list_pertinent rfl, required_pertinent rfl]
  case batchSet => rw [runBatchSet, runBatchSet, list_pertinent rfl]
  case counter =>
    rw [runCounter, runCounter, required_pertinent rfl, required_pertinent rfl,
      integer?_pertinent rfl]
  case createKeyspace =>
    rw [runCreateKeyspace, runCreateKeyspace, text?_pertinent rfl, text_pertinent rfl,
      integer?_pertinent rfl]
  case createTable =>
    rw [runCreateTable, runCreateTable, text?_pertinent rfl, table?_pertinent rfl rfl,
      keyspaceOf_pertinent rfl]
  case listTables => rw [runListTables, runListTables, keyspaceOf_pertinent rfl]
  case query =>
    rw [runQuery, runQuery, text_pertinent rfl, text?_pertinent rfl, boolean?_pertinent rfl]

theorem timedRun?_pertinent (nested : Nested σ) (ctx : Context) (args : Arguments)
    (session : Session) :
    timedRun? nested ctx args.pertinent session = timedRun? nested ctx args session := by
  have hdata : (dataRun? ctx args.pertinent session : Option (Deadlines → Run σ Record)) =
      dataRun? ctx args session := dataRun?_pertinent ctx args session
  obtain ⟨kind, values⟩ := args
  cases kind <;> simp only [timedRun?, pertinent_kind]
  case executePrepared =>
    simp only [runExecutePrepared]
    rw [handle_pertinent rfl, get?_pertinent rfl]
  case process =>
    simp only [runProcess]
    rw [text_pertinent rfl, integer_pertinent rfl]
  case multiProcess =>
    have hinputs : combinerInputs (pertinent ⟨.multiProcess, values⟩) session =
        combinerInputs ⟨.multiProcess, values⟩ session := by
      rw [combinerInputs, combinerInputs, get?_pertinent rfl, list_pertinent rfl]
    simp only [runMultiProcess]
    rw [text_pertinent rfl, map_pertinent rfl, hinputs]
  case serviceProcess =>
    simp only [runServiceProcess]
    rw [text_pertinent rfl, map_pertinent rfl]
  all_goals rw [hdata]

/-- An operation does not read the arguments that its kind does not read. -/
theorem runResolved_pertinent (nested : Nested σ) (deadlines : Deadlines) (ctx : Context)
    (args : Arguments) (rest : List Operation) (session : Session) :
    runResolved nested deadlines ctx args.pertinent rest session =
      runResolved nested deadlines ctx args rest session := by
  have hrestore (hkind : args.kind = .restoreState) :
      (runRestoreState args.pertinent session : Run σ Step) = runRestoreState args session := by
    rw [runRestoreState, runRestoreState, handle_pertinent (by rw [hkind]; rfl)]
  unfold runResolved
  simp only [pertinent_kind, administer?_pertinent, timedRun?_pertinent]
  split
  · rfl
  · rfl
  · rfl
  next hkind => exact hrestore hkind
  · split
    next hshape =>
      simp only [runRegister, registerCapability_pertinent _ hshape]
    · rfl

end Kinds

/-! ## Resolution -/

/-- An operation with literals more, under keys that its kind does not read. -/
structure Operation.ExtendedBy (operation extended : Operation) : Prop where
  kind : extended.kind = operation.kind
  overrides : extended.overrides = operation.overrides
  kept : ∀ key param, operation.params.find? key = some param →
    extended.params.find? key = some param
  added : ∀ key param, extended.params.find? key = some param →
    operation.params.find? key = none →
    key ∉ operation.kind.parameters ∧
      ∃ value, param = .literal value ∧ value.isMalformedMarker = false

theorem resolveEntries_filter {results : Results} {binds : Option Binds} (keep : String → Bool)
    {entries : List (String × Param)}
    (hadded : ∀ entry ∈ entries, keep entry.1 = false →
      ∃ value, entry.2 = .literal value ∧ value.isMalformedMarker = false) :
    resolveEntries results binds (entries.filter fun entry => keep entry.1) =
      (resolveEntries results binds entries).map fun values =>
        values.filter fun entry => keep entry.1 := by
  induction entries with
  | nil => rfl
  | cons head rest ih =>
      obtain ⟨hhead, hrest⟩ := List.forall_mem_cons.mp hadded
      obtain ⟨key, param⟩ := head
      rw [List.filter_cons, resolveEntries]
      cases hkeep : keep key with
      | true =>
          rw [if_pos rfl, resolveEntries, ih hrest]
          cases param.resolve results binds with
          | error error => rfl
          | ok value =>
              cases resolveEntries results binds rest with
              | error error => rfl
              | ok values => simp [Except.map, hkeep]
      | false =>
          obtain ⟨value, hparam, hmarker⟩ := hhead hkeep
          have hvalue : param.resolve results binds = .ok value := by
            cases hparam
            rw [Param.resolve, if_neg (by rw [hmarker]; decide)]
          rw [if_neg (by decide), hvalue, ih hrest]
          cases resolveEntries results binds rest with
          | error error => rfl
          | ok values => simp [Except.map, hkeep]

namespace Operation.ExtendedBy

variable {operation extended : Operation} {key : String} {value : Value}

theorem literal (hunread : key ∉ operation.kind.parameters)
    (habsent : operation.params.find? key = none) (hmarker : value.isMalformedMarker = false) :
    operation.ExtendedBy (operation.literal key value) where
  kind := rfl
  overrides := rfl
  kept other param hparam := by
    have hne : other ≠ key := by
      rintro rfl
      rw [habsent] at hparam
      cases hparam
    exact (Map.find?_insert_of_ne hne).trans hparam
  added other param hparam hother := by
    by_cases hkey : other = key
    · rw [hkey, Operation.literal, Operation.param, Map.find?_insert_self] at hparam
      cases hparam
      exact ⟨hkey ▸ hunread, value, rfl, hmarker⟩
    · rw [Operation.literal, Operation.param, Map.find?_insert_of_ne hkey, hother] at hparam
      cases hparam

variable (hextended : operation.ExtendedBy extended)
include hextended

theorem entries_filter :
    extended.params.entries.filter (fun entry =>
        operation.kind.parameters.contains entry.1 || operation.params.contains entry.1) =
      operation.params.entries := by
  refine Entries.eq_of_mem_iff (extended.params.ascending.filter _) operation.params.ascending ?_
  rintro ⟨key, param⟩
  rw [List.mem_filter, Map.mem_entries_iff, Map.mem_entries_iff]
  constructor
  · rintro ⟨hfound, hkeep⟩
    cases hbefore : operation.params.find? key with
    | some before => rw [← hfound, hextended.kept key before hbefore]
    | none =>
        obtain ⟨hunread, -⟩ := hextended.added key param hfound hbefore
        simp [Map.contains, hbefore, hunread] at hkeep
  · intro hfound
    exact ⟨hextended.kept key param hfound, by simp [Map.contains, hfound]⟩

/-- Both operations have the same arguments, as far as their kind reads them, or none for
the same reason. -/
theorem resolve_pertinent (results : Results) (binds : Option Binds) :
    (extended.resolve results binds).map Arguments.pertinent =
      (operation.resolve results binds).map Arguments.pertinent := by
  have hadded : ∀ entry ∈ extended.params.entries,
      (operation.kind.parameters.contains entry.1 || operation.params.contains entry.1) = false →
      ∃ value, entry.2 = .literal value ∧ value.isMalformedMarker = false := by
    rintro ⟨key, param⟩ hentry hkeep
    rw [Bool.or_eq_false_iff, Map.contains, Option.isSome_eq_false_iff, Option.isNone_iff_eq_none]
      at hkeep
    exact (hextended.added key param (Map.mem_entries_iff.mp hentry) hkeep.2).2
  have hfilter (values : List (String × Value)) :
      (values.filter fun entry => operation.kind.parameters.contains entry.1 ||
          operation.params.contains entry.1).filter
        (fun entry => operation.kind.parameters.contains entry.1) =
      values.filter fun entry => operation.kind.parameters.contains entry.1 := by
    rw [List.filter_filter]
    refine List.filter_congr fun entry _ => ?_
    cases operation.kind.parameters.contains entry.1 <;> rfl
  rw [Operation.resolve, Operation.resolve, ← hextended.entries_filter,
    resolveEntries_filter (fun key => operation.kind.parameters.contains key ||
      operation.params.contains key) hadded, hextended.kind]
  cases resolveEntries results binds extended.params.entries with
  | error error => rfl
  | ok values => simp only [Except.map, Arguments.pertinent, hfilter]

end Operation.ExtendedBy

/-! ## Chains -/

section Chains

variable [Store σ]

theorem runOperation_pertinent (nested : Nested σ) (deadlines : Deadlines) (operation : Operation)
    (rest : List Operation) (session : Session) (binds : Option Binds) :
    runOperation nested deadlines operation rest session binds = (do
      let engine ← Run.engine
      let args ← Run.lift ((operation.resolve session.results binds).map Arguments.pertinent)
      runResolved nested deadlines (Context.of session operation engine.timeout) args rest
        session) := by
  unfold runOperation
  refine congrArg _ (funext fun engine => ?_)
  cases operation.resolve session.results binds with
  | error error => rfl
  | ok args => rw [Except.map, Run.lift_ok_bind, Run.lift_ok_bind, runResolved_pertinent]

variable {operation extended : Operation} {operations others : List Operation}

theorem Operation.ExtendedBy.runOperation (hextended : operation.ExtendedBy extended)
    (hkind : operation.kind ≠ .prepare) (nested : Nested σ) (deadlines : Deadlines)
    (rest rest' : List Operation) (session : Session) (binds : Option Binds) :
    OperationChain.runOperation nested deadlines extended rest' session binds =
      OperationChain.runOperation nested deadlines operation rest session binds := by
  have hcontext (timeout : UInt64) :
      Context.of session extended timeout = Context.of session operation timeout := by
    rw [Context.of, Context.of, hextended.overrides]
  rw [runOperation_pertinent, runOperation_pertinent, hextended.resolve_pertinent]
  refine congrArg _ (funext fun engine => ?_)
  rw [hcontext]
  cases hargs : operation.resolve session.results binds with
  | error error => rw [Except.map, Run.lift_error_bind, Run.lift_error_bind]
  | ok args =>
      have hargs' : args.pertinent.kind ≠ .prepare := by
        rw [Arguments.pertinent_kind, Operation.resolve_kind hargs]
        exact hkind
      rw [Except.map, Run.lift_ok_bind, Run.lift_ok_bind, runResolved_rest nested deadlines hargs']

theorem runFrom_of_extended (hextended : List.Forall₂ Operation.ExtendedBy operations others)
    (hkinds : ∀ operation ∈ operations, operation.kind ≠ .prepare) (nested : Nested σ)
    (deadlines : Deadlines) (binds : Option Binds) (index : Nat) (session : Session) :
    runFrom nested deadlines binds index others session =
      runFrom nested deadlines binds index operations session := by
  induction hextended generalizing index session with
  | nil => rfl
  | cons hhead _ ih =>
      obtain ⟨hkind, hkinds⟩ := List.forall_mem_cons.mp hkinds
      rw [runFrom, runFrom, hhead.runOperation hkind]
      refine congrArg _ (funext fun ending => ?_)
      cases ending with
      | error stop => cases stop <;> rfl
      | ok step =>
          cases step with
          | next record after => exact ih hkinds _ _
          | halt record => rfl
          | failed error after => rfl

/-- A chain without `prepare` runs as it does with literals that nobody reads: it gives the
same answer and leaves the same world, or stops for the same reason. -/
theorem runChain_of_extended (hextended : List.Forall₂ Operation.ExtendedBy operations others)
    (hkinds : ∀ operation ∈ operations, operation.kind ≠ .prepare) (depth : Nat)
    (deadlines : Deadlines) (session : Session) (binds : Option Binds) :
    (runChain depth : Nested σ) deadlines others session binds =
      runChain depth deadlines operations session binds := by
  cases depth with
  | zero => rfl
  | succ depth => exact runFrom_of_extended hextended hkinds _ _ _ _ _

/-- Literals that nobody reads make no difference to a request without `prepare`: its answer
is the same, and so are the store, the registry and the handles after it. -/
theorem Engine.execute_of_extended {request : Request}
    (hextended : List.Forall₂ Operation.ExtendedBy request.operations others)
    (hkinds : ∀ operation ∈ request.operations, operation.kind ≠ .prepare) (engine : Engine σ)
    (clock : Clock) (depth : Nat) :
    engine.execute clock depth { request with operations := others } =
      engine.execute clock depth request := by
  have hstart : engine.startSession { request with operations := others } =
      engine.startSession request := by
    rw [startSession, startSession, hextended.length_eq]
  rw [execute, execute, hstart]
  cases engine.startSession request with
  | error error => rfl
  | ok session =>
      dsimp only
      rw [runChain_of_extended hextended hkinds]

/-- A keyspace is created, and a list of tables fails. -/
theorem Engine.execute_of_extended_name :
    let create := Operation.literal { kind := .createKeyspace } "name" (.text "ks")
    let list := Operation.literal { kind := .listTables } "keyspace" (.text "other")
    let request : Request := { operations := [create, list] }
    let others := [create.literal "table" (.text "t"), list.literal "name" (.list [.null])]
    let engine : Engine NestedStore := { store := {} }
    let clock : Clock := { readings := fun _ => 0 }
    List.Forall₂ Operation.ExtendedBy request.operations others ∧
      (∀ operation ∈ request.operations, operation.kind ≠ .prepare) ∧
      engine.execute clock 1 { request with operations := others } =
        engine.execute clock 1 request := by
  intro create list request others engine clock
  have hcreate : create.ExtendedBy (create.literal "table" (.text "t")) :=
    .literal (by decide) rfl rfl
  have hlist : list.ExtendedBy (list.literal "name" (.list [.null])) := .literal (by decide) rfl rfl
  have hextended : List.Forall₂ Operation.ExtendedBy request.operations others :=
    .cons hcreate (.cons hlist .nil)
  have hkinds : ∀ operation ∈ request.operations, operation.kind ≠ .prepare := by decide
  exact ⟨hextended, hkinds, execute_of_extended hextended hkinds engine clock 1⟩

end Chains

end OperationChain
