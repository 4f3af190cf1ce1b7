import OperationChain.Operation.Shorthand
import OperationChain.Proofs.Engine.Chains
import OperationChain.Proofs.Engine.ReadAfterWrite

/-! # Copying a column

A chain that reads a column, writes what it has read to another column of the table and reads
that one. What is read of any bytes can be written again and is read as the same value, but
for the values of no bytes that stand for none.
-/

namespace OperationChain

/-! ## Arguments of reads and writes -/

theorem Value.isMalformedMarker_of_encode {value : Value} {raw : Bytes} {assumed : Option DataType}
    (hencode : encode value assumed = .ok raw) : value.isMalformedMarker = false := by
  cases value with
  | map entries =>
      cases assumed with
      | none => cases hencode
      | some type => cases type <;> cases hencode
  | _ => rfl

theorem Value.isMalformedMarker_of_encodeNatural {value : Value} {raw : Bytes}
    (hencode : encodeNatural value = .ok raw) : value.isMalformedMarker = false :=
  isMalformedMarker_of_encode (show encode value none = .ok raw from hencode)

section Arguments

variable {rowkey name value : Value} {results : Results} {binds : Option Binds}
  {overrides : Overrides} {ctx : Context} {session : Session} {column : Column}

/-- The arguments that name a column by these values, and others behind them. -/
def Arguments.naming (kind : OperationKind) (rowkey name : Value) (more : List (String × Value)) :
    Arguments := ⟨kind, ("name", name) :: ("rowkey", rowkey) :: more⟩

namespace Arguments

variable (kind : OperationKind) (more : List (String × Value))

theorem get?_name : (naming kind rowkey name more).get? "name" =
    if name.isNull then none else some name := rfl

theorem get?_rowkey : (naming kind rowkey name more).get? "rowkey" =
    if rowkey.isNull then none else some rowkey := rfl

theorem column_naming (hcolumn : (naming .get rowkey name []).column ctx session = .ok column) :
    (naming kind rowkey name more).column ctx session = .ok column := by
  simp only [column_eq_ok_iff, required_eq_ok_iff] at hcolumn ⊢
  exact hcolumn

theorem encoded_of_column (hcolumn : (naming .get rowkey name []).column ctx session = .ok column) :
    encodeNatural rowkey = .ok column.rowkey ∧
      session.encodeName column.target name = .ok column.name := by
  simp only [column_eq_ok_iff, required_eq_ok_iff, get?_name, get?_rowkey,
    Option.ite_none_left_eq_some] at hcolumn
  obtain ⟨_, ⟨_, ⟨_, hkey⟩, hrowkey⟩, _, ⟨_, hgiven⟩, hname⟩ := hcolumn
  cases hkey
  cases hgiven
  exact ⟨hrowkey, hname⟩

end Arguments

theorem resolve_of_entries {operation : Operation} {values : List (String × Value)}
    (hvalues : resolveEntries results binds operation.params.entries = .ok values) :
    operation.resolve results binds = .ok ⟨operation.kind, values⟩ := by
  rw [Operation.resolve, hvalues]
  rfl

variable (hcolumn : (Arguments.naming .get rowkey name []).column ctx session = .ok column)
include hcolumn

theorem resolve_get : (Operation.get (.literal rowkey) (.literal name)).resolve results binds =
    .ok (.naming .get rowkey name []) := by
  obtain ⟨hrowkey, hname⟩ := Arguments.encoded_of_column hcolumn
  have hentries : (Operation.get (.literal rowkey) (.literal name)).params.entries =
    [("name", .literal name), ("rowkey", .literal rowkey)] := rfl
  refine resolve_of_entries ?_
  rw [hentries]
  simp [resolveEntries, Param.resolve, Value.isMalformedMarker_of_encodeNatural hrowkey,
    Value.isMalformedMarker_of_encode hname]

theorem resolve_set {target : Reference} (htarget : target.resolve results = .ok value) :
    (Operation.set (.literal rowkey) (.literal name) (.reference target)).resolve results binds =
      .ok (.naming .set rowkey name [("value", value)]) := by
  obtain ⟨hrowkey, hname⟩ := Arguments.encoded_of_column hcolumn
  have hentries : (Operation.set (.literal rowkey) (.literal name)
      (.reference target)).params.entries =
    [("name", .literal name), ("rowkey", .literal rowkey), ("value", .reference target)] := rfl
  refine resolve_of_entries ?_
  rw [hentries]
  simp [resolveEntries, Param.resolve, Value.isMalformedMarker_of_encodeNatural hrowkey,
    Value.isMalformedMarker_of_encode hname, htarget]

end Arguments

/-- A read that succeeds where a cell lives answers that cell. -/
theorem Engine.exists_decode_of_answer {engine : Engine Storage} {level : Consistency}
    {session : Session} {now : Timestamp} {column : Column} {cell : Cell} {record : Record}
    (hfilter : session.filter = none) (hcomponents : session.components = none)
    (hheld : engine.store.held column = some cell) (hlive : LivesAt cell.timestamp cell.ttl now)
    (hanswer : engine.answer level session now column = .ok record) :
    engine.store.contents.check column.target level true = .ok () ∧
      ∃ name value, decode cell.value
          (session.assumed column.target.keyspace column.target.table .value) = .ok value ∧
        record = .rows [⟨some name, some value, some cell.timestamp, cell.ttl⟩] := by
  have hfound : ((engine.store.held column).filter fun cell => cell.isLive now) = some cell := by
    rw [hheld]
    exact Option.filter_some_pos (Cell.isLive_iff.mpr hlive)
  obtain ⟨_, hcheck, hfinish⟩ := Except.bind_eq_ok_iff.mp hanswer
  rw [hfound, Option.toList_some, Session.finish_of_plain hfilter hcomponents] at hfinish
  obtain ⟨rows, hrows, hrecord⟩ := Except.map_eq_ok_iff.mp hfinish
  simp only [List.mapM_cons, List.mapM_nil, Session.decodeCell, Except.bind_eq_ok_iff] at hrows
  obtain ⟨row, ⟨name, _, value, hvalue, hrow⟩, _, hnil, hcons⟩ := hrows
  cases hrow
  cases hnil
  cases hcons
  exact ⟨hcheck, name, value, hvalue, hrecord.symm⟩

theorem resolve_value_of_row {results : Results} {row : Row} {value : Value}
    (hresults : results.get 0 = .ok (.rows [row])) (hvalue : row.value = some value) :
    (Reference.mk 0 (some "value")).resolve results = .ok value := by
  have hindex : (0 : Int64).toInt = 0 := rfl
  rw [Reference.resolve, hindex, hresults, Except.ok_bind]
  cases row
  cases hvalue
  rfl

/-- The operation with settings of its own. -/
def Operation.under (operation : Operation) (overrides : Overrides) : Operation :=
  { operation with overrides }

/-- Writes to a column the value that the first operation of the chain has read. -/
def Operation.copy (rowkey name : Value) : Operation :=
  .set (.literal rowkey) (.literal name) (.reference ⟨0, some "value"⟩)

section Copied

variable {set : Attempt Storage} {overrides : Overrides} {rowkey name value : Value}
  {destination : Column} {row : Row}
  (hoperation : set.operation = (Operation.copy rowkey name).under overrides)
  (hcolumn : (Arguments.naming .get rowkey name []).column set.context set.session =
    .ok destination)
include hoperation hcolumn

/-- A `get` behind a copy reads its destination. -/
theorem rereads_of_copy {get : Probe} {results : Results}
    (hget : get.operation = (Operation.get (.literal rowkey) (.literal name)).under overrides)
    (hsession : get.session = { set.session with results })
    (hbudget : set.after.engine.timeout = set.before.engine.timeout)
    (hset : set.column = .ok destination) (hfilter : set.session.filter = none)
    (hcomponents : set.session.components = none)
    (hreadable : set.after.engine.store.contents.check destination.target
      set.context.consistency true = .ok ()) : get.Rereads set := by
  have hcontext : (get.on set.after.engine).context = set.context := by
    change Context.of get.session get.operation set.after.engine.timeout = _
    rw [Attempt.context, hget, hsession, hbudget, hoperation]
    rfl
  have hargs : (get.on set.after.engine).args = .ok (.naming .get rowkey name []) := by
    change get.operation.resolve get.session.results get.binds = _
    rw [hget]
    exact resolve_get hcolumn
  refine ⟨?_, ?_, ?_, ?_, ?_, fun column hcolumn => ?_⟩
  · rw [hget]
    rfl
  · rw [hset, Attempt.column, hargs, Except.ok_bind, hcontext]
    change Arguments.column _ _ get.session = _
    rw [hsession]
    exact hcolumn
  · rw [hsession]
  · rw [hsession]
    exact hfilter
  · rw [hsession]
    exact hcomponents
  · rw [hset] at hcolumn
    cases hcolumn
    rw [hcontext]
    exact hreadable

variable (hresults : set.session.results.get 0 = .ok (.rows [row]))
  (hvalue : row.value = some value)
include hresults hvalue

theorem args_of_copy : set.args = .ok (.naming .set rowkey name [("value", value)]) := by
  rw [Attempt.args, hoperation]
  exact resolve_set hcolumn (resolve_value_of_row hresults hvalue)

theorem mutation_of_copy {written : Bytes} (hnull : value ≠ .null)
    (hwritten : set.session.encodeValue destination.target value = .ok written)
    (hauto : set.session.defaults.autoTimestamp = true) (httl : overrides.ttl = none) :
    set.mutation = .ok ⟨destination.target, destination.rowkey,
      ⟨destination.name, written, set.before.clock.next, none⟩⟩ := by
  rw [Attempt.mutation, args_of_copy hoperation hcolumn hresults hvalue, Except.ok_bind,
    setMutation_eq_ok_iff]
  refine ⟨Arguments.column_naming .set _ hcolumn, ⟨value, ?_, hwritten⟩, ⟨none, rfl, ?_⟩, none,
    rfl, ?_⟩
  · rw [Arguments.required_eq_ok_iff]
    cases value with
    | null => exact absurd rfl hnull
    | _ => rfl
  · exact if_pos hauto
  · change Except.ok set.operation.overrides.ttl = _
    rw [hoperation]
    exact congrArg Except.ok httl

theorem mutation_of_copy_null (hnull : value = .null) :
    set.mutation = .error (.validation (.missingParameter .set "value")) := by
  have hnaming := args_of_copy hoperation hcolumn hresults hvalue
  obtain ⟨htarget, ⟨key, hkey, hrowkey⟩, given, hgiven, hname⟩ :=
    Arguments.column_eq_ok_iff.mp (Arguments.column_naming .set [("value", value)] hcolumn)
  rw [Attempt.mutation, hnaming, Except.ok_bind, setMutation, htarget, Except.ok_bind, hkey,
    Except.ok_bind, hrowkey, Except.ok_bind, hgiven, Except.ok_bind, hname, Except.ok_bind, hnull]
  rfl

end Copied

section Copying

variable {nested : Nested Storage} {deadlines : Deadlines} {binds : Option Binds}
  {overrides : Overrides} {rowkey name value : Value} {destination : Column} {row : Row}
  {session : Session} {world : World Storage}

/-- The settings of operations with these settings of their own. -/
def Overrides.context (overrides : Overrides) (session : Session) (engine : Engine Storage) :
    Context := Context.of session { kind := .get, overrides } engine.timeout

/-- The second and the third operation of a chain that copies what its first has read. -/
def Operation.copyAndGet (overrides : Overrides) (rowkey name : Value) : List Operation :=
  [(Operation.copy rowkey name).under overrides,
    (Operation.get (.literal rowkey) (.literal name)).under overrides]

variable (hcolumn : (Arguments.naming .get rowkey name []).column
    (overrides.context session world.engine) session = .ok destination)
  (hresults : session.results.get 0 = .ok (.rows [row])) (hvalue : row.value = some value)
include hcolumn hresults hvalue

theorem exec_copyAndGet_null (hnull : value = .null) :
    ((runFrom nested deadlines binds 1 (Operation.copyAndGet overrides rowkey name)
      session).exec world).1 =
        .ok ⟨session.results.answers, some ⟨1, .validation (.missingParameter .set "value")⟩⟩ := by
  let set := attemptOf nested deadlines binds ((Operation.copy rowkey name).under overrides)
    [(Operation.get (.literal rowkey) (.literal name)).under overrides] session world
  have hmutation : set.mutation = .error (.validation (.missingParameter .set "value")) :=
    mutation_of_copy_null rfl hcolumn hresults hvalue hnull
  have hending : set.ending = .error (.failed (.validation (.missingParameter .set "value"))) :=
    set.ending_of_set_error rfl rfl hmutation
  have hfailed : set.error? = some (.validation (.missingParameter .set "value")) := by
    rw [Attempt.error?, hending]
  exact congrArg Prod.fst (exec_runFrom_of_failed rfl hfailed 1)

theorem exec_copyAndGet (hnull : value ≠ .null) {raw : Bytes}
    (hdecode : decode raw (session.assumed destination.target.keyspace destination.target.table
      .value) = .ok value)
    (hcheck : world.engine.store.contents.check destination.target
      (overrides.context session world.engine).consistency true = .ok ())
    (hintime : ¬ LateAnswer ((runFrom nested deadlines binds 1
      (Operation.copyAndGet overrides rowkey name) session).exec world).1)
    (hauto : session.defaults.autoTimestamp = true) (httl : overrides.ttl = none)
    (hfilter : session.filter = none) (hcomponents : session.components = none)
    (hscale : name.WordScale) (habsent : world.engine.store.held destination = none) :
    ∃ copy copied, ((runFrom nested deadlines binds 1 (Operation.copyAndGet overrides rowkey name)
      session).exec world).1 =
        .ok ⟨((session.results.capture 1 .ok).capture 2 (.rows [copy])).answers, none⟩ ∧
      copy.value = some copied ∧ value.Same copied := by
  obtain ⟨_, hwritable⟩ := TableStore.check_reading_iff.mp hcheck
  obtain ⟨written, copied, hwritten, hcopied, hsame⟩ := encode_of_decode hdecode hnull
  obtain ⟨name', hname⟩ := exists_decode_of_encode hscale (Arguments.encoded_of_column hcolumn).2
  let set := attemptOf nested deadlines binds ((Operation.copy rowkey name).under overrides)
    [(Operation.get (.literal rowkey) (.literal name)).under overrides] session world
  let mutation : Mutation :=
    ⟨destination.target, destination.rowkey, ⟨destination.name, written, world.clock.next, none⟩⟩
  have hmutation : set.mutation = .ok mutation :=
    mutation_of_copy rfl hcolumn hresults hvalue hnull hwritten hauto httl
  have hset : set.ending = .ok (.next .ok session) :=
    (set.ending_of_set_iff rfl rfl).mpr
      ⟨Attempt.inTime_of_exec_runFrom hintime, rfl, rfl, mutation, hmutation, hwritable⟩
  have hcolumn' : set.column = .ok destination := set.column_of_mutation hmutation
  let captured : Session := { session with results := session.results.capture 1 .ok }
  let get : Probe := ⟨nested, deadlines, binds,
    (Operation.get (.literal rowkey) (.literal name)).under overrides, [], captured,
    set.after.clock⟩
  have hengine := set.engine_of_set rfl rfl hmutation hwritable
  have hbudget : set.after.engine.timeout = set.before.engine.timeout := by rw [hengine]
  have hreadable : set.after.engine.store.contents.check destination.target
      set.context.consistency true = .ok () := by
    rw [hengine]
    exact (Storage.check_applied (TableStore.mem_of_check hwritable) _ _ true).trans hcheck
  have hrereads : get.Rereads set :=
    rereads_of_copy rfl hcolumn rfl rfl hbudget hcolumn' hfilter hcomponents hreadable
  rw [Operation.copyAndGet, exec_runFrom_of_next rfl hset] at hintime ⊢
  have hget := (set.get_after_set_of_older rfl rfl hmutation hwritable (by
    rw [show set.before.engine.store.held mutation.column = none from habsent]
    rintro held ⟨⟩) hrereads hname hcopied (Attempt.inTime_of_exec_runFrom hintime)).1
      (by rintro seconds ⟨⟩)
  refine ⟨⟨some name', some copied, some world.clock.next, none⟩, copied, ?_, rfl, hsame⟩
  rw [exec_runFrom_of_next rfl hget]
  rfl

end Copying

/-- Reads a column, writes what it has read to another one and reads that. -/
def Operation.copying (overrides : Overrides) (sourceKey sourceName rowkey name : Value) :
    List Operation :=
  (Operation.get (.literal sourceKey) (.literal sourceName)).under overrides ::
    Operation.copyAndGet overrides rowkey name

namespace Chain

variable {chain : Chain Storage} {overrides : Overrides}
  {sourceKey sourceName rowkey name : Value} {source destination : Column} {cell : Cell}
  {record : Record}

/-- The first operation of a copy, if it succeeds, answers the cell and changes nothing. -/
theorem exec_copying
    (hoperations : chain.operations =
      Operation.copying overrides sourceKey sourceName rowkey name)
    (hsource : (Arguments.naming .get sourceKey sourceName []).column
      (overrides.context chain.session chain.world.engine) chain.session = .ok source)
    (hfilter : chain.session.filter = none) (hcomponents : chain.session.components = none)
    (hheld : chain.world.engine.store.held source = some cell)
    (hlive : LivesAt cell.timestamp cell.ttl chain.world.clock.next)
    (hget : chain.attempts.Produced 0 record) :
    chain.world.engine.store.contents.check source.target
        (overrides.context chain.session chain.world.engine).consistency true = .ok () ∧
      ∃ column value clock,
        decode cell.value (chain.session.assumed source.target.keyspace source.target.table
          .value) = .ok value ∧
        record = .rows [⟨some column, some value, some cell.timestamp, cell.ttl⟩] ∧
        chain.run = (runFrom chain.nested chain.deadlines chain.binds 1
          (Operation.copyAndGet overrides rowkey name)
          { chain.session with results := (Results.ofLength 3).capture 0 record }).exec
            ⟨chain.world.engine, clock⟩ := by
  obtain ⟨get, hattempt, hrecord⟩ := hget
  obtain ⟨hsession, hbefore⟩ := attemptsFrom_zero hattempt
  obtain ⟨rest, hdrop, hof⟩ := exists_attemptOf hattempt
  rw [hoperations] at hdrop
  obtain ⟨hoperation, rfl⟩ := List.cons.inj hdrop
  have hkind : get.operation.kind = .get := by
    rw [← hoperation]
    rfl
  have hcontext : get.context = overrides.context chain.session chain.world.engine := by
    rw [Attempt.context, hsession, hbefore, ← hoperation]
    rfl
  have hcolumn : get.column = .ok source := by
    have hargs : get.args = .ok (.naming .get sourceKey sourceName []) := by
      rw [Attempt.args, ← hoperation]
      exact resolve_get hsource
    rw [Attempt.column, hargs, Except.ok_bind, hcontext, hsession]
    exact hsource
  rcases Attempt.ending_of_record hrecord with ⟨after, hending⟩ | hending
  · obtain ⟨_, rfl, column, hfound, hanswer⟩ :=
      (get.ending_of_get_iff hof hkind).mp hending
    rw [hcolumn] at hfound
    cases hfound
    rw [hcontext, hbefore, hsession] at hanswer
    obtain ⟨hcheck, column, value, hvalue, hrow⟩ :=
      Engine.exists_decode_of_answer hfilter hcomponents hheld hlive hanswer
    refine ⟨hcheck, column, value, get.after.clock, hvalue, hrow, ?_⟩
    have hengine : get.after.engine = get.before.engine := (get.run_of_get hof hkind).2
    have hresults : get.session.results = Results.ofLength 3 := by
      rw [hsession, chain.fresh, hoperations]
      rfl
    rw [Chain.run, hoperations, Operation.copying, hoperation, ← hsession, ← hbefore, ← hengine,
      exec_runFrom_of_next hof hending, hresults]
  · have hprepare := kind_of_ending_halt hof hending
    rw [hkind] at hprepare
    cases hprepare

/-- Copying a live cell to a column that holds none, under the time of the clock. If the
cell is read as a value, then the chain goes through, unless it is late, and the last row has
that value, with the same bits if it is a float and up to the scale if it is a decimal. If the
cell is read as no value, then there is nothing to write and the chain stops at its `set`. -/
theorem run_of_copying
    (hoperations : chain.operations =
      Operation.copying overrides sourceKey sourceName rowkey name)
    (hsource : (Arguments.naming .get sourceKey sourceName []).column
      (overrides.context chain.session chain.world.engine) chain.session = .ok source)
    (hdestination : (Arguments.naming .get rowkey name []).column
      (overrides.context chain.session chain.world.engine) chain.session = .ok destination)
    (hscale : name.WordScale) (hauto : chain.session.defaults.autoTimestamp = true)
    (httl : overrides.ttl = none) (hfilter : chain.session.filter = none)
    (hcomponents : chain.session.components = none)
    (hheld : chain.world.engine.store.held source = some cell)
    (hlive : LivesAt cell.timestamp cell.ttl chain.world.clock.next)
    (habsent : chain.world.engine.store.held destination = none)
    (hget : chain.attempts.Produced 0 record) :
    ∃ row value, record = .rows [row] ∧ row.value = some value ∧
      decode cell.value (chain.session.assumed source.target.keyspace source.target.table
        .value) = .ok value ∧
      (value ≠ .null → ¬ LateAnswer chain.run.1 → ∃ copy copied,
        chain.run.1 = .ok ⟨[(0, record), (1, .ok), (2, .rows [copy])], none⟩ ∧
          copy.value = some copied ∧ value.Same copied) ∧
      (value = .null → chain.run.1 =
        .ok ⟨[(0, record)], some ⟨1, .validation (.missingParameter .set "value")⟩⟩) := by
  obtain ⟨hcheck, column, value, clock, hvalue, rfl, hrun⟩ :=
    exec_copying hoperations hsource hfilter hcomponents hheld hlive hget
  have htarget : source.target = destination.target :=
    Except.ok.inj ((Arguments.column_eq_ok_iff.mp hsource).1.symm.trans
      (Arguments.column_eq_ok_iff.mp hdestination).1)
  rw [hrun]
  refine ⟨_, value, rfl, rfl, hvalue, fun hnull hintime => ?_, fun hnull => ?_⟩
  · rw [htarget] at hvalue hcheck
    exact exec_copyAndGet hdestination rfl rfl hnull hvalue hcheck hintime hauto httl hfilter
      hcomponents hscale habsent
  · exact exec_copyAndGet_null hdestination rfl rfl hnull

/-- A copy of the column `2` of a table of long integers, which holds these bytes, to the
column `3`. -/
def copyingLong (raw : Bytes) : Chain Storage where
  nested := runChain 0
  deadlines := []
  binds := none
  operations := Operation.copying {} (.bytes [1]) (.bytes [2]) (.bytes [1]) (.bytes [3])
  session := ({
    defaults := { keyspace := some "ks", table := some "t", consistency := .one
                  autoTimestamp := true }
    results := .ofLength 3 } : Session).assume "ks" "t" .value .long
  world := {
    engine := {
      store := .tables {
        keyspaces := [⟨"ks", 1⟩], tables := [⟨"ks", "t"⟩]
        cells := [⟨⟨"ks", "t"⟩, [1], ⟨[2], raw, 7, none⟩⟩] } }
    clock := { readings := fun _ => 8 } }
  fresh := rfl

theorem run_of_copying_minus_five :
    ∃ copy copied, (copyingLong [255, 255, 255, 255, 255, 255, 255, 251]).run.1 =
        .ok ⟨[(0, .rows [⟨some (.bytes [2]), some (.int (-5)), some 7, none⟩]), (1, .ok),
          (2, .rows [copy])], none⟩ ∧
      copy.value = some copied ∧ (Value.int (-5)).Same copied := by
  let chain := copyingLong [255, 255, 255, 255, 255, 255, 255, 251]
  have hget : chain.attempts.Produced 0
      (.rows [⟨some (.bytes [2]), some (.int (-5)), some 7, none⟩]) := ⟨_, rfl, rfl⟩
  obtain ⟨row, value, hrow, hvalue, _, hcopied, _⟩ :=
    run_of_copying (rfl : chain.operations = _) rfl rfl trivial rfl rfl rfl rfl rfl
      (by rintro seconds ⟨⟩) rfl hget
  cases hrow
  cases hvalue
  have hrun : chain.run.1.toOption.map Response.failure = some none := rfl
  refine hcopied (by simp) fun hlate => ?_
  cases hresult : chain.run.1 with
  | error stop =>
      rw [hresult] at hrun
      cases hrun
  | ok response =>
      rw [hresult] at hrun hlate
      cases hlate
      cases hrun

/-- No bytes are read as no value, which cannot be written. -/
theorem run_of_copying_empty :
    let chain := copyingLong []
    let column (name : UInt8) : Column := ⟨⟨"ks", "t"⟩, [1], [name]⟩
    let row : Row := ⟨some (.bytes [2]), some .null, some 7, none⟩
    chain.session.defaults.autoTimestamp = true ∧ chain.session.filter = none ∧
      chain.session.components = none ∧
      chain.world.engine.store.held (column 2) = some ⟨[2], [], 7, none⟩ ∧
      LivesAt 7 none chain.world.clock.next ∧
      chain.world.engine.store.held (column 3) = none ∧
      chain.attempts.Produced 0 (.rows [row]) ∧
      chain.run.1 = .ok ⟨[(0, .rows [row])],
        some ⟨1, .validation (.missingParameter .set "value")⟩⟩ :=
  ⟨rfl, rfl, rfl, rfl, by rintro seconds ⟨⟩, rfl, ⟨_, rfl, rfl⟩, rfl⟩

end Chain

end OperationChain
