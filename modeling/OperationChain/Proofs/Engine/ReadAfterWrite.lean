import OperationChain.Proofs.Engine.Columns

/-! # Reading after a write

A `set` that succeeds either puts its cell into its column or loses to a newer one. In the
first case a `get` answers the name and the value as they were written, for as long as they
live; in the second case, and for every other column, reads go on as if it had not happened.
-/

namespace OperationChain

/-- An operation that is about to be attempted, but for the engine. -/
structure Probe where
  nested : Nested Storage
  deadlines : Deadlines
  binds : Option Binds
  operation : Operation
  rest : List Operation
  session : Session
  clock : Clock

namespace Probe

/-- The attempt of the operation on an engine. -/
def on (probe : Probe) (engine : Engine Storage) : Attempt Storage :=
  attemptOf probe.nested probe.deadlines probe.binds probe.operation probe.rest probe.session
    ⟨engine, probe.clock⟩

/-- The operation is a `get` of the column that a `set` has named, under the types that the
`set` assumed and at a level at which the table can be read, and it answers whole rows. -/
structure Rereads (get : Probe) (set : Attempt Storage) : Prop where
  kind : get.operation.kind = .get
  column : (get.on set.after.engine).column = set.column
  assumptions : get.session.defaults.assumptions = set.session.defaults.assumptions
  filter : get.session.filter = none
  components : get.session.components = none
  readable : ∀ column, set.column = .ok column →
    set.after.engine.store.contents.check column.target
      (get.on set.after.engine).context.consistency true = .ok ()

variable {get : Probe} {engine : Engine Storage} {storage : Storage}

/-- A `get` notices no more of a store than the check of its table and its column. -/
theorem ending_congr (hkind : get.operation.kind = .get)
    (hcheck : ∀ target level, storage.contents.check target level true =
      engine.store.contents.check target level true)
    (hheld : ∀ column, (get.on engine).column = .ok column →
      storage.held column = engine.store.held column) :
    (get.on { engine with store := storage }).ending = (get.on engine).ending := by
  cases hargs : (get.on engine).args with
  | error error =>
      rw [((get.on engine).run_of_unresolved rfl hargs).1]
      exact ((get.on { engine with store := storage }).run_of_unresolved rfl hargs).1
  | ok args =>
      have hbody := timedRun?_of_get get.nested (get.on engine).context get.session
        ((Operation.resolve_kind hargs).trans hkind)
      let other : Engine Storage := { engine with store := storage }
      have hregistry : other.registry = engine.registry := rfl
      have hsame (deadlines : Deadlines) : Run.SameOn engine other
          (runGet (get.on engine).context args get.session deadlines) := by
        refine sameOn_runGet hregistry (fun column hcolumn now => ?_) deadlines
        have hfound : (get.on engine).column = .ok column := by
          rw [Attempt.column, hargs]
          exact hcolumn
        rw [Storage.read_column, Storage.read_column, hcheck, hheld column hfound]
      obtain ⟨result, after, hexec, hother⟩ :=
        Run.SameOn.within hsame (get.on engine).context.timeout get.deadlines get.clock
      have hresult := (congrArg Prod.fst hother).trans (congrArg Prod.fst hexec).symm
      rw [((get.on engine).run_of_timedRun rfl hargs hbody).1,
        ((get.on other).run_of_timedRun rfl hargs hbody).1]
      exact congrArg (Except.map _) hresult

end Probe

/-- A cell goes in the place of one that is not newer. -/
theorem Cell.over_of_le {cell : Cell} {held : Option Cell}
    (holder : ∀ existing ∈ held, existing.timestamp ≤ cell.timestamp) : cell.over held = cell := by
  cases held with
  | none => rfl
  | some existing => exact if_pos (holder existing rfl)

theorem Arguments.required_eq_ok_iff {args : Arguments} {key : String} {value : Value} :
    args.required key = .ok value ↔ args.get? key = some value := by
  rw [Arguments.required]
  cases args.get? key <;> simp

/-- An argument is one of those that were given. -/
theorem Arguments.exists_mem_of_required {args : Arguments} {key : String} {value : Value}
    (hvalue : args.required key = .ok value) : ∃ entry ∈ args.values, entry.2 = value := by
  obtain ⟨found, hfound, hnull⟩ := Option.bind_eq_some_iff.mp (required_eq_ok_iff.mp hvalue)
  split at hnull
  · cases hnull
  · cases hnull
    exact Entries.exists_mem_of_find? hfound

namespace Attempt

variable {nested : Nested Storage} {deadlines : Deadlines} {binds : Option Binds}
  {operation : Operation} {rest : List Operation} {session : Session} {world : World Storage}
  {set : Attempt Storage} {mutation : Mutation}

/-- What a `set` that succeeded wrote: the column and the value of its arguments, with its
timestamp and its time to live. -/
theorem mutation_of_args {args : Arguments} (hargs : set.args = .ok args)
    (hmutation : set.mutation = .ok mutation) :
    (∃ name, args.required "name" = .ok name ∧
        set.session.encodeName mutation.target name = .ok mutation.cell.name) ∧
      (∃ value, args.required "value" = .ok value ∧
        set.session.encodeValue mutation.target value = .ok mutation.cell.value) ∧
      (∀ timestamp, args.integer? "timestamp" = .ok (some timestamp) →
        mutation.cell.timestamp = timestamp) ∧
      (args.integer? "ttl" >>= set.context.ttlOf) = .ok mutation.cell.ttl := by
  rw [Attempt.mutation, hargs, Except.ok_bind, setMutation_eq_ok_iff] at hmutation
  obtain ⟨hcolumn, hvalue, ⟨given, hgiven, htimestamp⟩, seconds, hseconds, httl⟩ := hmutation
  refine ⟨(Arguments.column_eq_ok_iff.mp hcolumn).2.2, hvalue, fun timestamp hexplicit => ?_, ?_⟩
  · rw [hgiven] at hexplicit
    cases hexplicit
    exact (Except.ok.inj htimestamp).symm
  · rw [hseconds, Except.ok_bind, httl]

theorem column_of_mutation (hmutation : set.mutation = .ok mutation) :
    set.column = .ok mutation.column := by
  obtain ⟨args, hargs, hfound⟩ := Except.bind_eq_ok_iff.mp hmutation
  rw [Attempt.column, hargs, Except.ok_bind, (setMutation_eq_ok_iff.mp hfound).1]

section Written

variable (hset : set = attemptOf nested deadlines binds operation rest session world)
  (hkind : set.operation.kind = .set) (hmutation : set.mutation = .ok mutation)
  (hcheck : set.before.engine.store.contents.check mutation.target
    set.context.consistency false = .ok ())
include hset hkind hmutation hcheck

/-- A `get` finds the same after a `set` as before it, if its column holds the same. -/
theorem get_unaffected {get : Probe} (hget : get.operation.kind = .get)
    (hheld : ∀ column, (get.on set.before.engine).column = .ok column →
      (set.before.engine.store.applied mutation).held column =
        set.before.engine.store.held column) :
    (get.on set.after.engine).ending = (get.on set.before.engine).ending := by
  have hknown := TableStore.mem_of_check hcheck
  rw [set.engine_of_set hset hkind hmutation hcheck]
  exact Probe.ending_congr hget (fun target level => Storage.check_applied hknown target level true)
    hheld

theorem get_after_set_of_ne {get : Probe} (hget : get.operation.kind = .get)
    (hother : (get.on set.after.engine).column ≠ .ok mutation.column) :
    (get.on set.after.engine).ending = (get.on set.before.engine).ending := by
  have hknown := TableStore.mem_of_check hcheck
  refine get_unaffected hset hkind hmutation hcheck hget fun column hcolumn => ?_
  refine Storage.held_applied_of_ne hknown ?_
  rintro rfl
  rw [set.engine_of_set hset hkind hmutation hcheck] at hother
  exact hother hcolumn

/-- A `set` that comes too late is as if it had not been. -/
theorem get_after_set_of_newer {held : Cell}
    (hheld : set.before.engine.store.held mutation.column = some held)
    (hnewer : mutation.cell.timestamp < held.timestamp) {get : Probe}
    (hget : get.operation.kind = .get) :
    (get.on set.after.engine).ending = (get.on set.before.engine).ending := by
  have hknown := TableStore.mem_of_check hcheck
  refine get_unaffected hset hkind hmutation hcheck hget fun column _ => ?_
  by_cases hsame : column = mutation.column
  · rw [hsame, Storage.held_applied_self hknown, hheld, Cell.over,
      if_neg (Int64.not_le.mpr hnewer)]
  · exact Storage.held_applied_of_ne hknown hsame

theorem get_after_set_of_older
    (holder : ∀ held ∈ set.before.engine.store.held mutation.column,
      held.timestamp ≤ mutation.cell.timestamp) {get : Probe} (hget : get.Rereads set)
    {name value : Value}
    (hname : decode mutation.cell.name (set.session.assumed mutation.target.keyspace
      mutation.target.table .name) = .ok name)
    (hvalue : decode mutation.cell.value (set.session.assumed mutation.target.keyspace
      mutation.target.table .value) = .ok value) (hintime : (get.on set.after.engine).InTime) :
    (LivesAt mutation.cell.timestamp mutation.cell.ttl get.clock.next →
      (get.on set.after.engine).ending = .ok (.next
        (.rows [⟨some name, some value, some mutation.cell.timestamp, mutation.cell.ttl⟩])
        get.session)) ∧
      (¬ LivesAt mutation.cell.timestamp mutation.cell.ttl get.clock.next →
        (get.on set.after.engine).ending = .ok (.next (.rows []) get.session)) := by
  have hknown := TableStore.mem_of_check hcheck
  have hengine := set.engine_of_set hset hkind hmutation hcheck
  have hcolumn := hget.column.trans (set.column_of_mutation hmutation)
  have hreadable : set.after.engine.store.contents.check mutation.target
      (get.on set.after.engine).context.consistency true = .ok () :=
    hget.readable mutation.column (set.column_of_mutation hmutation)
  have hheld : set.after.engine.store.held mutation.column = some mutation.cell := by
    rw [hengine]
    refine (Storage.held_applied_self hknown).trans (congrArg some ?_)
    rw [Cell.over_of_le holder]
  have hassumed (role : Role) : get.session.assumed mutation.target.keyspace
      mutation.target.table role = set.session.assumed mutation.target.keyspace
        mutation.target.table role := by
    rw [Session.assumed, hget.assumptions, Session.assumed]
  have hending {record : Record} (hanswer : set.after.engine.answer
      (get.on set.after.engine).context.consistency get.session get.clock.next mutation.column =
        .ok record) : (get.on set.after.engine).ending = .ok (.next record get.session) :=
    ((get.on set.after.engine).ending_of_get_iff rfl hget.kind).mpr
      ⟨hintime, rfl, mutation.column, hcolumn, hanswer⟩
  constructor
  · intro hlive
    rw [← hassumed] at hname hvalue
    exact hending (Engine.answer_of_live hreadable hget.filter hget.components hheld hlive hname
      hvalue)
  · intro hdead
    refine hending (Engine.answer_of_dead hreadable hget.filter hget.components ?_)
    rw [hheld]
    rintro cell ⟨⟩
    exact hdead

end Written

theorem exists_mutation_of_set
    (hset : set = attemptOf nested deadlines binds operation rest session world)
    (hkind : set.operation.kind = .set) (hdone : set.record?.isSome) :
    ∃ mutation, set.mutation = .ok mutation ∧
      set.before.engine.store.contents.check mutation.target
        set.context.consistency false = .ok () := by
  obtain ⟨record, hrecord⟩ := Option.isSome_iff_exists.mp hdone
  rcases Attempt.ending_of_record hrecord with ⟨after, hending⟩ | hending
  · exact ((set.ending_of_set_iff hset hkind).mp hending).2.2.2
  · have hprepare := kind_of_ending_halt hset hending
    rw [← show set.operation = operation by rw [hset]; rfl, hkind] at hprepare
    cases hprepare

/-- After a `set` that succeeded with a timestamp of its own, a `get` of its column answers
one row while the cell lives and none afterwards, unless it is late: the name and the value as
they are read once they are written, the timestamp and the time to live. If the column held a
newer cell, and for every other column, a `get` ends as it would have ended without the
`set`. -/
theorem get_after_set
    (hset : set = attemptOf nested deadlines binds operation rest session world)
    (hkind : set.operation.kind = .set) (hdone : set.record?.isSome) {args : Arguments}
    (hargs : set.args = .ok args) {timestamp : Timestamp}
    (htimestamp : args.integer? "timestamp" = .ok (some timestamp))
    (hscale : ∀ entry ∈ args.values, entry.2.WordScale) :
    ∃ (column : Column) (name value : Value) (ttl : Option UInt32),
      set.column = .ok column ∧ args.required "name" = .ok name ∧
      args.required "value" = .ok value ∧
      (args.integer? "ttl" >>= set.context.ttlOf) = .ok ttl ∧
      ((∀ held ∈ set.before.engine.store.held column, held.timestamp ≤ timestamp) →
        ∃ name' value', set.session.reread column.target .name name = .ok name' ∧
          set.session.reread column.target .value value = .ok value' ∧
          ∀ get : Probe, get.Rereads set → (get.on set.after.engine).InTime →
            (LivesAt timestamp ttl get.clock.next → (get.on set.after.engine).ending =
              .ok (.next (.rows [⟨some name', some value', some timestamp, ttl⟩]) get.session)) ∧
            (¬ LivesAt timestamp ttl get.clock.next →
              (get.on set.after.engine).ending = .ok (.next (.rows []) get.session))) ∧
      ((∃ held ∈ set.before.engine.store.held column, timestamp < held.timestamp) →
        ∀ get : Probe, get.operation.kind = .get →
          (get.on set.after.engine).ending = (get.on set.before.engine).ending) ∧
      ∀ get : Probe, get.operation.kind = .get →
        (get.on set.after.engine).column ≠ .ok column →
          (get.on set.after.engine).ending = (get.on set.before.engine).ending := by
  obtain ⟨mutation, hmutation, hcheck⟩ := exists_mutation_of_set hset hkind hdone
  obtain ⟨⟨name, hname, hencodedName⟩, ⟨value, hvalue, hencodedValue⟩, hexplicit, httl⟩ :=
    mutation_of_args hargs hmutation
  obtain rfl := hexplicit timestamp htimestamp
  refine ⟨mutation.column, name, value, mutation.cell.ttl, set.column_of_mutation hmutation, hname,
    hvalue, httl, fun holder => ?_, ?_, fun get hget hother => ?_⟩
  · have hdecodes {key : String} {given : Value} {raw : Bytes} {assumed : Option DataType}
        (hgiven : args.required key = .ok given) (hraw : encode given assumed = .ok raw) :
        ∃ read, decode raw assumed = .ok read := by
      obtain ⟨entry, hentry, rfl⟩ := Arguments.exists_mem_of_required hgiven
      exact exists_decode_of_encode (hscale entry hentry) hraw
    obtain ⟨name', hname'⟩ := hdecodes hname hencodedName
    obtain ⟨value', hvalue'⟩ := hdecodes hvalue hencodedValue
    refine ⟨name', value', ?_, ?_, fun get hget => ?_⟩
    · exact (congrArg (· >>= _) hencodedName).trans hname'
    · exact (congrArg (· >>= _) hencodedValue).trans hvalue'
    · exact get_after_set_of_older hset hkind hmutation hcheck holder hget hname' hvalue'
  · rintro ⟨held, hheld, hnewer⟩ get hget
    exact get_after_set_of_newer hset hkind hmutation hcheck hheld hnewer hget
  · exact get_after_set_of_ne hset hkind hmutation hcheck hget hother

/-- A whole number that is written as eight bytes is read as that number, at a level at which
a replica has to answer even if none had to when it was written. -/
theorem get_after_set_long :
    let target : TableName := ⟨"ks", "t"⟩
    let engine : Engine Storage :=
      { store := .tables { keyspaces := [⟨"ks", 1⟩], tables := [target] } }
    let clock : Clock := { readings := fun _ => 8 }
    let session (consistency : Consistency) : Session := ({ defaults := {
      keyspace := some "ks", table := some "t", consistency } } : Session).assume
        "ks" "t" .value .long
    let named (kind : OperationKind) : Operation :=
      ({ kind : Operation }.literal "rowkey" (.bytes [1])).literal "name" (.bytes [2])
    let set := attemptOf (runChain 0) [] none
      (((named .set).literal "value" (.int (-5))).literal "timestamp" (.int 7)) []
      (session .any) ⟨engine, clock⟩
    let get : Probe := ⟨runChain 0, [], none, named .get, [], session .one, clock⟩
    (get.on set.after.engine).ending = .ok (.next
      (.rows [⟨some (.bytes [2]), some (.int (-5)), some 7, none⟩]) (session .one)) := by
  intro target engine clock session named set get
  have hargs : set.args = .ok ⟨.set, [("name", .bytes [2]), ("rowkey", .bytes [1]),
    ("timestamp", .int 7), ("value", .int (-5))]⟩ := rfl
  obtain ⟨column, name, value, ttl, hcolumn, hname, hvalue, httl, hlater, _⟩ :=
    get_after_set (rfl : set = attemptOf _ _ _ _ _ _ _) rfl rfl hargs rfl
      (by simp [Value.WordScale])
  cases hcolumn
  cases hname
  cases hvalue
  cases httl
  obtain ⟨name, value, hname, hvalue, hget⟩ := hlater (by rintro held ⟨⟩)
  cases hname
  cases hvalue
  have hrereads : get.Rereads set := by
    refine ⟨rfl, rfl, rfl, rfl, rfl, ?_⟩
    rintro column ⟨⟩
    rfl
  have hintime : (get.on set.after.engine).InTime := by rintro stop ⟨⟩
  exact (hget get hrereads hintime).1 (by rintro seconds ⟨⟩)

/-- Nothing is read at the level that needs no replica or without time, and what outlives the
last timestamp is taken to end there. -/
theorem get_after_set_refused :
    let target : TableName := ⟨"ks", "t"⟩
    let engine : Engine Storage :=
      { store := .tables { keyspaces := [⟨"ks", 1⟩], tables := [target] } }
    let clock : Clock := { readings := fun _ => Int64.maxValue }
    let session (consistency : Consistency) : Session :=
      { defaults := { keyspace := some "ks", table := some "t", consistency } }
    let named (kind : OperationKind) : Operation :=
      ({ kind : Operation }.literal "rowkey" (.bytes [1])).literal "name" (.bytes [2])
    let set (consistency : Consistency) := attemptOf (runChain 0) [] none
      ((((named .set).literal "value" (.bytes [3])).literal "timestamp"
        (.int Int64.maxValue)).literal "ttl" (.int 1)) [] (session consistency) ⟨engine, clock⟩
    let get (consistency : Consistency) : Probe :=
      ⟨runChain 0, [], none, named .get, [], session consistency, clock⟩
    (∀ consistency ∈ [Consistency.any, .one],
      (set consistency).ending = .ok (.next .ok (session consistency))) ∧
      engine.store.held ⟨target, [1], [2]⟩ = none ∧
      ((get .any).on (set .any).after.engine).ending = .error (.failed (.store .anyForRead)) ∧
      (({ get .one with operation.overrides.timeout := some 0 } : Probe).on
        (set .one).after.engine).ending = .error (.failed (.timeout 0)) ∧
      (clock.next.toInt < Int64.maxValue.toInt + 1 * 1000000 ∧
        ((get .one).on (set .one).after.engine).ending =
          .ok (.next (.rows []) (session .one))) := by
  intro target engine clock session named set get
  refine ⟨?_, rfl, rfl, rfl, by decide, rfl⟩
  intro consistency hconsistency
  simp only [List.mem_cons, List.not_mem_nil, or_false] at hconsistency
  rcases hconsistency with rfl | rfl <;> rfl

end Attempt

end OperationChain
