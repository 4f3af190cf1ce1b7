import OperationChain.Proofs.DataType.Identity
import OperationChain.Proofs.Engine.Batches

/-! # Names that address one column

Operations name a column by a value, which a type assumed for names turns into bytes. Two
values address one column of a row if and only if they are alike: equal, and of one form. An
operation does not notice which of two such values it is given.
-/

namespace OperationChain

variable {σ : Type} [Store σ]

/-! ## Columns that values address -/

/-- A column that is addressed by a value: by an argument of an operation on one column, or by
a field of a row of a batch. -/
inductive Session.Addresses (session : Session) (ctx : Context) : Value → Column → Prop where
  | argument {args : Arguments} {name : Value} {column : Column}
      (hname : args.required "name" = .ok name)
      (hcolumn : args.column ctx session = .ok column) : Addresses session ctx name column
  | field {fields : List (String × Value)} {now : Timestamp} {name : Value} {mutation : Mutation}
      (hname : BatchRow.required fields "name" = .ok name)
      (hmutation : batchMutation ctx session now (.map fields) = .ok mutation) :
      Addresses session ctx name mutation.column

namespace Session

variable {session : Session} {ctx : Context} {name : Value} {column : Column}

theorem Addresses.encodeName (haddresses : session.Addresses ctx name column) :
    session.encodeName column.target name = .ok column.name := by
  cases haddresses with
  | argument hname hcolumn =>
      obtain ⟨-, -, found, hfound, hencoded⟩ := Arguments.column_eq_ok_iff.mp hcolumn
      cases hname.symm.trans hfound
      exact hencoded
  | field hname hmutation =>
      obtain ⟨-, -, -, -, ⟨found, hfound, hencoded⟩, -⟩ := batchMutation_eq_ok_iff.mp hmutation
      cases hname.symm.trans hfound
      exact hencoded

end Session

/-! ## Operations that differ in a name -/

namespace Arguments

/-- Arguments that are the same but for the one under a key. -/
structure DifferAt (args other : Arguments) (key : String) (v w : Value) : Prop where
  kind : other.kind = args.kind
  here : args.get? key = some v
  there : other.get? key = some w
  elsewhere : ∀ found ≠ key, other.get? found = args.get? found

/-- Arguments of an operation on columns that are the same but for one name. -/
inductive Renamed (v w : Value) (args other : Arguments) : Prop where
  | name (hkind : args.kind ∈ [.set, .get, .counter]) (hdiffer : args.DifferAt other "name" v w)
  | names (hkind : args.kind = .sliceByNames) (before after : List Value)
      (hdiffer : args.DifferAt other "names" (.list (before ++ v :: after))
        (.list (before ++ w :: after)))

variable {args other : Arguments} {key found : String} {v w : Value}

theorem Renamed.kinds (hrenamed : args.Renamed v w other) :
    args.kind ∈ [.set, .get, .counter, .sliceByNames] ∧ other.kind = args.kind := by
  cases hrenamed with
  | name hkind hdiffer =>
      exact ⟨List.mem_append_left [OperationKind.sliceByNames] hkind, hdiffer.kind⟩
  | names hkind before after hdiffer => exact ⟨by rw [hkind]; decide, hdiffer.kind⟩

namespace DifferAt

variable (hdiffer : args.DifferAt other key v w)
include hdiffer

theorem required_here : args.required key = .ok v := by rw [required, hdiffer.here]

theorem required_there : other.required key = .ok w := by rw [required, hdiffer.there]

theorem required_elsewhere (hfound : found ≠ key) : other.required found = args.required found := by
  rw [required, required, hdiffer.elsewhere found hfound, hdiffer.kind]

theorem integer?_elsewhere (hfound : found ≠ key) : other.integer? found = args.integer? found := by
  have hread : other.asInteger found = args.asInteger found := by
    obtain ⟨kind, values⟩ := args
    obtain ⟨kind', values'⟩ := other
    cases hdiffer.kind
    rfl
  rw [integer?, integer?, optional, optional, hdiffer.elsewhere found hfound, hread]

end DifferAt

end Arguments

section Runs

variable {args other : Arguments} {ctx : Context} {session : Session} {target : TableName}
  {v w : Value}

/-- Names with the same bytes make the same run. -/
theorem dataRun?_of_renamed (hrenamed : args.Renamed v w other) (htarget : ctx.target = .ok target)
    (hname : session.encodeName target w = session.encodeName target v) :
    (dataRun? ctx other session : Option (Deadlines → Run σ Record)) =
      dataRun? ctx args session := by
  -- Each kind reads its arguments in its own way, and all but the name are read alike.
  cases hrenamed with
  | name hkind hdiffer =>
      have hrowkey : other.required "rowkey" = args.required "rowkey" :=
        hdiffer.required_elsewhere (by decide)
      simp only [List.mem_cons, List.not_mem_nil, or_false] at hkind
      rcases hkind with hkind | hkind | hkind <;>
        rw [dataRun?, dataRun?, hdiffer.kind, hkind] <;>
        refine congrArg some (funext fun deadlines => ?_)
      · have hmutation : setMutation ctx other session = setMutation ctx args session := by
          funext now
          rw [setMutation, setMutation, hrowkey, hdiffer.required_here, hdiffer.required_there,
            hdiffer.required_elsewhere (by decide), hdiffer.integer?_elsewhere (by decide),
            hdiffer.integer?_elsewhere (by decide), htarget]
          simp only [Except.ok_bind, hname]
        rw [runSet, runSet, hmutation]
      · rw [runGet, runGet, hrowkey, hdiffer.required_here, hdiffer.required_there, htarget]
        simp only [Except.ok_bind, hname]
      · rw [runCounter, runCounter, hrowkey, hdiffer.required_here, hdiffer.required_there,
          hdiffer.integer?_elsewhere (by decide), htarget]
        simp only [Except.ok_bind, hname]
  | names hkind before after hdiffer =>
      rw [dataRun?, dataRun?, hdiffer.kind, hkind]
      refine congrArg some (funext fun deadlines => ?_)
      rw [runSliceByNames, runSliceByNames, hdiffer.required_elsewhere (by decide),
        Arguments.list, Arguments.list, Arguments.needed, Arguments.needed, hdiffer.required_here,
        hdiffer.required_there, htarget]
      simp only [Except.ok_bind, Arguments.asList, List.mapM_append, List.mapM_cons, hname]

theorem exists_timedRun_of_renamed (nested : Nested σ) (hrenamed : args.Renamed v w other)
    (htarget : ctx.target = .ok target)
    (hname : session.encodeName target w = session.encodeName target v) :
    ∃ body, timedRun? nested ctx args session = some body ∧
      timedRun? nested ctx other session = some body := by
  have hsame : (dataRun? ctx other session : Option (Deadlines → Run σ Record)) =
      dataRun? ctx args session := dataRun?_of_renamed hrenamed htarget hname
  obtain ⟨hkind, hother⟩ := hrenamed.kinds
  simp only [List.mem_cons, List.not_mem_nil, or_false] at hkind
  rcases hkind with hkind | hkind | hkind | hkind <;>
    rw [timedRun?, timedRun?, hother, hkind] <;>
    dsimp only <;>
    rw [hsame, dataRun?, hkind] <;>
    exact ⟨_, rfl, rfl⟩

/-- An operation does not notice which of two names with the same bytes it is given. -/
theorem runOperation_of_renamed (nested : Nested σ) (deadlines : Deadlines)
    {operation renamed : Operation} (rest : List Operation) (binds : Option Binds) (world : World σ)
    (hoverrides : renamed.overrides = operation.overrides)
    (hargs : operation.resolve session.results binds = .ok args)
    (hother : renamed.resolve session.results binds = .ok other)
    (hrenamed : args.Renamed v w other)
    (htarget : (Context.of session operation world.engine.timeout).target = .ok target)
    (hname : session.encodeName target w = session.encodeName target v) :
    (runOperation nested deadlines renamed rest session binds).exec world =
      (runOperation nested deadlines operation rest session binds).exec world := by
  have hctx : Context.of session renamed world.engine.timeout =
      Context.of session operation world.engine.timeout := by
    rw [Context.of, Context.of, hoverrides]
  obtain ⟨body, hbody, hbody'⟩ := exists_timedRun_of_renamed nested hrenamed htarget hname
  rw [runOperation_resolved nested deadlines rest world hargs,
    runOperation_resolved nested deadlines rest world hother, hctx,
    runResolved_of_timedRun hbody, runResolved_of_timedRun hbody']

end Runs

/-! ## Names with the same bytes -/

/-- Among floating point numbers and among decimals equal values can be written as different
bytes. -/
theorem not_encode_eq_iff_equal :
    (¬ ∀ v w : Value, DataType.double.Holds v → DataType.double.Holds w →
      (DataType.double.encode v = DataType.double.encode w ↔ v.equal w = true)) ∧
    ¬ ∀ v w : Value, DataType.decimal.Holds v → DataType.decimal.Holds w →
      (DataType.decimal.encode v = DataType.decimal.encode w ↔ v.equal w = true) := by
  constructor <;> intro hall
  · have hzeros := hall (.float ⟨0⟩) (.float ⟨0x8000000000000000⟩) (.double rfl) (.double rfl)
    exact absurd (hzeros.mpr rfl) (by decide)
  · have hscales := hall (.decimal ⟨15, 1⟩) (.decimal ⟨150, 2⟩) (.decimal rfl) (.decimal rfl)
    exact absurd (hscales.mpr rfl) (by decide)

/-- Values of a type are written as the same bytes if and only if they are alike. So two
operations that address columns of one row by them address one column if and only if they are
alike, and an operation on columns runs with either of two such values as it runs with the
other. -/
theorem encode_eq_iff_alike {type : DataType} {v w : Value} (hv : type.Holds v)
    (hw : type.Holds w) :
    (type.encode v = type.encode w ↔ v.Alike w) ∧
    (∀ (session session' : Session) (ctx ctx' : Context) (column column' : Column),
      session.Addresses ctx v column → session'.Addresses ctx' w column' →
      session.nameType column.target = some type → session'.nameType column'.target = some type →
      column.target = column'.target → column.rowkey = column'.rowkey →
      (column = column' ↔ v.Alike w)) ∧
    (v.Alike w →
      ∀ (nested : Nested σ) (deadlines : Deadlines) (operation renamed : Operation)
        (rest : List Operation) (session : Session) (binds : Option Binds) (world : World σ)
        (args other : Arguments) (target : TableName),
      renamed.overrides = operation.overrides →
      operation.resolve session.results binds = .ok args →
      renamed.resolve session.results binds = .ok other → args.Renamed v w other →
      (Context.of session operation world.engine.timeout).target = .ok target →
      session.nameType target = some type →
      (runOperation nested deadlines renamed rest session binds).exec world =
        (runOperation nested deadlines operation rest session binds).exec world) := by
  refine ⟨hv.encode_eq_iff hw, ?_, ?_⟩
  · intro session session' ctx ctx' column column' hcolumn hcolumn' htype htype' htarget hrowkey
    have hname := hcolumn.encodeName
    have hname' := hcolumn'.encodeName
    rw [Session.encodeName_of_nameType htype] at hname
    rw [Session.encodeName_of_nameType htype'] at hname'
    rw [← hv.encode_eq_iff hw, hname, hname', Except.ok.injEq]
    constructor
    · exact congrArg Column.name
    · intro hsame
      cases column
      cases column'
      cases htarget
      cases hrowkey
      cases hsame
      rfl
  · intro halike nested deadlines operation renamed rest session binds world args other target
      hoverrides hargs hother hrenamed htarget htype
    refine runOperation_of_renamed nested deadlines rest binds world hoverrides hargs hother
      hrenamed htarget ?_
    rw [Session.encodeName_of_nameType htype, Session.encodeName_of_nameType htype]
    exact ((hv.encode_eq_iff hw).mpr halike).symm

/-- Decimals whose scales are written as zeros in full, as the names of one `get`. -/
theorem encode_eq_iff_alike_zeros :
    let v := Value.decimal ⟨5, -3⟩
    let w := Value.decimal ⟨500, -1⟩
    let target : TableName := ⟨"ks", "t"⟩
    let session : Session := Session.assume
      { defaults := { keyspace := some "ks", table := some "t", consistency := .one } }
      "ks" "t" .name .decimal
    let operation (name : Value) : Operation :=
      (Operation.literal { kind := .get } "rowkey" (.bytes [7])).literal "name" name
    let world : World Storage := ⟨{ store := .empty .tables 1 }, { readings := fun _ => 0 }⟩
    let ctx (name : Value) := Context.of session (operation name) 10000
    let column : Column := ⟨target, [7], Utf8.encode "5000"⟩
    DataType.decimal.encode v = DataType.decimal.encode w ∧
      (session.Addresses (ctx v) v column ∧ session.Addresses (ctx w) w column ∧
        (column = column ↔ v.Alike w)) ∧
      (runOperation (runChain 0) [] (operation w) [] session none).exec world =
        (runOperation (runChain 0) [] (operation v) [] session none).exec world := by
  intro v w target session operation world ctx column
  let args (name : Value) : Arguments := ⟨.get, [("name", name), ("rowkey", .bytes [7])]⟩
  have hv : DataType.decimal.Holds v := .decimal rfl
  have hw : DataType.decimal.Holds w := .decimal rfl
  have halike : v.Alike w := ⟨rfl, .inr (.inr (by decide))⟩
  have hcolumn : session.Addresses (ctx v) v column := by
    have hcolumn : (args v).column (ctx v) session = .ok column := rfl
    exact .argument rfl hcolumn
  have hcolumn' : session.Addresses (ctx w) w column := by
    have hcolumn : (args w).column (ctx w) session = .ok column := rfl
    exact .argument rfl hcolumn
  have htype : session.nameType target = some .decimal := by decide
  have hargs : (operation v).resolve session.results none = .ok (args v) := rfl
  have hargs' : (operation w).resolve session.results none = .ok (args w) := rfl
  have hrenamed : (args v).Renamed v w (args w) := by
    refine .name (by decide) ⟨rfl, rfl, rfl, fun key hkey => ?_⟩
    simp [args, Arguments.get?, Entries.find?, hkey]
  obtain ⟨hencode, hcolumns, hruns⟩ := @encode_eq_iff_alike Storage _ _ _ _ hv hw
  exact ⟨hencode.mpr halike, ⟨hcolumn, hcolumn',
      hcolumns session session (ctx v) (ctx w) column column hcolumn hcolumn' htype htype rfl rfl⟩,
    hruns halike (runChain 0) [] (operation v) (operation w) [] session none world (args v) (args w)
      target rfl hargs hargs' hrenamed rfl htype⟩

end OperationChain
