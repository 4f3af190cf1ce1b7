import OperationChain.Proofs.Engine.Prefixes

/-! # What reads fail with

A read resolves its parameters, encodes what they name, asks the store and decodes the cells
that it found. None of these steps fails with an error of the extension, unless the store
answers with one itself. What errors a run can end with is put together from what its steps
can end with.
-/

namespace OperationChain

open Except (FailsWith)

variable {σ α β : Type}

/-! ## Errors that have nothing to do with capabilities -/

/-- The error is not one of the extension. -/
def Error.Ordinary (error : Error) : Prop := error.kind ≠ .extension

theorem Error.ordinary_timeout (millis : UInt64) : (Error.timeout millis).Ordinary := nofun

section Values

theorem ordinary_encodeNatural (value : Value) :
    FailsWith Error.Ordinary (encodeNatural value) := by
  intro error herror
  cases value <;> cases herror <;> exact nofun

theorem DataType.ordinary_encode (type : DataType) (value : Value) :
    FailsWith Error.Ordinary (type.encode value) := by
  intro error herror
  unfold encode at herror
  repeat' split at herror
  all_goals first
    | exact ordinary_encodeNatural _ _ herror
    | (cases herror <;> exact nofun)

theorem DataType.ordinary_decode (type : DataType) (raw : Bytes) :
    FailsWith Error.Ordinary (type.decode raw) := by
  intro error herror
  unfold decode at herror
  dsimp only at herror
  repeat' split at herror
  all_goals cases herror <;> exact nofun

variable (session : Session) (target : TableName)

theorem Session.ordinary_encodeName (name : Value) :
    FailsWith Error.Ordinary (session.encodeName target name) := by
  unfold encodeName encode
  split
  next => exact DataType.ordinary_encode _ name
  next => exact ordinary_encodeNatural name

theorem ordinary_decode (raw : Bytes) (assumed : Option DataType) :
    FailsWith Error.Ordinary (decode raw assumed) := by
  unfold decode
  split
  next => exact DataType.ordinary_decode _ raw
  next => exact .ok _

theorem Session.ordinary_decodeCell (cell : Cell) :
    FailsWith Error.Ordinary (session.decodeCell target cell) :=
  (ordinary_decode _ _).bind fun _ => (ordinary_decode _ _).bind fun _ => .ok _

end Values

section Parameters

theorem Context.ordinary_target (ctx : Context) : FailsWith Error.Ordinary ctx.target := by
  refine .bind ?_ fun _ => .bind ?_ fun _ => .ok _
  · unfold keyspace
    split
    next => exact .ok _
    next => exact .error nofun
  · unfold table
    split
    next => exact .ok _
    next => exact .error nofun

namespace Arguments

variable (args : Arguments) (key : String)

theorem ordinary_required : FailsWith Error.Ordinary (args.required key) := by
  unfold required
  split
  next => exact .ok _
  next => exact .error nofun

theorem ordinary_list : FailsWith Error.Ordinary (args.list key) := by
  refine (args.ordinary_required key).bind fun value => ?_
  unfold asList
  split
  next => exact .ok _
  next => exact .error nofun

theorem ordinary_asInteger (value : Value) :
    FailsWith Error.Ordinary (args.asInteger key value) := by
  intro error herror
  unfold asInteger at herror
  repeat' split at herror
  all_goals cases herror <;> exact nofun

theorem ordinary_integer? : FailsWith Error.Ordinary (args.integer? key) := by
  unfold integer? optional
  split
  next => exact .ok _
  next value _ => exact (args.ordinary_asInteger key value).map _

variable (session : Session) (target : TableName)

theorem ordinary_sliceBound : FailsWith Error.Ordinary (sliceBound args session target key) := by
  unfold sliceBound
  split
  next => exact .ok _
  next => exact .ok _
  next => exact session.ordinary_encodeName target _

theorem ordinary_sliceRange : FailsWith Error.Ordinary (sliceRange args session target) := by
  refine (args.ordinary_integer? "limit").bind fun _ => ?_
  refine (args.ordinary_sliceBound "start" session target).bind fun _ => ?_
  refine (args.ordinary_sliceBound "end" session target).bind fun _ => ?_
  split
  next => exact .ok _
  next => exact .error nofun

end Arguments

/-! Parameters without a value are not valid or are bad references. -/

theorem Record.ordinary_field (index : Int64) (record : Record) (field : Option String) :
    FailsWith Error.Ordinary (record.field index field) := by
  intro error herror
  unfold Record.field rowsField valueField at herror
  repeat' split at herror
  all_goals cases herror <;> exact nofun

theorem Param.ordinary_resolve (param : Param) (results : Results) (binds : Option Binds) :
    FailsWith Error.Ordinary (param.resolve results binds) := by
  unfold resolve
  split
  next =>
    split
    next => exact .error nofun
    next => exact .ok _
  next =>
    refine .bind (fun error herror => ?_) fun record => record.ordinary_field _ _
    rw [Error.Ordinary, Results.kind_of_get_eq_error herror]
    exact nofun
  next =>
    split
    next => exact .error nofun
    next =>
      split
      next => exact .ok _
      next => exact .error nofun

theorem ordinary_resolveEntries (results : Results) (binds : Option Binds)
    (entries : List (String × Param)) :
    FailsWith Error.Ordinary (resolveEntries results binds entries) := by
  induction entries with
  | nil => exact .ok _
  | cons entry rest ih =>
      obtain ⟨key, param⟩ := entry
      have hparam := param.ordinary_resolve results binds
      rw [resolveEntries]
      split
      next error herror =>
        refine .error ?_
        rw [Error.Ordinary, Error.kind_inParameter]
        exact hparam error herror
      next =>
        split
        next error herror => exact .error (ih error herror)
        next => exact .ok _

theorem Operation.ordinary_resolve (operation : Operation) (results : Results)
    (binds : Option Binds) : FailsWith Error.Ordinary (operation.resolve results binds) :=
  (ordinary_resolveEntries results binds operation.params.entries).map _

end Parameters

/-! ## Stores -/

/-- A store can answer a read with this error. -/
inductive Store.FailsReading [Store σ] (store : σ) (error : Error) : Prop where
  | read {now : Timestamp} {target : TableName} {rowkey : Bytes} {names : List Bytes}
      {level : Consistency} (hread : Store.read store now target rowkey names level = .error error)
  | readSlice {now : Timestamp} {target : TableName} {rowkey : Bytes} {range : SliceRange}
      {level : Consistency}
      (hread : Store.readSlice store now target rowkey range level = .error error)

/-! ## Runs -/

namespace Run

/-- In this engine the run fails with such errors only. -/
def FailsWith (engine : Engine σ) (P : Error → Prop) (run : Run σ α) : Prop :=
  ∀ world, world.engine = engine → ∀ error, (run.exec world).1 = .error (.failed error) → P error

namespace FailsWith

variable {engine : Engine σ} {P : Error → Prop}

theorem lift {result : Except Error α} (hresult : Except.FailsWith P result) :
    FailsWith engine P (Run.lift result) := by
  intro world _ error herror
  rw [exec_lift] at herror
  obtain ⟨cause, hcause, hsame⟩ := Except.mapError_eq_error_iff.mp herror
  cases hsame
  exact hresult error hcause

theorem now : FailsWith engine P Run.now := fun _ _ _ => nofun

theorem of_idle {run : Run σ Unit} (hidle : Idle run) : FailsWith engine P run := by
  intro world _ error herror
  obtain ⟨result, clock, hexec, hresult⟩ := hidle world
  rw [hexec] at herror
  rcases hresult with rfl | ⟨level, rfl⟩ <;> cases herror

theorem bind {first : Run σ α} {next : α → Run σ β} (hquiet : Quiet first)
    (hfirst : FailsWith engine P first) (hnext : ∀ a, FailsWith engine P (next a)) :
    FailsWith engine P (first >>= next) := by
  intro world hworld error herror
  have hafter := hquiet world
  cases hresult : first.exec world with
  | mk result after =>
      rw [hresult] at hafter
      cases result with
      | error stop =>
          rw [Program.exec_bind_error hresult] at herror
          cases herror
          exact hfirst world hworld error (congrArg Prod.fst hresult)
      | ok a =>
          rw [Program.exec_bind_ok hresult] at herror
          exact hnext a after (hafter.trans hworld) error herror

theorem bind_engine {next : Engine σ → Run σ β} (hnext : FailsWith engine P (next engine)) :
    FailsWith engine P (Run.engine >>= next) := by
  intro world hworld error herror
  rw [Program.exec_bind_ok (exec_engine world), hworld] at herror
  exact hnext world hworld error herror

theorem ask {question : σ → Except Error α} (deadlines : Deadlines)
    (hquestion : Except.FailsWith P (question engine.store)) :
    FailsWith engine P (Run.ask deadlines question) :=
  bind_engine (bind (.pause deadlines) (of_idle (idle_pause deadlines)) fun _ => lift hquestion)

theorem within {body : Deadlines → Run σ α} (millis : UInt64) (outer : Deadlines)
    (hbody : ∀ deadlines, FailsWith engine P (body deadlines)) (htimeout : P (.timeout millis)) :
    FailsWith engine P (Run.within millis outer body) := by
  intro world hworld error herror
  obtain ⟨result, hwithin, hlate | hsame⟩ := exec_within millis outer body world
  · rw [hwithin, hlate] at herror
    cases herror
    exact htimeout
  · rw [hwithin, hsame] at herror
    exact hbody _ world hworld error herror

end FailsWith

end Run

end OperationChain
