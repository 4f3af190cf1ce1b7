import OperationChain.Proofs.Engine.Views

/-! # Defaults of a session

Three settings are inherited by the operations of a chain: keyspace, table and
consistency level. Each kind of operation reads some of them, and it reads none that it
names itself. What it answers and what it does to the store depends on the others only.
-/

namespace OperationChain

variable {σ : Type}

/-- A setting that operations inherit. -/
inductive Default where
  | keyspace | table | consistency
  deriving DecidableEq, Repr

namespace Default

/-- Every setting that operations inherit. -/
def all : List Default := [keyspace, table, consistency]

theorem mem_all (default : Default) : default ∈ all := by
  cases default <;> decide

end Default

/-! ## Sessions and contexts -/

/-- The sessions are the same but for these defaults. -/
structure Session.SameBut (apart : List Default) (session other : Session) : Prop where
  results : session.results = other.results
  filter : session.filter = other.filter
  components : session.components = other.components
  autoTimestamp : session.defaults.autoTimestamp = other.defaults.autoTimestamp
  assumptions : session.defaults.assumptions = other.defaults.assumptions
  keyspace : .keyspace ∉ apart → session.defaults.keyspace = other.defaults.keyspace
  table : .table ∉ apart → session.defaults.table = other.defaults.table
  consistency : .consistency ∉ apart → session.defaults.consistency = other.defaults.consistency

/-- The session with these values for the settings that operations inherit. -/
def Session.withDefaults (session : Session) (keyspace table : Option String)
    (consistency : Consistency) : Session :=
  { session with defaults := { session.defaults with keyspace, table, consistency } }

/-- The contexts are the same but for these defaults. -/
structure Context.SameBut (apart : List Default) (ctx other : Context) : Prop where
  timeout : ctx.timeout = other.timeout
  ttl : ctx.ttl = other.ttl
  keyspace : .keyspace ∉ apart → ctx.keyspace? = other.keyspace?
  table : .table ∉ apart → ctx.table? = other.table?
  consistency : .consistency ∉ apart → ctx.consistency = other.consistency

/-- Whether an operation names a setting itself. -/
def Overrides.names (overrides : Overrides) : Default → Bool
  | .keyspace => overrides.keyspace.isSome
  | .table => overrides.table.isSome
  | .consistency => overrides.consistency.isSome

namespace Session.SameBut

variable {apart : List Default} {session other : Session}

theorem refl (apart : List Default) (session : Session) : session.SameBut apart session :=
  ⟨rfl, rfl, rfl, rfl, rfl, fun _ => rfl, fun _ => rfl, fun _ => rfl⟩

theorem withDefaults (session : Session) (keyspace table : Option String)
    (consistency : Consistency) :
    session.SameBut Default.all (session.withDefaults keyspace table consistency) where
  results := rfl
  filter := rfl
  components := rfl
  autoTimestamp := rfl
  assumptions := rfl
  keyspace hnot := absurd (Default.mem_all _) hnot
  table hnot := absurd (Default.mem_all _) hnot
  consistency hnot := absurd (Default.mem_all _) hnot

theorem eq_withDefaults (hsame : session.SameBut apart other) :
    other = session.withDefaults other.defaults.keyspace other.defaults.table
      other.defaults.consistency := by
  obtain ⟨hresults, hfilter, hcomponents, hauto, hassumptions, _, _, _⟩ := hsame
  rcases session with ⟨⟨_, _, _, _, _⟩, _, _, _⟩
  rcases other with ⟨⟨_, _, _, _, _⟩, _, _, _⟩
  cases hresults
  cases hfilter
  cases hcomponents
  cases hauto
  cases hassumptions
  rfl

theorem eq_of_nil (hsame : session.SameBut [] other) : other = session := by
  rw [hsame.eq_withDefaults, ← hsame.keyspace List.not_mem_nil, ← hsame.table List.not_mem_nil,
    ← hsame.consistency List.not_mem_nil]
  rfl

/-- An operation finds the same settings in both sessions but for defaults that it does
not name itself. -/
theorem context (hsame : session.SameBut apart other) (operation : Operation) (timeout : UInt64) :
    (Context.of session operation timeout).SameBut
      (apart.filter fun default => !operation.overrides.names default)
      (Context.of other operation timeout) where
  timeout := rfl
  ttl := rfl
  keyspace hnot := by
    unfold Context.of
    cases hoverride : operation.overrides.keyspace with
    | some keyspace => rfl
    | none =>
        refine hsame.keyspace fun hmem => hnot (List.mem_filter.mpr ⟨hmem, ?_⟩)
        simp [Overrides.names, hoverride]
  table hnot := by
    unfold Context.of
    cases hoverride : operation.overrides.table with
    | some table => rfl
    | none =>
        refine hsame.table fun hmem => hnot (List.mem_filter.mpr ⟨hmem, ?_⟩)
        simp [Overrides.names, hoverride]
  consistency hnot := by
    unfold Context.of
    cases hoverride : operation.overrides.consistency with
    | some consistency => rfl
    | none =>
        refine hsame.consistency fun hmem => hnot (List.mem_filter.mpr ⟨hmem, ?_⟩)
        simp [Overrides.names, hoverride]

end Session.SameBut

/-! ## What a kind reads -/

/-- The defaults that an operation of a kind reads, where it does not name them itself.
Operations that run chains read none; the operations of these chains may do so. -/
def OperationKind.reads : OperationKind → List Default
  | .set | .get | .slice | .sliceByNames | .batchSet | .counter => Default.all
  | .createTable | .listTables => [.keyspace]
  | .query => [.keyspace, .consistency]
  | .assume => [.keyspace, .table]
  | _ => []

namespace Context.SameBut

variable {apart : List Default} {ctx other : Context}

theorem eq_of_nil (hsame : ctx.SameBut [] other) : other = ctx := by
  obtain ⟨htimeout, httl, hkeyspace, htable, hconsistency⟩ := hsame
  cases ctx
  cases other
  cases htimeout
  cases httl
  cases hkeyspace List.not_mem_nil
  cases htable List.not_mem_nil
  cases hconsistency List.not_mem_nil
  rfl

theorem keyspaceOf (hsame : ctx.SameBut apart other) (hkeyspace : .keyspace ∉ apart)
    (args : Arguments) : other.keyspaceOf args = ctx.keyspaceOf args := by
  rw [Context.keyspaceOf, Context.keyspaceOf, Context.keyspace, Context.keyspace,
    hsame.keyspace hkeyspace]

theorem tableOf (hsame : ctx.SameBut apart other) (htable : .table ∉ apart)
    (args : Arguments) : other.tableOf args = ctx.tableOf args := by
  rw [Context.tableOf, Context.tableOf, Context.table, Context.table, hsame.table htable]

end Context.SameBut

section Context

variable [Store σ] {apart : List Default} {ctx other : Context} {args : Arguments}
  (hsame : ctx.SameBut apart other) (hreads : ∀ default ∈ args.kind.reads, default ∉ apart)
include hsame hreads

omit [Store σ] in
theorem administer?_of_context (registry : Registry) :
    administer? registry other args = administer? registry ctx args := by
  unfold administer?
  split
  case h_5 hkind =>
    rw [hkind] at hreads
    rw [hsame.keyspaceOf (hreads _ (by decide)), hsame.tableOf (hreads _ (by decide))]
  all_goals rfl

/-- An operation on the store sees no more of its context than what its kind reads. -/
theorem dataRun?_of_context (session : Session) :
    (dataRun? other args session : Option (Deadlines → Run σ Record)) =
      dataRun? ctx args session := by
  have hall (hkind : args.kind.reads = Default.all) : other = ctx := by
    rw [hkind] at hreads
    have hnil : apart = [] :=
      List.eq_nil_iff_forall_not_mem.mpr fun default => hreads default (Default.mem_all default)
    rw [hnil] at hsame
    exact hsame.eq_of_nil
  unfold dataRun?
  split
  next hkind => rw [hall (by rw [hkind]; rfl)]
  next hkind => rw [hall (by rw [hkind]; rfl)]
  next hkind => rw [hall (by rw [hkind]; rfl)]
  next hkind => rw [hall (by rw [hkind]; rfl)]
  next hkind => rw [hall (by rw [hkind]; rfl)]
  next hkind => rw [hall (by rw [hkind]; rfl)]
  · rfl
  next hkind =>
    rw [hkind] at hreads
    refine congrArg some (funext fun deadlines => ?_)
    rw [runCreateTable, runCreateTable, hsame.keyspaceOf (hreads _ (by decide))]
  · rfl
  next hkind =>
    rw [hkind] at hreads
    refine congrArg some (funext fun deadlines => ?_)
    rw [runListTables, runListTables, hsame.keyspaceOf (hreads _ (by decide))]
  next hkind =>
    rw [hkind] at hreads
    refine congrArg some (funext fun deadlines => ?_)
    rw [runQuery, runQuery, hsame.keyspace (hreads _ (by decide)),
      hsame.consistency (hreads _ (by decide))]
  · rfl

/-- Neither does any operation. -/
theorem runResolved_of_context (nested : Nested σ) (deadlines : Deadlines)
    (rest : List Operation) (session : Session) :
    runResolved nested deadlines other args rest session =
      runResolved nested deadlines ctx args rest session := by
  have htimed : timedRun? nested other args session = timedRun? nested ctx args session := by
    unfold timedRun?
    rw [dataRun?_of_context hsame hreads]
  unfold runResolved
  rw [htimed, ← hsame.timeout]
  simp only [administer?_of_context hsame hreads]

end Context

/-! ## Runs in other sessions -/

section Sessions

variable [Store σ] {apart : List Default} {session other : Session}

/-- What an operation on the store does depends on its context and not on the defaults
that went into it. -/
theorem dataRun?_of_sameBut (hsame : session.SameBut apart other) (ctx : Context)
    (args : Arguments) :
    (dataRun? ctx args other : Option (Deadlines → Run σ Record)) =
      dataRun? ctx args session := by
  have hbare : other.bare = session.bare := by
    rw [hsame.eq_withDefaults]
    rfl
  rw [← dataRun?_bare ctx args other, hbare, dataRun?_bare]

end Sessions

/-! ## Attempts in two sessions -/

/-- Both runs of an operation end with the same record or error and leave the session
that they found as it was; an `assume` assumes the same type in both. -/
inductive EndsAs (kind : OperationKind) (session other : Session) :
    Except Stop Step → Except Stop Step → Prop where
  | stopped (stop : Stop) : EndsAs kind session other (.error stop) (.error stop)
  | refused (error : Error) :
      EndsAs kind session other (.ok (.failed error session)) (.ok (.failed error other))
  | answered (record : Record) (hkind : kind ≠ .assume) :
      EndsAs kind session other (.ok (.next record session)) (.ok (.next record other))
  | assumed (keyspace table : String) (role : Role) (type : DataType) (hkind : kind = .assume) :
      EndsAs kind session other (.ok (.next .ok (session.assume keyspace table role type)))
        (.ok (.next .ok (other.assume keyspace table role type)))

theorem EndsAs.map {kind : OperationKind} (hkind : kind ≠ .assume) (session other : Session)
    (result : Except Stop Record) :
    EndsAs kind session other (result.map fun record => .next record session)
      (result.map fun record => .next record other) := by
  cases result with
  | error stop => exact .stopped stop
  | ok record => exact .answered record hkind

/-- Both attempts give the same answer and leave the same world, each in its session. -/
structure Attempt.Matches (attempt other : Attempt σ) : Prop where
  record : attempt.record? = other.record?
  error : attempt.error? = other.error?
  after : attempt.after = other.after
  ending : EndsAs attempt.operation.kind attempt.session other.session attempt.ending other.ending

theorem Attempt.matches_of_endsAs {attempt other : Attempt σ}
    (hending : EndsAs attempt.operation.kind attempt.session other.session attempt.ending
      other.ending) (hafter : attempt.after = other.after) : attempt.Matches other := by
  refine ⟨?_, ?_, hafter, hending⟩
  · unfold Attempt.record?
    generalize attempt.ending = ending, other.ending = ending' at hending
    cases hending <;> rfl
  · unfold Attempt.error?
    generalize attempt.ending = ending, other.ending = ending' at hending
    cases hending <;> rfl

section Attempts

variable [Store σ] {nested : Nested σ} {deadlines : Deadlines} {binds : Option Binds}
  {operation : Operation} {rest : List Operation} {session other : Session} {world : World σ}

theorem Attempt.matches_of_runs {ending ending' : Except Stop Step} {after : World σ}
    (hending : EndsAs operation.kind session other ending ending')
    (hrun : (runOperation nested deadlines operation rest session binds).exec world =
      (ending, after))
    (hrun' : (runOperation nested deadlines operation rest other binds).exec world =
      (ending', after)) :
    (attemptOf nested deadlines binds operation rest session world).Matches
      (attemptOf nested deadlines binds operation rest other world) := by
  refine matches_of_endsAs ?_ ((congrArg Prod.snd hrun).trans (congrArg Prod.snd hrun').symm)
  rw [attemptOf, attemptOf, hrun, hrun']
  exact hending

/-- An `assume` reads nothing of its session that is not in its context. -/
theorem exec_assume (nested : Nested σ) (deadlines : Deadlines) (ctx : Context) {args : Arguments}
    (hkind : args.kind = .assume) (rest : List Operation) (world : World σ) :
    (∃ error, ∀ session, (runResolved nested deadlines ctx args rest session).exec world =
        (.ok (.failed error session), world)) ∨
      ∃ keyspace table role type, ∀ session,
        (runResolved nested deadlines ctx args rest session).exec world =
          (.ok (.next .ok (session.assume keyspace table role type)), world) := by
  simp only [runResolved, hkind, registeredShape?, administer?,
    Program.exec_bind_ok (Run.exec_engine world), Update.exec_lift_bind]
  cases ctx.keyspaceOf args with
  | error error => exact .inl ⟨error, fun _ => rfl⟩
  | ok keyspace =>
      dsimp only
      cases ctx.tableOf args with
      | error error => exact .inl ⟨error, fun _ => rfl⟩
      | ok table =>
          dsimp only
          cases args.text "role" >>= Role.parse with
          | error error => exact .inl ⟨error, fun _ => rfl⟩
          | ok role =>
              dsimp only
              cases args.text "type" >>= DataType.parse with
              | error error => exact .inl ⟨error, fun _ => rfl⟩
              | ok type => exact .inr ⟨keyspace, table, role, type, fun _ => rfl⟩

/-- An operation on the store is run in a session by what it reads of it. -/
theorem exec_dataRun {ctx : Context} {args : Arguments} {run : Deadlines → Run σ Record}
    (hrun : dataRun? ctx args session = some run) (nested : Nested σ) (deadlines : Deadlines)
    (rest : List Operation) (world : World σ) :
    let ending := (Run.within ctx.timeout deadlines run).exec world
    (runResolved nested deadlines ctx args rest session).exec world =
      (ending.1.map fun record => .next record session, ending.2) := by
  have hbody : timedRun? nested ctx args session = some run := by
    have hkind : dataRun? ctx args session ≠ (none : Option (Deadlines → Run σ Record)) := by
      simp [hrun]
    unfold timedRun?
    split
    case h_5 => exact hrun
    all_goals
      next hkind' => exact absurd (by rw [dataRun?, hkind']) hkind
  intro ending
  rw [runResolved_of_timedRun hbody, Program.exec_bind_ok (Run.exec_engine world),
    Program.exec_bind_pure]

/-- Overrides win. An operation that names keyspace, table and consistency level itself
gives the same record or error and leaves the same world in any two sessions that differ
in their defaults for these three alone; an `assume` assumes the same type for the same
column role of the same table in both. -/
theorem Attempt.matches_of_overrides
    (hkind : operation.kind ∈ [.set, .get, .slice, .sliceByNames, .batchSet, .counter,
      .createTable, .listTables, .query, .assume])
    (hoverrides : ∀ default, operation.overrides.names default = true)
    (hsessions : session.SameBut [.keyspace, .table, .consistency] other) :
    (attemptOf nested deadlines binds operation rest session world).Matches
      (attemptOf nested deadlines binds operation rest other world) := by
  have hcontext : Context.of other operation world.engine.timeout =
      Context.of session operation world.engine.timeout := by
    have hsame := hsessions.context operation world.engine.timeout
    rw [List.filter_eq_nil_iff.mpr fun default _ => by simp [hoverrides]] at hsame
    exact hsame.eq_of_nil
  cases hargs : operation.resolve session.results binds with
  | error error =>
      have hargs' := hargs
      rw [hsessions.results] at hargs'
      exact matches_of_runs (.stopped (.failed error))
        (runOperation_unresolved nested deadlines rest world hargs)
        (runOperation_unresolved nested deadlines rest world hargs')
  | ok args =>
      have hargs' := hargs
      rw [hsessions.results] at hargs'
      have hrun := runOperation_resolved nested deadlines rest world hargs
      have hrun' := runOperation_resolved nested deadlines rest world hargs'
      rw [hcontext] at hrun'
      generalize Context.of session operation world.engine.timeout = ctx at hrun hrun'
      have hsame := Operation.resolve_kind hargs
      by_cases hassume : operation.kind = .assume
      · rcases exec_assume nested deadlines ctx (hsame.trans hassume) rest world with
          ⟨error, hexec⟩ | ⟨keyspace, table, role, type, hexec⟩
        · exact matches_of_runs (.refused error) (hrun.trans (hexec session))
            (hrun'.trans (hexec other))
        · exact matches_of_runs (.assumed keyspace table role type hassume)
            (hrun.trans (hexec session)) (hrun'.trans (hexec other))
      · obtain ⟨run, hdata⟩ : ∃ run : Deadlines → Run σ Record,
            dataRun? ctx args session = some run := by
          rw [← hsame] at hkind hassume
          unfold dataRun?
          split <;> simp_all
        have hdata' := (dataRun?_of_sameBut hsessions ctx args).trans hdata
        exact matches_of_runs (.map hassume session other _)
          (hrun.trans (exec_dataRun hdata nested deadlines rest world))
          (hrun'.trans (exec_dataRun hdata' nested deadlines rest world))

/-- A session without defaults, and one whose defaults lead nowhere. -/
theorem Attempt.matches_of_overrides_get :
    let columns : Columns := (∅ : Columns).insert [1] ⟨[3], 5, none⟩
    let keyspace : Keyspace :=
      { replication := 1
        tables := (∅ : Map String Rows).insert "t" ((∅ : Rows).insert [7] columns) }
    let engine : Engine NestedStore :=
      { store := { keyspaces := (∅ : Map String Keyspace).insert "ks" keyspace } }
    let get : Operation :=
      { kind := .get
        params := ((∅ : Map String Param).insert "rowkey" (.literal (.bytes [7]))).insert "name"
          (.literal (.bytes [1]))
        overrides := { keyspace := some "ks", table := some "t", consistency := some .one } }
    let session : Session := { defaults := { consistency := .any } }
    let other : Session :=
      { defaults := { keyspace := some "t", table := some "ks", consistency := .all } }
    let attempt (session : Session) :=
      attemptOf (runChain 0) [] none get [] session ⟨engine, { readings := fun _ => 0 }⟩
    (attempt other).record? = some (.rows [⟨some (.bytes [1]), some (.bytes [3]), some 5, none⟩]) ∧
      (attempt session).Matches (attempt other) := by
  intro columns keyspace engine get session other attempt
  refine ⟨rfl, matches_of_overrides (by decide) ?_ ?_⟩
  · intro default
    cases default <;> rfl
  · exact .withDefaults session (some "t") (some "ks") .all

end Attempts

end OperationChain
