import OperationChain.Proofs.Engine.Defaults
import OperationChain.Proofs.Engine.Nesting
import OperationChain.Proofs.Engine.Prefixes

/-! # What chains inside operations inherit

An operation that runs a chain hands on its session, and not what it names itself. The
chain inherits a default if one of its operations reads it before any of them has set it.
Sessions that differ in other defaults only are all the same to the chain, and to the
chains inside it, however deep they nest.
-/

namespace OperationChain

variable {σ α β γ δ : Type}

/-! ## What is inherited -/

/-- The defaults that an operation itself reads of its session. A `save_state` keeps all
of them, whatever it names. -/
def Operation.reads (operation : Operation) : List Default :=
  if operation.kind = .saveState then Default.all
  else operation.kind.reads.filter fun default => !operation.overrides.names default

/-- The defaults that an operation of a kind sets when it succeeds. -/
def OperationKind.sets : OperationKind → List Default
  | .setKeyspace => [.keyspace]
  | .setTable => [.table]
  | .setConsistency => [.consistency]
  | .restoreState => Default.all
  | _ => []

/-- The defaults in which sessions still differ after an operation of a kind that found
them different in these. -/
def OperationKind.leaves (kind : OperationKind) (apart : List Default) : List Default :=
  apart.filter fun default => !kind.sets.contains default

/-- The defaults that a chain inherits: those that one of its operations reads before any
of them has set it. -/
def inheritedBy : List Operation → List Default
  | [] => []
  | operation :: rest => operation.reads ++ operation.kind.leaves (inheritedBy rest)

section Leaves

variable {apart : List Default} {kind : OperationKind} {default : Default}

theorem not_mem_of_leaves (hleaves : default ∉ kind.leaves apart) (hsets : default ∉ kind.sets) :
    default ∉ apart :=
  fun hmem => hleaves (List.mem_filter.mpr ⟨hmem, by simpa using hsets⟩)

theorem leaves_of_sets (hsets : kind.sets = []) : kind.leaves apart = apart := by
  simp [OperationKind.leaves, hsets]

end Leaves

/-! ## Chains that inherit nothing -/

/-- What chains inside operations come from. -/
inductive Source where
  | template (handle : Handle)
  | process (name : String)

/-- An operation with these arguments runs a chain from there. -/
inductive Arguments.Calls (args : Arguments) : Source → Prop where
  | template {handle : Handle} (hkind : args.kind = .executePrepared)
      (hhandle : args.handle "id" = .ok handle) : Calls args (.template handle)
  | process {name : String} (hkind : args.kind = .serviceProcess)
      (hname : args.text "name" = .ok name) : Calls args (.process name)

/-- The operation may run a chain from there; its references decide. -/
def Operation.Calls (operation : Operation) (source : Source) : Prop :=
  ∃ results binds args, operation.resolve results binds = .ok args ∧ args.Calls source

/-- A chain of these operations comes from there; a service process may build several. -/
inductive Engine.Runs (engine : Engine σ) : Source → List Operation → Prop where
  | template {handle : Handle} {operations : List Operation}
      (hget : engine.prepared.get handle = .ok operations) :
      Runs engine (.template handle) operations
  | process {name : String} {process : ServiceProcess} {params : List (String × Value)}
      {operations : List Operation} (hprocess : engine.registry.serviceProcess name = .ok process)
      (hbuild : process.build params = .ok operations) : Runs engine (.process name) operations

/-- The operation reads none of the defaults in which sessions differ and registers no
service process, and what it runs chains of is `reached` in such sessions. -/
structure Operation.Ignores (reached : List Default → Source → Prop) (apart : List Default)
    (operation : Operation) : Prop where
  reads : ∀ default ∈ operation.reads, default ∉ apart
  calls : ∀ source, operation.Calls source → reached apart source
  registers : operation.kind ≠ .createServiceProcess

/-- Each operation of the chain ignores the defaults in which sessions still differ when its
turn comes. What a `prepare` keeps has to ignore those in which they differ wherever it is
reached. -/
inductive ChainIgnores (reached : List Default → Source → Prop) :
    List Default → List Operation → Prop where
  | nil (apart : List Default) : ChainIgnores reached apart []
  | prepare {apart : List Default} {operation : Operation} {rest : List Operation}
      (hkind : operation.kind = .prepare)
      (hkept : ∀ apart handle, reached apart (.template handle) → ChainIgnores reached apart rest) :
      ChainIgnores reached apart (operation :: rest)
  | cons {apart : List Default} {operation : Operation} {rest : List Operation}
      (hkind : operation.kind ≠ .prepare) (hoperation : operation.Ignores reached apart)
      (hrest : ChainIgnores reached (operation.kind.leaves apart) rest) :
      ChainIgnores reached apart (operation :: rest)

/-- No chain inherits a default in which sessions differ where it is reached. -/
def Engine.Ignores (reached : List Default → Source → Prop) (engine : Engine σ) : Prop :=
  ∀ apart source operations, reached apart source → engine.Runs source operations →
    ChainIgnores reached apart operations

section Ignores

variable {reached : List Default → Source → Prop} {apart : List Default}

/-- An operation that runs no chain ignores what it does not read. -/
theorem Operation.Ignores.of_plain {operation : Operation}
    (hplain : operation.kind ∉ [.executePrepared, .serviceProcess, .createServiceProcess])
    (hreads : ∀ default ∈ operation.reads, default ∉ apart) : operation.Ignores reached apart where
  reads := hreads
  calls source := by
    rintro ⟨results, binds, args, hargs, hcalls⟩
    rw [← Operation.resolve_kind hargs] at hplain
    cases hcalls with
    | template hkind => exact absurd (by simp [hkind]) hplain
    | process hkind => exact absurd (by simp [hkind]) hplain
  registers hkind := hplain (by simp [hkind])

/-- Operations that neither run chains nor keep any for later ignore what they do not
inherit. -/
theorem ChainIgnores.of_plain {operations : List Operation}
    (hplain : ∀ operation ∈ operations, operation.kind ≠ .prepare ∧
      operation.kind ∉ [.executePrepared, .serviceProcess, .createServiceProcess])
    (hreads : ∀ default ∈ inheritedBy operations, default ∉ apart) :
    ChainIgnores reached apart operations := by
  induction operations generalizing apart with
  | nil => exact .nil apart
  | cons operation rest ih =>
      obtain ⟨⟨hprepare, hkind⟩, hrest⟩ := List.forall_mem_cons.mp hplain
      obtain ⟨hown, hlater⟩ := List.forall_mem_append.mp hreads
      refine .cons hprepare (.of_plain hkind hown) (ih hrest fun default hmem hleaves => ?_)
      obtain ⟨hapart, hsets⟩ := List.mem_filter.mp hleaves
      exact hlater default (List.mem_filter.mpr ⟨hmem, hsets⟩) hapart

variable {engine : Engine σ} (hignores : engine.Ignores reached)
include hignores

theorem Engine.Ignores.of_eq {after : Engine σ} (hprepared : after.prepared = engine.prepared)
    (hregistry : after.registry = engine.registry) : after.Ignores reached := by
  intro apart source operations hreached hruns
  refine hignores apart source operations hreached ?_
  cases hruns with
  | template hget => exact .template (hprepared ▸ hget)
  | process hprocess hbuild => exact .process (hregistry ▸ hprocess) hbuild

theorem Engine.Ignores.keep {rest : List Operation} (hkept : ∀ apart handle,
      reached apart (.template handle) → ChainIgnores reached apart rest) :
    Engine.Ignores reached { engine with prepared := (engine.prepared.keep rest).2 } := by
  intro apart source operations hreached hruns
  cases hruns with
  | template hget =>
      rcases Keeper.get_keep hget with ⟨_, rfl⟩ | hold
      · exact hkept apart _ hreached
      · exact hignores apart _ operations hreached (.template hold)
  | process hprocess hbuild => exact hignores apart _ operations hreached (.process hprocess hbuild)

theorem Engine.Ignores.register {registry : Registry} {shape : Shape} {args : Arguments}
    (hshape : shape ≠ .serviceProcess)
    (hregistry : registerCapability engine.registry shape args = .ok registry) :
    Engine.Ignores reached { engine with registry } := by
  intro apart source operations hreached hruns
  refine hignores apart source operations hreached ?_
  cases hruns with
  | template hget => exact .template hget
  | process hprocess hbuild =>
      refine .process ?_ hbuild
      rwa [Registry.serviceProcess, Registry.find,
        find?_of_registerCapability hregistry hshape.symm] at hprocess

end Ignores

theorem Session.SameBut.fork {apart : List Default} {session other : Session}
    (hsame : session.SameBut apart other) (operations : Nat) :
    (session.fork operations).SameBut apart (other.fork operations) :=
  { hsame with results := rfl }

/-! ## Runs that agree -/

theorem EndAlike.eq {ε : Type} {result other : Except ε α} (halike : EndAlike Eq Eq result other) :
    result = other := by
  cases halike with
  | ok hvalues => rw [hvalues]
  | error herrors => rw [herrors]

namespace Run

open Program

variable {reached : List Default → Source → Prop}

/-- On an engine that ignores the defaults both runs end alike and leave the same world,
which does so as well. -/
def Agree (reached : List Default → Source → Prop) (R : α → β → Prop) (run : Run σ α)
    (other : Run σ β) : Prop :=
  ∀ world, world.engine.Ignores reached →
    EndAlike Eq R (run.exec world).1 (other.exec world).1 ∧
      (run.exec world).2 = (other.exec world).2 ∧ (run.exec world).2.engine.Ignores reached

namespace Agree

theorem pure {R : α → β → Prop} {a : α} {b : β} (hvalues : R a b) :
    Agree reached R (Pure.pure a : Run σ α) (Pure.pure b) :=
  fun _ hworld => ⟨.ok hvalues, rfl, hworld⟩

theorem throw (R : α → β → Prop) (stop : Stop) :
    Agree reached R (MonadExcept.throw stop : Run σ α) (MonadExcept.throw stop) :=
  fun _ hworld => ⟨.error rfl, rfl, hworld⟩

/-- A run agrees with itself if it keeps templates and service processes. -/
theorem self {run : Run σ α} (hprepared : ∀ world,
      (run.exec world).2.engine.prepared = world.engine.prepared)
    (hregistry : ∀ world, (run.exec world).2.engine.registry = world.engine.registry) :
    Agree reached Eq run run :=
  fun world hworld =>
    ⟨.same (fun _ => rfl) _, rfl, hworld.of_eq (hprepared world) (hregistry world)⟩

theorem quiet {run : Run σ α} (hquiet : Quiet run) : Agree reached Eq run run :=
  self (fun world => congrArg _ (hquiet world)) fun world => congrArg _ (hquiet world)

theorem apply (update : Update σ α) : Agree reached Eq (Run.apply update) (Run.apply update) :=
  self (fun _ => rfl) fun _ => rfl

theorem bind {R : α → β → Prop} {S : γ → δ → Prop} {first : Run σ α} {first' : Run σ β}
    {next : α → Run σ γ} {next' : β → Run σ δ} (hfirst : Agree reached R first first')
    (hnext : ∀ a b, R a b → Agree reached S (next a) (next' b)) :
    Agree reached S (first >>= next) (first' >>= next') := by
  intro world hworld
  obtain ⟨hending, hafter, hignores⟩ := hfirst world hworld
  rw [exec_bind, exec_bind]
  generalize first.exec world = run, first'.exec world = run' at hending hafter hignores
  obtain ⟨result, after⟩ := run
  obtain ⟨result', after'⟩ := run'
  obtain rfl : after = after' := hafter
  cases hending with
  | ok hvalues => exact hnext _ _ hvalues after hignores
  | error hstops => exact ⟨.error hstops, rfl, hignores⟩

theorem bind_same {S : γ → δ → Prop} {first first' : Run σ α} {next : α → Run σ γ}
    {next' : α → Run σ δ} (hfirst : Agree reached Eq first first')
    (hnext : ∀ a, Agree reached S (next a) (next' a)) :
    Agree reached S (first >>= next) (first' >>= next') := by
  refine hfirst.bind fun a b hvalues => ?_
  cases hvalues
  exact hnext a

theorem closed (deadlines : Deadlines) :
    Closed deadlines deadlines fun {α : Type} (run other : Run σ α) =>
      Agree reached Eq run other where
  pure _ := pure rfl
  lift result := quiet (.lift result)
  engine := quiet .engine
  now := quiet .now
  nextPause := quiet .nextPause
  apply := apply
  block millis := quiet (.wait millis [])
  wait millis := quiet (.wait millis deadlines)
  bind hfirst hnext := hfirst.bind_same hnext

theorem within (millis : UInt64) (outer : Deadlines) {body body' : Deadlines → Run σ α}
    (hbody : ∀ deadlines, Agree reached Eq (body deadlines) (body' deadlines)) :
    Agree reached Eq (Run.within millis outer body) (Run.within millis outer body') := by
  intro world hworld
  obtain ⟨hending, hafter, hignores⟩ :=
    hbody ((world.clock.elapsed + millis.toNat) :: outer) world hworld
  rw [exec_within_eq, exec_within_eq]
  dsimp only
  rw [hending.eq, hafter]
  exact ⟨.same (fun _ => rfl) _, rfl, hafter ▸ hignores⟩

end Agree

end Run

/-! ## Steps that agree -/

/-- Both operations go on with the same record, in sessions that are related, or both end
their chain in the same way. -/
inductive Step.Agree (R : Session → Session → Prop) : Step → Step → Prop where
  | next (record : Record) {session other : Session} (hsessions : R session other) :
      Agree R (.next record session) (.next record other)
  | halt (record : Record) : Agree R (.halt record) (.halt record)
  | failed (error : Error) {session other : Session} (hresults : session.results = other.results) :
      Agree R (.failed error session) (.failed error other)

/-- The change does the same to sessions that are the same but for some defaults, after
which they differ in what is left of these. -/
def Update.Agree (apart left : List Default) (change : Update Session Unit) : Prop :=
  ∀ session other, session.SameBut apart other →
    Step.Agree (Session.SameBut left) (.ofChange (change.exec session))
      (.ofChange (change.exec other))

namespace Update.Agree

variable {apart left : List Default}

theorem lift_bind (result : Except Error α) {next : α → Update Session Unit}
    (hnext : ∀ a, Update.Agree apart left (next a)) :
    Update.Agree apart left (Update.lift result >>= next) := by
  intro session other hsame
  rw [exec_lift_bind, exec_lift_bind]
  cases result with
  | ok a => exact hnext a session other hsame
  | error error => exact .failed error hsame.results

theorem throw (error : Error) :
    Update.Agree apart left (MonadExcept.throw error : Update Session Unit) :=
  fun _ _ hsame => .failed error hsame.results

theorem modifies {change : Session → Session}
    (hchange : ∀ session other, session.SameBut apart other →
      (change session).SameBut left (change other)) :
    Update.Agree apart left (modify change) :=
  fun session other hsame => .next .ok (hchange session other hsame)

theorem clear (index : Int) : Update.Agree apart apart (do
    let results ← Update.lift ((← get).results.clear index)
    modify fun session => { session with results }) := by
  intro session other hsame
  rw [Program.exec_bind_ok (Program.exec_get _), Program.exec_bind_ok (Program.exec_get _),
    exec_lift_bind, exec_lift_bind, hsame.results]
  cases other.results.clear index with
  | ok results => exact .next .ok { hsame with results := rfl }
  | error error => exact .failed error hsame.results

end Update.Agree

theorem agree_of_administer {apart : List Default} {registry : Registry} {ctx : Context}
    {args : Arguments} {change : Update Session Unit}
    (hchange : administer? registry ctx args = some change) :
    change.Agree apart (args.kind.leaves apart) := by
  unfold administer? at hchange
  split at hchange <;> cases hchange
  next hkind =>
    refine .lift_bind _ fun keyspace => .modifies fun session other hsame => ?_
    rw [hkind]
    exact { hsame with
      keyspace := fun _ => rfl
      table := fun hnot => hsame.table (not_mem_of_leaves hnot (by decide))
      consistency := fun hnot => hsame.consistency (not_mem_of_leaves hnot (by decide)) }
  next hkind =>
    refine .lift_bind _ fun table => ?_
    split
    · refine .modifies fun session other hsame => ?_
      rw [hkind]
      exact { hsame with
        keyspace := fun hnot => hsame.keyspace (not_mem_of_leaves hnot (by decide))
        table := fun _ => rfl
        consistency := fun hnot => hsame.consistency (not_mem_of_leaves hnot (by decide)) }
    · exact .throw _
  next hkind =>
    refine .lift_bind _ fun level => .modifies fun session other hsame => ?_
    rw [hkind]
    exact { hsame with
      keyspace := fun hnot => hsame.keyspace (not_mem_of_leaves hnot (by decide))
      table := fun hnot => hsame.table (not_mem_of_leaves hnot (by decide))
      consistency := fun _ => rfl }
  -- The other kinds set none of the three.
  all_goals
    rename_i hkind
    rw [leaves_of_sets (by rw [hkind]; rfl)]
  · exact .lift_bind _ fun _ => .modifies fun _ _ hsame => { hsame with autoTimestamp := rfl }
  · exact .lift_bind _ fun keyspace => .lift_bind _ fun table => .lift_bind _ fun role =>
      .lift_bind _ fun type => .modifies fun _ _ hsame => { hsame with
        assumptions := congrArg (·.insert ⟨keyspace, table, role⟩ type) hsame.assumptions }
  · refine .lift_bind _ fun enabled => ?_
    split
    · exact .lift_bind _ fun _ => .lift_bind _ fun _ => .modifies fun _ _ hsame =>
        { hsame with filter := rfl }
    · exact .modifies fun _ _ hsame => { hsame with filter := rfl }
  · exact .lift_bind _ fun _ => .modifies fun _ _ hsame => { hsame with components := rfl }
  · exact .lift_bind _ fun _ => .clear _

/-! ## Operations that agree -/

section Operations

open Run

variable [Store σ] {reached : List Default → Source → Prop} {apart : List Default}
  {nested : Nested σ} {deadlines : Deadlines} {binds : Option Binds} {ctx : Context}
  {args : Arguments} {operation : Operation} {rest : List Operation} {session other : Session}

/-- Chains that inherit none of the defaults end alike in sessions that differ in these. -/
def Nested.Agree (reached : List Default → Source → Prop) (nested : Nested σ) : Prop :=
  ∀ apart operations, ChainIgnores reached apart operations → ∀ deadlines session other binds,
    session.SameBut apart other →
      Run.Agree reached Eq (nested deadlines operations session binds)
        (nested deadlines operations other binds)

section Timed

variable (hnested : nested.Agree reached) (hsame : session.SameBut apart other)
  (hcalls : ∀ source, args.Calls source → reached apart source)
include hnested hsame hcalls

omit [Store σ] in
theorem agree_runExecutePrepared (hkind : args.kind = .executePrepared) (deadlines : Deadlines) :
    Run.Agree reached Eq (runExecutePrepared nested deadlines args session)
      (runExecutePrepared nested deadlines args other) := by
  intro world hworld
  rcases exec_runExecutePrepared_cases nested deadlines args world with
    ⟨error, hfailed⟩ | ⟨template, binds, hnames⟩
  · rw [hfailed, hfailed]
    exact ⟨.error rfl, rfl, hworld⟩
  · obtain ⟨handle, hhandle, htemplate⟩ := Except.bind_eq_ok_iff.mp hnames.template
    have hignores := hworld apart _ template (hcalls _ (.template hkind hhandle))
      (.template htemplate)
    obtain ⟨hending, hafter, hworld'⟩ := hnested apart template hignores deadlines
      (session.fork template.length) (other.fork template.length) (some binds) (hsame.fork _) world
      hworld
    rw [exec_runExecutePrepared hnames, exec_runExecutePrepared hnames]
    dsimp only
    rw [← hending.eq, ← hafter]
    exact ⟨.same (fun _ => rfl) _, rfl, hworld'⟩

omit [Store σ] in
theorem agree_runServiceProcess (hkind : args.kind = .serviceProcess) (deadlines : Deadlines) :
    Run.Agree reached Eq (runServiceProcess nested deadlines args session)
      (runServiceProcess nested deadlines args other) := by
  intro world hworld
  rcases exec_runServiceProcess_cases nested deadlines args world with
    ⟨error, hfailed⟩ | ⟨name, process, params, operations, hname, hprocess, hbuild, hexec⟩
  · rw [hfailed, hfailed]
    exact ⟨.error rfl, rfl, hworld⟩
  · have hignores := hworld apart _ operations (hcalls _ (.process hkind hname))
      (.process hprocess hbuild)
    obtain ⟨hending, hafter, hworld'⟩ := hnested apart operations hignores deadlines
      (session.fork operations.length) (other.fork operations.length) none (hsame.fork _) world
      hworld
    rw [hexec, hexec]
    dsimp only
    rw [← hending.eq, ← hafter]
    exact ⟨.same (fun _ => rfl) _, rfl, hworld'⟩

/-- Processors and combiners see of their session what was captured, and operations on the
store what is in their context. -/
theorem agree_timedRun :
    Option.Rel (fun body body' : Deadlines → Run σ Record =>
        ∀ deadlines, Run.Agree reached Eq (body deadlines) (body' deadlines))
      (timedRun? nested ctx args session) (timedRun? nested ctx args other) := by
  unfold timedRun?
  split
  next hkind => exact .some (agree_runExecutePrepared hnested hsame hcalls hkind)
  · refine .some fun deadlines => ?_
    rw [hsame.eq_withDefaults]
    exact .quiet (Quiet.engine.bind fun _ => (Quiet.lift _).bind fun _ =>
      (Quiet.wait _ _).bind fun _ => (Quiet.lift _).bind fun _ => Quiet.pure _)
  · refine .some fun deadlines => ?_
    rw [hsame.eq_withDefaults]
    exact .quiet (Quiet.engine.bind fun _ => (Quiet.lift _).bind fun _ =>
      (Quiet.wait _ _).bind fun _ => (Quiet.lift _).bind fun _ => Quiet.pure _)
  next hkind => exact .some (agree_runServiceProcess hnested hsame hcalls hkind)
  · rw [dataRun?_of_sameBut hsame]
    cases hrun : (dataRun? ctx args session : Option (Deadlines → Run σ Record)) with
    | none => exact .none
    | some run => exact .some fun deadlines => (Agree.closed deadlines).dataRun hrun

end Timed

omit [Store σ] in
theorem sets_of_registeredShape {kind : OperationKind} {shape : Shape}
    (hshape : registeredShape? kind = some shape) : kind.sets = [] := by
  cases kind <;> first | rfl | cases hshape

theorem sets_of_timedRun {body : Deadlines → Run σ Record}
    (hbody : timedRun? nested ctx args session = some body) : args.kind.sets = [] := by
  cases hkind : args.kind <;> first | rfl | simp [timedRun?, dataRun?, hkind] at hbody

theorem agree_runResolved (hnested : nested.Agree reached) (hsame : session.SameBut apart other)
    (hprepare : args.kind ≠ .prepare) (hsaves : args.kind = .saveState → apart = [])
    (hcalls : ∀ source, args.Calls source → reached apart source)
    (hregisters : args.kind ≠ .createServiceProcess) :
    Run.Agree reached (Step.Agree (Session.SameBut (args.kind.leaves apart)))
      (runResolved nested deadlines ctx args rest session)
      (runResolved nested deadlines ctx args rest other) := by
  intro world hworld
  unfold runResolved
  split
  · exact ⟨.error rfl, rfl, hworld⟩
  next hkind => exact absurd hkind hprepare
  next hkind =>
    rw [hsaves hkind] at hsame
    rw [hsame.eq_of_nil, exec_runSaveState]
    exact ⟨.ok (.next _ (.refl _ _)), rfl, hworld.of_eq rfl rfl⟩
  next hkind =>
    rw [exec_runRestoreState, exec_runRestoreState]
    cases world.engine.namedState args with
    | error error => exact ⟨.error rfl, rfl, hworld⟩
    | ok snapshot =>
        refine ⟨.ok (.next .ok ?_), rfl, hworld⟩
        exact { hsame with
          autoTimestamp := rfl
          assumptions := rfl
          keyspace := fun _ => rfl
          table := fun _ => rfl
          consistency := fun _ => rfl }
  · split
    next shape hshape =>
      have hother : shape ≠ .serviceProcess := by
        rintro rfl
        exact hregisters (createServiceProcess_of_registeredShape hshape)
      rw [leaves_of_sets (sets_of_registeredShape hshape)]
      cases hregistry : registerCapability world.engine.registry shape args with
      | ok registry =>
          rw [exec_runRegister_ok hregistry, exec_runRegister_ok hregistry]
          exact ⟨.ok (.next .ok hsame), rfl, hworld.register hother hregistry⟩
      | error error =>
          rw [exec_runRegister_error hregistry, exec_runRegister_error hregistry]
          exact ⟨.error rfl, rfl, hworld⟩
    next hshape =>
      rw [Program.exec_bind_ok (exec_engine world), Program.exec_bind_ok (exec_engine world)]
      split
      next change hchange =>
        exact ⟨.ok (agree_of_administer hchange session other hsame), rfl, hworld⟩
      next hnone =>
        have hbodies : Option.Rel _ (timedRun? nested ctx args session)
          (timedRun? nested ctx args other) := agree_timedRun hnested hsame hcalls
        generalize hbody : timedRun? nested ctx args session = body,
          timedRun? nested ctx args other = body' at hbodies
        cases hbodies with
        | some hbodies =>
            rw [leaves_of_sets (sets_of_timedRun hbody)]
            exact Agree.bind_same (.within ctx.timeout deadlines hbodies)
              (fun record => .pure (.next record hsame)) world hworld
        | none => exact ⟨.error rfl, rfl, hworld⟩

/-- Sessions with the same results resolve an operation alike. -/
theorem agree_of_resolved {R : Session → Session → Prop}
    (hresults : session.results = other.results)
    (hresolved : ∀ args timeout, operation.resolve session.results binds = .ok args →
      Run.Agree reached (Step.Agree R)
        (runResolved nested deadlines (Context.of session operation timeout) args rest session)
        (runResolved nested deadlines (Context.of other operation timeout) args rest other)) :
    Run.Agree reached (Step.Agree R)
      (runOperation nested deadlines operation rest session binds)
      (runOperation nested deadlines operation rest other binds) := by
  intro world hworld
  cases hargs : operation.resolve session.results binds with
  | error error =>
      have hargs' := hargs
      rw [hresults] at hargs'
      rw [runOperation_unresolved nested deadlines rest world hargs,
        runOperation_unresolved nested deadlines rest world hargs']
      exact ⟨.error rfl, rfl, hworld⟩
  | ok args =>
      have hargs' := hargs
      rw [hresults] at hargs'
      rw [runOperation_resolved nested deadlines rest world hargs,
        runOperation_resolved nested deadlines rest world hargs']
      exact hresolved args _ hargs world hworld

theorem agree_runOperation (hnested : nested.Agree reached) (hprepare : operation.kind ≠ .prepare)
    (hoperation : operation.Ignores reached apart) (hsame : session.SameBut apart other) :
    Run.Agree reached (Step.Agree (Session.SameBut (operation.kind.leaves apart)))
      (runOperation nested deadlines operation rest session binds)
      (runOperation nested deadlines operation rest other binds) := by
  refine agree_of_resolved hsame.results fun args timeout hargs => ?_
  have hkind := Operation.resolve_kind hargs
  have hsaves : args.kind = .saveState → apart = [] := by
    intro hsave
    have hreads := hoperation.reads
    rw [Operation.reads, if_pos (hkind ▸ hsave)] at hreads
    exact List.eq_nil_iff_forall_not_mem.mpr fun default => hreads _ default.mem_all
  -- What the operation names itself differs in the sessions only, and not in the contexts.
  have hcontext : ∀ default ∈ args.kind.reads,
      default ∉ apart.filter fun default => !operation.overrides.names default := by
    intro default hdefault hdiffers
    obtain ⟨hmem, hunnamed⟩ := List.mem_filter.mp hdiffers
    refine hoperation.reads default ?_ hmem
    rw [hkind] at hdefault
    rw [Operation.reads, if_neg fun hsave => by rw [hsave] at hdefault; cases hdefault]
    exact List.mem_filter.mpr ⟨hdefault, hunnamed⟩
  rw [runResolved_of_context (hsame.context operation timeout) hcontext, ← hkind]
  rw [← hkind] at hprepare
  exact agree_runResolved hnested hsame hprepare hsaves
    (fun source hcalls => hoperation.calls source ⟨_, _, args, hargs, hcalls⟩)
    (hkind ▸ hoperation.registers)

/-- After a `prepare` no chain goes on. -/
theorem agree_prepare (hkind : operation.kind = .prepare)
    (hkept : ∀ apart handle, reached apart (.template handle) → ChainIgnores reached apart rest)
    (hresults : session.results = other.results) :
    Run.Agree reached (Step.Agree fun _ _ => False)
      (runOperation nested deadlines operation rest session binds)
      (runOperation nested deadlines operation rest other binds) := by
  refine agree_of_resolved hresults fun args timeout hargs world hworld => ?_
  have hrun (ctx : Context) (session : Session) :
      runResolved nested deadlines ctx args rest session = runPrepare rest := by
    simp only [runResolved, Operation.resolve_kind hargs, hkind]
  rw [hrun, hrun, exec_runPrepare]
  exact ⟨.ok (.halt _), rfl, hworld.keep hkept⟩

/-! ## Chains that agree -/

theorem agree_runFrom_cons {R : Session → Session → Prop} {index : Nat}
    (hresults : session.results = other.results)
    (hfirst : Run.Agree reached (Step.Agree R)
      (runOperation nested deadlines operation rest session binds)
      (runOperation nested deadlines operation rest other binds))
    (hrest : ∀ record after after', R after after' →
      Run.Agree reached Eq
        (runFrom nested deadlines binds (index + 1) rest
          { after with results := after.results.capture index record })
        (runFrom nested deadlines binds (index + 1) rest
          { after' with results := after'.results.capture index record })) :
    Run.Agree reached Eq (runFrom nested deadlines binds index (operation :: rest) session)
      (runFrom nested deadlines binds index (operation :: rest) other) := by
  intro world hworld
  obtain ⟨hending, hafter, hignores⟩ := hfirst world hworld
  rw [runFrom, runFrom, Program.exec_bind_ok (exec_outcome _ world),
    Program.exec_bind_ok (exec_outcome _ world)]
  generalize (runOperation nested deadlines operation rest session binds).exec world = run,
    (runOperation nested deadlines operation rest other binds).exec world = run'
    at hending hafter hignores
  obtain ⟨ending, after⟩ := run
  obtain ⟨ending', after'⟩ := run'
  obtain rfl : after = after' := hafter
  cases hending with
  | @error stop stop' hstops =>
      obtain rfl : stop = stop' := hstops
      cases stop with
      | failed error =>
          dsimp only
          rw [hresults]
          exact ⟨.ok rfl, rfl, hignores⟩
      | overdue level => exact ⟨.error rfl, rfl, hignores⟩
      | unfinished => exact ⟨.error rfl, rfl, hignores⟩
  | ok hsteps =>
      cases hsteps with
      | next record hsessions => exact hrest record _ _ hsessions after hignores
      | halt record =>
          dsimp only
          rw [hresults]
          exact ⟨.ok rfl, rfl, hignores⟩
      | failed error hresults =>
          dsimp only
          rw [hresults]
          exact ⟨.ok rfl, rfl, hignores⟩

/-- What sessions differ in grows less with every operation that sets a default, and nothing
of it is read: the sessions stay the same but for what is left of it. -/
theorem agree_runFrom (hnested : nested.Agree reached) {operations : List Operation}
    (hignores : ChainIgnores reached apart operations) (hsame : session.SameBut apart other)
    (index : Nat) :
    Run.Agree reached Eq (runFrom nested deadlines binds index operations session)
      (runFrom nested deadlines binds index operations other) := by
  induction hignores generalizing index session other with
  | nil apart =>
      rw [runFrom, runFrom, hsame.results]
      exact .pure rfl
  | prepare hkind hkept _ =>
      refine agree_runFrom_cons hsame.results (agree_prepare hkind hkept hsame.results) ?_
      rintro _ _ _ ⟨⟩
  | cons hkind hoperation _ ih =>
      refine agree_runFrom_cons hsame.results (agree_runOperation hnested hkind hoperation hsame) ?_
      intro record after after' hleft
      refine ih ?_ (index + 1)
      exact { hleft with results := congrArg (·.capture index record) hleft.results }

end Operations

/-- However deep chains nest, those that inherit none of the defaults end alike in sessions
that differ in these. -/
theorem agree_runChain [Store σ] (reached : List Default → Source → Prop) (depth : Nat) :
    (runChain depth : Nested σ).Agree reached := by
  induction depth with
  | zero => exact fun _ _ _ _ _ _ _ _ => .throw Eq .unfinished
  | succ depth ih =>
      intro apart operations hignores deadlines session other binds hsame
      exact agree_runFrom ih hignores hsame 0

/-! ## Operations that run chains -/

theorem eq_of_agree {R : Session → Session → Prop} {session other : Session}
    {outcome outcome' : Except Stop Record}
    (hagree : EndAlike Eq (Step.Agree R) (outcome.map fun record => .next record session)
      (outcome'.map fun record => .next record other)) : outcome = outcome' := by
  cases outcome with
  | error stop =>
      cases outcome' with
      | error stop' =>
          cases hagree with
          | error hstops => rw [hstops]
      | ok record => cases hagree
  | ok record =>
      cases outcome' with
      | error stop => cases hagree
      | ok record' =>
          cases hagree with
          | ok hsteps =>
              cases hsteps
              rfl

/-- The operation with these settings named in place of its own. -/
def Operation.naming (operation : Operation) (keyspace table : Option String)
    (consistency : Option Consistency) : Operation :=
  { operation with overrides := { operation.overrides with keyspace, table, consistency } }

namespace Attempt

variable [Store σ] {nested : Nested σ} {depth : Nat} {deadlines : Deadlines}
  {binds : Option Binds} {operation : Operation} {rest : List Operation}
  {session other : Session} {world : World σ}

/-- It makes no difference what an operation names that reads no default. -/
theorem exec_runOperation_naming (hreads : operation.kind.reads = [])
    (keyspace table : Option String) (consistency : Option Consistency) :
    (runOperation nested deadlines (operation.naming keyspace table consistency) rest session
        binds).exec world =
      (runOperation nested deadlines operation rest session binds).exec world := by
  cases hargs : operation.resolve session.results binds with
  | error error =>
      rw [runOperation_unresolved nested deadlines rest world hargs]
      exact runOperation_unresolved nested deadlines rest world hargs
  | ok args =>
      have hcontext : (Context.of session operation world.engine.timeout).SameBut Default.all
          (Context.of session (operation.naming keyspace table consistency)
            world.engine.timeout) :=
        ⟨rfl, rfl, absurd (Default.mem_all _), absurd (Default.mem_all _),
          absurd (Default.mem_all _)⟩
      have hnone : ∀ default ∈ args.kind.reads, default ∉ Default.all := by
        rw [Operation.resolve_kind hargs, hreads]
        exact List.forall_mem_nil _
      rw [runOperation_resolved nested deadlines rest world hargs,
        ← runResolved_of_context hcontext hnone]
      exact runOperation_resolved nested deadlines rest world hargs

theorem matches_naming (hreads : operation.kind.reads = [])
    (hmatches : (attemptOf nested deadlines binds operation rest session world).Matches
      (attemptOf nested deadlines binds operation rest other world))
    (keyspace keyspace' table table' : Option String)
    (consistency consistency' : Option Consistency) :
    (attemptOf nested deadlines binds (operation.naming keyspace table consistency) rest session
        world).Matches
      (attemptOf nested deadlines binds (operation.naming keyspace' table' consistency') rest other
        world) := by
  have hrun (session : Session) (keyspace table : Option String)
      (consistency : Option Consistency) :
      attemptOf nested deadlines binds (operation.naming keyspace table consistency) rest session
          world =
        { attemptOf nested deadlines binds operation rest session world with
          operation := operation.naming keyspace table consistency } := by
    rw [attemptOf, attemptOf, exec_runOperation_naming hreads]
  rw [hrun, hrun]
  exact { hmatches with }

section Sources

variable (hkind : operation.kind ∈ [.executePrepared, .serviceProcess])
include hkind

omit [Store σ] in
theorem reads_of_source : operation.kind.reads = [] := by
  simp only [List.mem_cons, List.not_mem_nil, or_false] at hkind
  rcases hkind with hkind | hkind <;> rw [hkind] <;> rfl

omit [Store σ] in
theorem ne_of_source {kind : OperationKind} (hnot : kind ∉ [.executePrepared, .serviceProcess]) :
    operation.kind ≠ kind :=
  fun hsame => hnot (hsame ▸ hkind)

/-- An operation that runs a chain leaves its session as it found it. -/
theorem exists_ending_of_source (nested : Nested σ) (deadlines : Deadlines) (binds : Option Binds)
    (rest : List Operation) (session : Session) (world : World σ) :
    ∃ outcome : Except Stop Record,
      ((runOperation nested deadlines operation rest session binds).exec world).1 =
        outcome.map fun record => .next record session := by
  cases hargs : operation.resolve session.results binds with
  | error error =>
      rw [runOperation_unresolved nested deadlines rest world hargs]
      exact ⟨.error (.failed error), rfl⟩
  | ok args =>
      obtain ⟨body, hbody⟩ : ∃ body, timedRun? nested
          (Context.of session operation world.engine.timeout) args session = some body := by
        rw [← Operation.resolve_kind hargs] at hkind
        simp only [List.mem_cons, List.not_mem_nil, or_false] at hkind
        rcases hkind with hkind | hkind <;> rw [timedRun?, hkind] <;> exact ⟨_, rfl⟩
      exact ⟨_, (run_of_timedRun rfl hargs hbody).1⟩

theorem matches_self :
    (attemptOf nested deadlines binds operation rest session world).Matches
      (attemptOf nested deadlines binds operation rest session world) := by
  obtain ⟨outcome, hending⟩ :=
    exists_ending_of_source hkind nested deadlines binds rest session world
  refine matches_of_endsAs ?_ rfl
  rw [attemptOf, hending]
  exact .map (ne_of_source hkind (by decide)) session session outcome

/-- An operation that runs a chain ends alike in sessions that differ in nothing that a chain
inherits which it reaches. -/
theorem matches_of_ignores {reached : List Default → Source → Prop}
    {apart : List Default} (hsame : session.SameBut apart other)
    (hworld : world.engine.Ignores reached)
    (hcalls : ∀ source, operation.Calls source → reached apart source) :
    (attemptOf (runChain depth) deadlines binds operation rest session world).Matches
      (attemptOf (runChain depth) deadlines binds operation rest other world) := by
  have hoperation : operation.Ignores reached apart := by
    refine ⟨?_, hcalls, ne_of_source hkind (by decide)⟩
    rw [Operation.reads, if_neg (ne_of_source hkind (by decide)), reads_of_source hkind]
    exact List.forall_mem_nil _
  obtain ⟨hagree, hafter, _⟩ := agree_runOperation (agree_runChain reached depth)
    (ne_of_source hkind (by decide)) hoperation hsame world hworld
  obtain ⟨outcome, hending⟩ :=
    exists_ending_of_source hkind (runChain depth) deadlines binds rest session world
  obtain ⟨outcome', hending'⟩ :=
    exists_ending_of_source hkind (runChain depth) deadlines binds rest other world
  refine matches_of_endsAs ?_ hafter
  rw [hending, hending'] at hagree
  rw [attemptOf, attemptOf, hending, hending', eq_of_agree hagree]
  exact .map (ne_of_source hkind (by decide)) session other outcome'

end Sources

/-- What an operation names that runs a chain is lost on the chain: it makes no difference
whether it is named. The operation does what it does without that in a session with these
defaults, if it reaches no chain that inherits one in which that session is different. -/
theorem matches_of_named (hkind : operation.kind ∈ [.executePrepared, .serviceProcess])
    (keyspace table : String) (consistency : Consistency) :
    let attempt (operation : Operation) (session : Session) :=
      attemptOf (runChain depth) deadlines binds operation rest session world
    let naming := operation.naming (some keyspace) (some table) (some consistency)
    let plain := operation.naming none none none
    let given := session.withDefaults (some keyspace) (some table) consistency
    (attempt naming session).Matches (attempt plain session) ∧
      ∀ apart reached, session.SameBut apart given → world.engine.Ignores reached →
        (∀ source, operation.Calls source → reached apart source) →
          (attempt naming session).Matches (attempt plain given) := by
  intro attempt naming plain given
  have hreads := reads_of_source hkind
  constructor
  · exact matches_naming hreads (matches_self hkind) ..
  · intro apart reached hsame hworld hcalls
    exact matches_naming hreads (matches_of_ignores hkind hsame hworld hcalls) ..

/-- A template that sets its keyspace itself and then executes one that inherits it. -/
theorem matches_of_named_set :
    let keyspace : Keyspace := { replication := 1, tables := (∅ : Map String Rows).insert "t" ∅ }
    let execute (id : Int64) := Operation.literal { kind := .executePrepared } "id" (.int id)
    let setting := Operation.literal { kind := .setKeyspace } "keyspace" (.text "ks")
    let kept : Keeper (List Operation) := { what := "prepared statement" }
    let engine : Engine NestedStore :=
      { store := { keyspaces := (∅ : Map String Keyspace).insert "ks" keyspace }
        prepared := ((kept.keep [setting, execute 2]).2.keep [{ kind := .listTables }]).2 }
    let naming := (execute 1).naming (some "other") (some "t") (some .one)
    let session : Session := { defaults := { consistency := .any } }
    let given := session.withDefaults (some "other") (some "t") .one
    let attempt (operation : Operation) (session : Session) :=
      attemptOf (runChain 2) [] none operation [] session ⟨engine, { readings := fun _ => 0 }⟩
    (attempt naming session).record? = some (.ofNames ["t"]) ∧
      (attempt naming session).Matches (attempt (execute 1) given) := by
  intro keyspace execute setting kept engine naming session given attempt
  let reached (apart : List Default) (source : Source) : Prop :=
    source = .template 1 ∨ (source = .template 2 ∧ .keyspace ∉ apart)
  have hinner (apart : List Default) (hkeyspace : .keyspace ∉ apart) :
      (execute 2).Ignores reached apart := by
    refine ⟨List.forall_mem_nil _, ?_, by decide⟩
    rintro source ⟨results, binds, args, hargs, hcalls⟩
    cases hargs
    cases hcalls with
    | template _ hhandle =>
        cases hhandle
        exact .inr ⟨rfl, hkeyspace⟩
    | process hkind _ => cases hkind
  have hengine : engine.Ignores reached := by
    intro apart source operations hreached hruns
    rcases hreached with rfl | ⟨rfl, hkeyspace⟩
    · cases hruns with
      | template hget =>
          cases hget
          refine .cons (by decide) (.of_plain (by decide) (List.forall_mem_nil _)) ?_
          refine .cons (by decide) (hinner _ ?_) (.nil _)
          exact fun hmem => absurd (List.mem_filter.mp hmem).2 (by decide)
    · cases hruns with
      | template hget =>
          cases hget
          exact .of_plain (by decide) (List.forall_mem_singleton.mpr hkeyspace)
  have hkind : (execute 1).kind ∈ [.executePrepared, .serviceProcess] := by decide
  refine ⟨rfl, (matches_of_named hkind "other" "t" .one).2 Default.all reached (.withDefaults ..)
    hengine ?_⟩
  rintro source ⟨results, binds, args, hargs, hcalls⟩
  cases hargs
  cases hcalls with
  | template _ hhandle =>
      cases hhandle
      exact .inl rfl
  | process hkind _ => cases hkind

/-- A template that lists tables fails where only the operation that executes it names their
keyspace. -/
theorem not_matches_of_named :
    let keyspace : Keyspace := { replication := 1, tables := (∅ : Map String Rows).insert "t" ∅ }
    let kept : Keeper (List Operation) := { what := "prepared statement" }
    let engine : Engine NestedStore :=
      { store := { keyspaces := (∅ : Map String Keyspace).insert "ks" keyspace }
        prepared := (kept.keep [{ kind := .listTables }]).2 }
    let call := Operation.literal { kind := .executePrepared } "id" (.int 1)
    let naming := call.naming (some "ks") (some "t") (some .one)
    let session : Session := { defaults := { consistency := .any } }
    let given := session.withDefaults (some "ks") (some "t") .one
    let attempt (operation : Operation) (session : Session) :=
      attemptOf (runChain 1) [] none operation [] session ⟨engine, { readings := fun _ => 0 }⟩
    (attempt naming session).error? = some (.validation .noKeyspace) ∧
      (attempt call given).record? = some (.ofNames ["t"]) ∧
      ¬ (attempt naming session).Matches (attempt call given) := by
  intro keyspace kept engine call naming session given attempt
  refine ⟨rfl, rfl, fun hmatches => ?_⟩
  have hrecord : (none : Option Record) = some (.ofNames ["t"]) := hmatches.record
  cases hrecord

end Attempt

end OperationChain
