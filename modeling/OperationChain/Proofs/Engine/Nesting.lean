import OperationChain.Proofs.Engine.Templates
import OperationChain.Proofs.Ordered.Map

/-! # How deep chains nest

A template that executes itself is never done, however deep chains may nest: nothing
in it waits, so that no deadline comes up. Where templates execute only such as were
kept before them and no service process builds a chain, every request has an answer.
-/

namespace OperationChain

variable {σ : Type} [Store σ]

/-! ## Templates that execute themselves -/

/-- The operation executes a template that starts with the operation itself, whatever
the results before it are. -/
structure Operation.Recalls (operation : Operation) (prepared : Keeper (List Operation)) :
    Prop where
  kind : operation.kind = .executePrepared
  names : ∀ results outer, ∃ args rest binds, operation.resolve results outer = .ok args ∧
    args.Names prepared (operation :: rest) binds

section Recalls

variable {operation : Operation} {world : World σ}

theorem exec_runFrom_unfinished {nested : Nested σ} {deadlines : Deadlines} {binds : Option Binds}
    {rest : List Operation} {session : Session}
    (hrun : (runOperation nested deadlines operation rest session binds).exec world =
      (.error .unfinished, world)) (index : Nat) :
    (runFrom nested deadlines binds index (operation :: rest) session).exec world =
      (.error .unfinished, world) := by
  rw [runFrom, Program.exec_bind_ok (Run.exec_outcome _ world), hrun]
  rfl

/-- A chain that starts with such an operation does not end, and leaves no trace. -/
theorem unfinished_of_recalls (hrecalls : operation.Recalls world.engine.prepared) (depth : Nat) :
    ∀ deadlines rest session binds,
      (runChain depth deadlines (operation :: rest) session binds).exec world =
        (.error .unfinished, world) := by
  induction depth with
  | zero => exact fun _ _ _ _ => rfl
  | succ depth ih =>
      intro deadlines rest session binds
      obtain ⟨args, again, bound, hargs, hnames⟩ := hrecalls.names session.results binds
      refine exec_runFrom_unfinished ?_ 0
      rw [exec_runOperation_executePrepared hrecalls.kind hargs hnames rest]
      dsimp only
      rw [ih]
      rfl

/-- No depth is enough for a request that starts with such an operation. -/
theorem Engine.execute_eq_none_of_recalls {engine : Engine σ} {request : Request}
    {rest : List Operation} (hrestore : request.restore = none)
    (hoperations : request.operations = operation :: rest)
    (hrecalls : operation.Recalls engine.prepared) (clock : Clock) (depth : Nat) :
    engine.execute clock depth request = none := by
  have hsession : engine.startSession request = .ok (Session.start
      (request.consistency.getD engine.consistency) request.operations.length) := by
    rw [startSession, hrestore]
  have hworld : operation.Recalls (World.mk engine clock).engine.prepared := hrecalls
  rw [execute, hsession]
  dsimp only
  rw [hoperations, unfinished_of_recalls hworld]

/-- A request can keep a template that executes itself, and the next one that executes
it has no answer. -/
theorem Engine.endless :
    let again : Operation := Operation.literal { kind := .executePrepared } "id" (.int 1)
    let engine : Engine NestedStore := { store := {} }
    let clock : Clock := { readings := fun _ => 0 }
    ∃ response world, engine.execute clock 1 { operations := [{ kind := .prepare }, again] } =
        some (response, world) ∧ world.engine.registry.isEmpty ∧
      ∀ depth, world.engine.execute world.clock depth { operations := [again] } = none := by
  intro again engine clock
  refine ⟨_, _, rfl, rfl, fun depth => ?_⟩
  refine execute_eq_none_of_recalls rfl rfl ⟨rfl, fun results outer => ?_⟩ _ depth
  exact ⟨⟨.executePrepared, [("id", .int 1)]⟩, [], ∅, rfl, rfl, rfl⟩

end Recalls

/-! ## Templates that execute earlier ones -/

namespace Operation

variable {bound bound' : Handle} {operation : Operation}

/-- The operation registers no service process, and if it executes a template, then one
whose handle lies below `bound`, whatever the results before it are. -/
structure Tame (bound : Handle) (operation : Operation) : Prop where
  registers : operation.kind ≠ .createServiceProcess
  calls : operation.kind = .executePrepared → ∀ results outer args handle,
    operation.resolve results outer = .ok args → args.handle "id" = .ok handle → handle < bound

theorem Tame.mono (htame : operation.Tame bound) (hle : bound ≤ bound') :
    operation.Tame bound' where
  registers := htame.registers
  calls hkind results outer args handle hargs hhandle :=
    Nat.lt_of_lt_of_le (htame.calls hkind results outer args handle hargs hhandle) hle

end Operation

namespace Engine

variable {engine : Engine σ} {bound : Handle}

/-- No service process is registered, and every template executes only such as were
kept before it. Those that were kept under `bound` or later could all have been kept
under `bound`. -/
structure Tame (bound : Handle) (engine : Engine σ) : Prop where
  services : ∀ name, engine.registry.kept.find? ⟨.serviceProcess, name⟩ = none
  templates : ∀ handle template, engine.prepared.get handle = .ok template →
    handle ≤ engine.prepared.last ∧ ∀ operation ∈ template, operation.Tame (min handle bound)
  bound : bound ≤ engine.prepared.last + 1

/-- No service process is registered, and every template executes only such as were
kept before it. -/
abbrev Grounded (engine : Engine σ) : Prop := engine.Tame (engine.prepared.last + 1)

omit [Store σ] in
theorem Tame.grounded (htame : engine.Tame bound) : engine.Grounded where
  services := htame.services
  templates handle template htemplate := by
    obtain ⟨hlast, hoperations⟩ := htame.templates handle template htemplate
    have hle : min handle bound ≤ min handle (engine.prepared.last + 1) :=
      Nat.le_min.mpr ⟨Nat.min_le_left _ _,
        Nat.le_trans (Nat.min_le_left _ _) (Nat.le_succ_of_le hlast)⟩
    exact ⟨hlast, fun operation hoperation => (hoperations operation hoperation).mono hle⟩
  bound := Nat.le_refl _

omit [Store σ] in
theorem grounded_of_eq_empty (hkept : engine.registry.kept = ∅)
    (hprepared : engine.prepared.kept = ∅) : engine.Grounded where
  services name := by rw [hkept, Map.find?_empty]
  templates handle template htemplate := by
    rw [Keeper.get, hprepared, Map.find?_empty] at htemplate
    cases htemplate
  bound := Nat.le_refl _

end Engine

/-! ## Runs that come to an end -/

namespace Run

open Program

variable {α β : Type} {bound : Handle}

/-- The run ends without chains that nest too deep, and leaves an engine as it needs
one. -/
def Finishes (bound : Handle) (run : Run σ α) : Prop :=
  ∀ world, world.engine.Tame bound →
    (run.exec world).2.engine.Tame bound ∧ (run.exec world).1 ≠ .error .unfinished

namespace Finishes

omit [Store σ]

theorem pure (a : α) : Finishes bound (Pure.pure a : Run σ α) := fun _ htame => ⟨htame, nofun⟩

theorem engine : Finishes bound (Run.engine : Run σ (Engine σ)) := fun _ htame => ⟨htame, nofun⟩

theorem now : Finishes bound (Run.now : Run σ Timestamp) := fun _ htame => ⟨htame, nofun⟩

theorem throw {stop : Stop} (hstop : stop ≠ .unfinished) :
    Finishes bound (MonadExcept.throw stop : Run σ α) := by
  intro world htame
  refine ⟨htame, fun hsame => hstop ?_⟩
  cases hsame
  rfl

theorem lift (result : Except Error α) : Finishes bound (Run.lift result : Run σ α) := by
  cases result with
  | ok a => exact pure a
  | error error => exact throw (by simp)

theorem nextPause : Finishes bound (Run.nextPause : Run σ Pause) :=
  fun _ htame => ⟨htame, nofun⟩

theorem apply (update : Update σ α) : Finishes bound (Run.apply update) :=
  fun _ htame => ⟨⟨htame.services, htame.templates, htame.bound⟩, nofun⟩

theorem bind {first : Run σ α} {next : α → Run σ β} (hfirst : Finishes bound first)
    (hnext : ∀ a, Finishes bound (next a)) : Finishes bound (first >>= next) := by
  intro world htame
  obtain ⟨hafter, hended⟩ := hfirst world htame
  cases hresult : first.exec world with
  | mk result after =>
      rw [hresult] at hafter hended
      cases result with
      | error stop =>
          rw [exec_bind_error hresult]
          refine ⟨hafter, fun hsame => hended ?_⟩
          cases hsame
          rfl
      | ok a =>
          rw [exec_bind_ok hresult]
          exact hnext a after hafter

theorem wait (millis : Nat) (deadlines : Deadlines) :
    Finishes bound (Run.wait millis deadlines : Run σ Unit) := by
  intro world htame
  by_cases hpos : millis = 0
  · rw [Run.wait, if_pos hpos]
    exact pure () world htame
  · rcases exec_wait_cases hpos with ⟨found, _, _, hexec⟩ | ⟨_, hexec⟩
    · rw [hexec]
      exact ⟨htame, by simp⟩
    · rw [hexec]
      exact ⟨htame, by simp⟩

theorem closed (deadlines : Deadlines) :
    Closed deadlines deadlines fun {α : Type} (run _ : Run σ α) => Finishes bound run where
  pure := pure
  lift := lift
  engine := engine
  now := now
  nextPause := nextPause
  apply := apply
  block millis := wait millis []
  wait millis := wait millis deadlines
  bind := bind

theorem within (millis : UInt64) (outer : Deadlines) {body : Deadlines → Run σ α}
    (hbody : ∀ deadlines, Finishes bound (body deadlines)) :
    Finishes bound (Run.within millis outer body) := by
  intro world htame
  obtain ⟨hafter, hended⟩ := hbody ((world.clock.elapsed + millis.toNat) :: outer) world htame
  obtain ⟨result, hexec, hlate | hsame⟩ := exec_within millis outer body world
  · rw [hexec, hlate]
    exact ⟨hafter, by simp⟩
  · rw [hexec, hsame]
    exact ⟨hafter, hended⟩

end Finishes

end Run

/-! ## Operations that run chains -/

section Inner

variable (nested : Nested σ) (deadlines : Deadlines) (args : Arguments) (world : World σ)

omit [Store σ] in
/-- An operation fails before it executes a template, or names one that it executes. -/
theorem exec_runExecutePrepared_cases :
    (∃ error, ∀ session, (runExecutePrepared nested deadlines args session).exec world =
        (.error (.failed error), world)) ∨
      ∃ template binds, args.Names world.engine.prepared template binds := by
  cases hfound : (do
      let found ← world.engine.prepared.get (← args.handle "id")
      return (found, ← bindsOf (args.get? "binds"))) with
  | error error =>
      refine .inl ⟨error, fun session => ?_⟩
      rw [runExecutePrepared, Program.exec_bind_ok (Run.exec_engine world)]
      dsimp only
      rw [hfound, Program.exec_bind_error (Run.exec_lift_error error world)]
  | ok found =>
      obtain ⟨handle, hhandle, hfound⟩ := Except.bind_eq_ok_iff.mp hfound
      obtain ⟨template, htemplate, hfound⟩ := Except.bind_eq_ok_iff.mp hfound
      obtain ⟨binds, hbinds, _⟩ := Except.bind_eq_ok_iff.mp hfound
      exact .inr ⟨template, binds, Except.bind_eq_ok_iff.mpr ⟨handle, hhandle, htemplate⟩, hbinds⟩

/-- What an operation ends with whose service process has built a chain that answers so. -/
def Response.endingWithin (name : String) (response : Response) : Except Stop Record :=
  match response.failure with
  | some failure => .error (.failed (.failedStep name failure.index failure.error))
  | none => .ok response.lastRecord

theorem eq_ok_of_settleFault {α : Type} {shape : Shape} {name : String} {result : Except Fault α}
    {a : α} (hsettled : settleFault shape name result = .ok a) : result = .ok a := by
  unfold settleFault at hsettled
  split at hsettled <;> cases hsettled
  rfl

omit [Store σ] in
/-- An operation fails before it runs a chain, or runs one that its service process builds. -/
theorem exec_runServiceProcess_cases :
    (∃ error, ∀ session, (runServiceProcess nested deadlines args session).exec world =
        (.error (.failed error), world)) ∨
      ∃ name process params operations, args.text "name" = .ok name ∧
        world.engine.registry.serviceProcess name = .ok process ∧
        process.build params = .ok operations ∧
        ∀ session, (runServiceProcess nested deadlines args session).exec world =
          let ending := (nested deadlines operations (session.fork operations.length) none).exec
            world
          (ending.1.bind (Response.endingWithin name), ending.2) := by
  cases hfound : (do
      let name ← args.text "name"
      let params ← args.map "params"
      let process ← world.engine.registry.serviceProcess name
      return (name, ← settleFault .serviceProcess name (process.build params))) with
  | error error =>
      refine .inl ⟨error, fun session => ?_⟩
      rw [runServiceProcess, Program.exec_bind_ok (Run.exec_engine world)]
      dsimp only
      rw [hfound, Program.exec_bind_error (Run.exec_lift_error error world)]
  | ok found =>
      obtain ⟨name, hname, hlater⟩ := Except.bind_eq_ok_iff.mp hfound
      obtain ⟨params, _, hlater⟩ := Except.bind_eq_ok_iff.mp hlater
      obtain ⟨process, hprocess, hlater⟩ := Except.bind_eq_ok_iff.mp hlater
      obtain ⟨operations, hbuild, hlater⟩ := Except.bind_eq_ok_iff.mp hlater
      cases hlater
      refine .inr ⟨name, process, params, operations, hname, hprocess,
        eq_ok_of_settleFault hbuild, fun session => ?_⟩
      rw [runServiceProcess, Program.exec_bind_ok (Run.exec_engine world)]
      dsimp only
      rw [hfound, Program.exec_bind_ok (Run.exec_lift_ok _ world), Program.exec_bind]
      dsimp only
      generalize (nested deadlines operations (session.fork operations.length) none).exec world =
        run
      obtain ⟨stop | response, after⟩ := run
      · rfl
      · dsimp only [Except.bind, Response.endingWithin]
        cases response.failure <;> rfl

end Inner

/-! ## Operations that come to an end -/

section Operations

open Run

variable {bound limit : Handle} {nested : Nested σ} {args : Arguments} {session : Session}

/-- Chains of operations that execute only templates below `limit` come to an end. -/
def Nested.Finishes (nested : Nested σ) (bound limit : Handle) : Prop :=
  ∀ operations : List Operation, (∀ operation ∈ operations, operation.Tame limit) →
    ∀ deadlines session binds, Run.Finishes bound (nested deadlines operations session binds)

omit [Store σ] in
theorem finishes_runExecutePrepared
    (hnested : ∀ handle, args.handle "id" = .ok handle →
      nested.Finishes bound (min handle bound)) (deadlines : Deadlines) :
    Run.Finishes bound (runExecutePrepared nested deadlines args session) := by
  intro world htame
  rcases exec_runExecutePrepared_cases nested deadlines args world with
    ⟨error, hfailed⟩ | ⟨template, binds, hnames⟩
  · rw [hfailed]
    exact ⟨htame, by simp⟩
  · obtain ⟨handle, hhandle, htemplate⟩ := Except.bind_eq_ok_iff.mp hnames.template
    obtain ⟨_, hoperations⟩ := htame.templates handle template htemplate
    obtain ⟨hafter, hended⟩ := hnested handle hhandle template hoperations deadlines
      (session.fork template.length) (some binds) world htame
    rw [exec_runExecutePrepared hnames]
    dsimp only
    generalize (nested deadlines template (session.fork template.length) (some binds)).exec world =
      run at hafter hended ⊢
    obtain ⟨stop | response, after⟩ := run
    · refine ⟨hafter, fun hstop => hended ?_⟩
      cases hstop
      rfl
    · refine ⟨hafter, ?_⟩
      dsimp only [Except.bind, Response.ending]
      split <;> simp

omit [Store σ] in
/-- Without service processes there is none to build a chain. -/
theorem finishes_runServiceProcess (deadlines : Deadlines) :
    Run.Finishes bound (runServiceProcess nested deadlines args session) := by
  intro world htame
  rcases exec_runServiceProcess_cases nested deadlines args world with
    ⟨error, hfailed⟩ | ⟨name, process, _, _, _, hprocess, _⟩
  · rw [hfailed]
    exact ⟨htame, by simp⟩
  · rw [Registry.serviceProcess, Registry.find, htame.services name] at hprocess
    cases hprocess

theorem finishes_timedRun {ctx : Context} {body : Deadlines → Run σ Record}
    (hnested : args.kind = .executePrepared → ∀ handle, args.handle "id" = .ok handle →
      nested.Finishes bound (min handle bound))
    (hbody : timedRun? nested ctx args session = some body) (deadlines : Deadlines) :
    Run.Finishes bound (body deadlines) := by
  unfold timedRun? at hbody
  split at hbody
  next hkind =>
    cases hbody
    exact finishes_runExecutePrepared (hnested hkind) deadlines
  · cases hbody
    exact Finishes.engine.bind fun _ => (Finishes.lift _).bind fun _ =>
      (Finishes.wait _ _).bind fun _ => (Finishes.lift _).bind fun _ => Finishes.pure _
  · cases hbody
    exact Finishes.engine.bind fun _ => (Finishes.lift _).bind fun _ =>
      (Finishes.wait _ _).bind fun _ => (Finishes.lift _).bind fun _ => Finishes.pure _
  · cases hbody
    exact finishes_runServiceProcess deadlines
  · exact (Finishes.closed deadlines).dataRun hbody

omit [Store σ] in
theorem Keeper.get_keep {keeper : Keeper α} {value found : α} {handle : Handle}
    (hfound : (keeper.keep value).2.get handle = .ok found) :
    (handle = keeper.last + 1 ∧ found = value) ∨ keeper.get handle = .ok found := by
  by_cases hnew : handle = keeper.last + 1
  · refine .inl ⟨hnew, ?_⟩
    rw [hnew, Keeper.get, Keeper.keep, Map.find?_insert_self] at hfound
    cases hfound
    rfl
  · refine .inr ?_
    rw [Keeper.get, Keeper.keep, Map.find?_insert_of_ne hnew] at hfound
    exact hfound

omit [Store σ] in
theorem Engine.Tame.keep {engine : Engine σ} {template : List Operation}
    (htame : engine.Tame bound) (htemplate : ∀ operation ∈ template, operation.Tame bound) :
    Engine.Tame bound { engine with prepared := (engine.prepared.keep template).2 } where
  services := htame.services
  templates handle found hfound := by
    rcases Keeper.get_keep hfound with ⟨hnew, hsame⟩ | hold
    · refine ⟨Nat.le_of_eq hnew, fun operation hoperation => ?_⟩
      have hmin : min handle bound = bound := Nat.min_eq_right (hnew ▸ htame.bound)
      rw [hmin]
      exact htemplate operation (hsame ▸ hoperation)
    · obtain ⟨hlast, hoperations⟩ := htame.templates handle found hold
      exact ⟨Nat.le_succ_of_le hlast, hoperations⟩
  bound := Nat.le_succ_of_le htame.bound

theorem createServiceProcess_of_registeredShape {kind : OperationKind}
    (hshape : registeredShape? kind = some .serviceProcess) : kind = .createServiceProcess := by
  cases kind <;> first | rfl | cases hshape

/-- A registration changes nothing that is kept under another shape. -/
theorem find?_of_registerCapability {registry after : Registry} {shape : Shape}
    (hafter : registerCapability registry shape args = .ok after) {key : CapabilityKey}
    (hshape : key.shape ≠ shape) : after.kept.find? key = registry.kept.find? key := by
  obtain ⟨name, _, hafter⟩ := Except.bind_eq_ok_iff.mp hafter
  obtain ⟨loader, _, hafter⟩ := Except.bind_eq_ok_iff.mp hafter
  obtain ⟨source, _, hafter⟩ := Except.bind_eq_ok_iff.mp hafter
  obtain ⟨⟨replaced, found⟩, hregister, hfound⟩ := Except.bind_eq_ok_iff.mp hafter
  cases hfound
  clear hafter
  unfold Registry.register at hregister
  split at hregister
  · cases hregister
  · cases hregister
    rw [Map.find?_insert_of_ne fun hsame => hshape (congrArg CapabilityKey.shape hsame)]

/-- An operation of a chain that comes to an end: it registers no service process, keeps
only templates that may be executed, and executes only such as come to an end. -/
structure Operation.Bounded (bound : Handle) (nested : Nested σ) (operation : Operation)
    (rest : List Operation) : Prop where
  registers : operation.kind ≠ .createServiceProcess
  keeps : operation.kind = .prepare → ∀ later ∈ rest, later.Tame bound
  calls : operation.kind = .executePrepared → ∀ results outer args handle,
    operation.resolve results outer = .ok args → args.handle "id" = .ok handle →
      nested.Finishes bound (min handle bound)

theorem finishes_runResolved {operation : Operation} {rest : List Operation}
    (hbounded : operation.Bounded bound nested rest) {outer : Option Binds}
    (hargs : operation.resolve session.results outer = .ok args) (deadlines : Deadlines)
    (ctx : Context) : Run.Finishes bound (runResolved nested deadlines ctx args rest session) := by
  intro world htame
  have hkind := Operation.resolve_kind hargs
  have hdispatched := dispatched nested deadlines ctx args rest session world
  generalize (runResolved nested deadlines ctx args rest session).exec world = run at hdispatched
  cases hdispatched with
  | unknown name hname => exact ⟨htame, by simp⟩
  | prepared hprepare =>
      exact ⟨htame.keep (hbounded.keeps (hkind ▸ hprepare)), by simp⟩
  | saved hsave => exact ⟨⟨htame.services, htame.templates, htame.bound⟩, by simp⟩
  | restored hrestore =>
      refine ⟨htame, fun hstop => ?_⟩
      obtain ⟨_, _, hfailed⟩ := Except.mapError_eq_error_iff.mp (Except.map_eq_error_iff.mp hstop)
      cases hfailed
  | registered shape registry hshape hregistry =>
      have hother : shape ≠ .serviceProcess := by
        rintro rfl
        refine hbounded.registers ?_
        rw [← hkind]
        exact createServiceProcess_of_registeredShape hshape
      have hservices (name : String) : registry.kept.find? ⟨.serviceProcess, name⟩ = none :=
        (find?_of_registerCapability hregistry hother.symm).trans (htame.services name)
      exact ⟨⟨hservices, htame.templates, htame.bound⟩, by simp⟩
  | refused shape error hshape herror => exact ⟨htame, by simp⟩
  | administered result hresult => exact ⟨htame, by simp⟩
  | timed body hbody =>
      have hcalls : args.kind = .executePrepared → ∀ handle, args.handle "id" = .ok handle →
          nested.Finishes bound (min handle bound) :=
        fun hprepared handle => hbounded.calls (hkind ▸ hprepared) _ _ _ handle hargs
      obtain ⟨hafter, hended⟩ := Finishes.within ctx.timeout deadlines
        (finishes_timedRun hcalls hbody) world htame
      refine ⟨hafter, fun hsame => hended ?_⟩
      exact Except.map_eq_error_iff.mp hsame

theorem finishes_runOperation {operation : Operation} {rest : List Operation}
    (hbounded : operation.Bounded bound nested rest) (deadlines : Deadlines) (session : Session)
    (outer : Option Binds) :
    Run.Finishes bound (runOperation nested deadlines operation rest session outer) := by
  intro world htame
  cases hargs : operation.resolve session.results outer with
  | error error =>
      rw [runOperation_unresolved nested deadlines rest world hargs]
      exact ⟨htame, by simp⟩
  | ok args =>
      rw [runOperation_resolved nested deadlines rest world hargs]
      exact finishes_runResolved hbounded hargs deadlines _ world htame

theorem finishes_runFrom {operations : List Operation}
    (hbounded : ∀ operation rest, (operation :: rest) <:+ operations →
      operation.Bounded bound nested rest)
    (deadlines : Deadlines) (binds : Option Binds) (index : Nat) (session : Session) :
    Run.Finishes bound (runFrom nested deadlines binds index operations session) := by
  induction operations generalizing index session with
  | nil => exact Finishes.pure _
  | cons operation rest ih =>
      have hrest := ih fun later tail hsuffix =>
        hbounded later tail (hsuffix.trans (List.suffix_cons operation rest))
      intro world htame
      obtain ⟨hafter, hended⟩ := finishes_runOperation
        (hbounded operation rest (List.suffix_refl _)) deadlines session binds world htame
      rw [runFrom, Program.exec_bind_ok (exec_outcome _ world)]
      generalize (runOperation nested deadlines operation rest session binds).exec world = run
        at hafter hended
      obtain ⟨(error | level | _) | (⟨record, next⟩ | record | ⟨error, next⟩), after⟩ := run
      · exact ⟨hafter, by simp⟩
      · exact ⟨hafter, by simp⟩
      · exact absurd rfl hended
      · exact hrest (index + 1) _ after hafter
      · exact ⟨hafter, by simp⟩
      · exact ⟨hafter, by simp⟩

end Operations

/-! ## Chains that come to an end -/

section Chains

variable {bound : Handle}

/-- A chain that executes only templates below `limit` nests no deeper than that. -/
theorem finishes_runChain {depth : Nat} {limit : Handle} (hlimit : limit ≤ bound)
    (hdepth : limit < depth) : (runChain depth : Nested σ).Finishes bound limit := by
  induction depth generalizing limit with
  | zero => exact absurd hdepth (Nat.not_lt_zero _)
  | succ depth ih =>
      intro operations hoperations deadlines session binds
      refine finishes_runFrom (fun operation rest hsuffix => ?_) deadlines binds 0 session
      have htame := hoperations operation (hsuffix.subset List.mem_cons_self)
      refine ⟨htame.registers, fun _ later hlater => ?_, ?_⟩
      · exact (hoperations later (hsuffix.subset (List.mem_cons_of_mem _ hlater))).mono hlimit
      · intro hkind results outer args handle hargs hhandle
        have hcalled := htame.calls hkind results outer args handle hargs hhandle
        rw [Nat.min_eq_left (Nat.le_of_lt (Nat.lt_of_lt_of_le hcalled hlimit))]
        exact ih (Nat.le_of_lt (Nat.lt_of_lt_of_le hcalled hlimit))
          (Nat.lt_of_lt_of_le hcalled (Nat.le_of_lt_succ hdepth))

end Chains

namespace Engine

variable {engine : Engine σ} {request : Request}

/-- A request has an answer on an engine whose templates execute only earlier ones, and
leaves such an engine behind, if it registers no service process and what it keeps
executes only what was kept before. Chains nest no deeper than templates were kept. -/
theorem exists_answer_of_grounded (hgrounded : engine.Grounded)
    (hregisters : ∀ operation ∈ request.operations, operation.kind ≠ .createServiceProcess)
    (hkeeps : ∀ operation rest, (operation :: rest) <:+ request.operations →
      operation.kind = .prepare → ∀ later ∈ rest, later.Tame (engine.prepared.last + 1))
    (clock : Clock) {depth : Nat} (hdepth : engine.prepared.last + 2 < depth) :
    ∃ response world, engine.execute clock depth request = some (response, world) ∧
      world.engine.Grounded := by
  obtain ⟨inner, rfl⟩ : ∃ inner, depth = inner + 1 :=
    ⟨depth - 1, (Nat.succ_pred_eq_of_pos (Nat.zero_lt_of_lt hdepth)).symm⟩
  -- The request may execute what was kept before it, or what it keeps itself.
  have hbounded : ∀ operation rest, (operation :: rest) <:+ request.operations →
      operation.Bounded (engine.prepared.last + 1) (runChain inner : Nested σ) rest := by
    intro operation rest hsuffix
    refine ⟨hregisters operation (hsuffix.subset List.mem_cons_self),
      hkeeps operation rest hsuffix, fun _ _ _ _ handle _ _ => ?_⟩
    have hlimit := Nat.min_le_right handle (engine.prepared.last + 1)
    exact finishes_runChain hlimit (Nat.lt_of_le_of_lt hlimit (Nat.lt_of_succ_lt_succ hdepth))
  have hfinishes (session : Session) := finishes_runFrom hbounded [] none 0 session ⟨engine, clock⟩
    hgrounded
  cases hanswer : engine.execute clock (inner + 1) request with
  | none =>
      obtain ⟨session, world, _, hrun⟩ := unfinished_of_execute_eq_none hanswer
      exact absurd (congrArg Prod.fst hrun) (hfinishes session).2
  | some answer =>
      refine ⟨answer.1, answer.2, rfl, ?_⟩
      unfold execute at hanswer
      split at hanswer
      · cases hanswer
        exact hgrounded
      next session _ =>
        split at hanswer
        next response world hrun =>
          cases hanswer
          have htame := (hfinishes session).1
          rw [runChain] at hrun
          rw [hrun] at htame
          exact htame.grounded
        · cases hanswer

/-- A request that executes a template twice, and keeps it within another one. -/
theorem exists_answer_of_grounded_kept :
    let engine : Engine NestedStore := { store := {} }
    let engine := { engine with prepared := (engine.prepared.keep [{ kind := .saveState }]).2 }
    let call := Operation.literal { kind := .executePrepared } "id" (.int 1)
    let request : Request := { operations := [call, { kind := .prepare }, call] }
    engine.Grounded ∧ ∃ response world, engine.execute { readings := fun _ => 0 } 4 request =
      some (response, world) ∧ world.engine.Grounded := by
  intro empty engine call request
  have hsave : ∀ operation ∈ [({ kind := .saveState } : Operation)], operation.Tame 1 :=
    List.forall_mem_singleton.mpr ⟨nofun, nofun⟩
  have hgrounded : engine.Grounded := ((grounded_of_eq_empty rfl rfl).keep hsave).grounded
  have hcall : call.Tame 2 := by
    refine ⟨nofun, fun _ results outer args handle hargs hhandle => ?_⟩
    cases hargs
    cases hhandle
    decide
  refine ⟨hgrounded, exists_answer_of_grounded hgrounded ?_ ?_ _ (by decide)⟩
  · decide
  · intro operation rest hsuffix _ later hlater
    have hprepare : Operation.Tame 2 { kind := .prepare } := ⟨nofun, nofun⟩
    have hboth := List.forall_mem_cons.mpr ⟨hprepare, List.forall_mem_singleton.mpr hcall⟩
    rcases List.suffix_cons_iff.mp hsuffix with hwhole | hwithin
    · cases hwhole
      exact hboth later hlater
    · exact hboth later (hwithin.subset (List.mem_cons_of_mem _ hlater))

end Engine

end OperationChain
