import OperationChain.Proofs.Engine.Answers
import OperationChain.Proofs.Engine.Deadlines

/-! # Prepared statements

Executing a template with bound values is running its chain with these values in the
place of its markers. The chain starts from the session around it, with results of
its own, and only its last record comes back.
-/

namespace OperationChain

variable {σ : Type}

/-! ## Markers and their values -/

/-- A map with other values under the same keys. -/
def Map.mapValues {κ ν μ : Type} [Ord κ] (f : ν → μ) (map : Map κ ν) : Map κ μ where
  entries := map.entries.map fun entry => (entry.1, f entry.2)
  ascending := List.pairwise_map.mpr (map.ascending.imp fun hlt => hlt)

/-- The parameter with the value of its position in place of a marker. -/
def Param.bound (binds : Binds) : Param → Param
  | .bind position => (binds.find? position).elim (.bind position) .literal
  | other => other

/-- The parameter is no marker, or one with a value that is no marker itself. -/
def Param.BoundBy (binds : Binds) (param : Param) : Prop :=
  ∀ position, param = .bind position →
    ∃ value, binds.find? position = some value ∧ value.isMalformedMarker = false

namespace Operation

/-- The operation with values in place of its markers. -/
def bound (binds : Binds) (operation : Operation) : Operation :=
  { operation with params := operation.params.mapValues (Param.bound binds) }

/-- Every marker of the operation has a value. -/
def BoundBy (binds : Binds) (operation : Operation) : Prop :=
  ∀ entry ∈ operation.params.entries, entry.2.BoundBy binds

end Operation

section Binds

variable {binds : Binds} (results : Results)

theorem Param.resolve_bound {param : Param} (hbound : param.BoundBy binds) :
    (param.bound binds).resolve results none = param.resolve results (some binds) := by
  cases param with
  | bind position =>
      obtain ⟨value, hvalue, hplain⟩ := hbound position rfl
      simp [Param.bound, Param.resolve, hvalue, hplain]
  | _ => rfl

theorem resolveEntries_bound {entries : List (String × Param)}
    (hbound : ∀ entry ∈ entries, entry.2.BoundBy binds) :
    resolveEntries results none (entries.map fun entry => (entry.1, entry.2.bound binds)) =
      resolveEntries results (some binds) entries := by
  induction entries with
  | nil => rfl
  | cons entry rest ih =>
      have hrest := ih fun later hlater => hbound later (List.mem_cons_of_mem _ hlater)
      rw [List.map_cons, resolveEntries, resolveEntries, hrest,
        Param.resolve_bound results (hbound entry List.mem_cons_self)]

theorem Operation.resolve_bound {operation : Operation} (hbound : operation.BoundBy binds) :
    (operation.bound binds).resolve results none = operation.resolve results (some binds) :=
  congrArg (Except.map _) (resolveEntries_bound results hbound)

end Binds

/-! ## Chains with values in place of markers -/

section Bound

variable [Store σ] (nested : Nested σ) (deadlines : Deadlines) {binds : Binds}

theorem exec_runOperation_bound {operation : Operation} (hkind : operation.kind ≠ .prepare)
    (hbound : operation.BoundBy binds) (rest rest' : List Operation) (session : Session)
    (world : World σ) :
    (runOperation nested deadlines (operation.bound binds) rest session none).exec world =
      (runOperation nested deadlines operation rest' session (some binds)).exec world := by
  have hresolve := Operation.resolve_bound session.results hbound
  cases hargs : operation.resolve session.results (some binds) with
  | error error =>
      rw [runOperation_unresolved nested deadlines rest world (hresolve.trans hargs),
        runOperation_unresolved nested deadlines rest' world hargs]
  | ok args =>
      rw [runOperation_resolved nested deadlines rest world (hresolve.trans hargs),
        runOperation_resolved nested deadlines rest' world hargs]
      have hother : args.kind ≠ .prepare := by
        rw [Operation.resolve_kind hargs]
        exact hkind
      rw [runResolved_rest nested deadlines hother _ rest rest']
      rfl

/-- A template runs with bound values as it does with the values in it. -/
theorem exec_runFrom_bound {template : List Operation}
    (hplain : ∀ operation ∈ template, operation.kind ≠ .prepare)
    (hbound : ∀ operation ∈ template, operation.BoundBy binds) (index : Nat) (session : Session)
    (world : World σ) :
    (runFrom nested deadlines none index (template.map (Operation.bound binds)) session).exec
        world =
      (runFrom nested deadlines (some binds) index template session).exec world := by
  induction template generalizing index session world with
  | nil => rfl
  | cons operation rest ih =>
      have hrest := ih (fun later hlater => hplain later (List.mem_cons_of_mem _ hlater))
        fun later hlater => hbound later (List.mem_cons_of_mem _ hlater)
      rw [List.map_cons, runFrom, runFrom, Program.exec_bind_ok (Run.exec_outcome _ world),
        Program.exec_bind_ok (Run.exec_outcome _ world),
        exec_runOperation_bound nested deadlines (hplain operation List.mem_cons_self)
          (hbound operation List.mem_cons_self) _ rest]
      generalize (runOperation nested deadlines operation rest session (some binds)).exec world =
        run
      obtain ⟨(error | level | _) | (⟨record, next⟩ | record | ⟨error, next⟩), after⟩ := run
      case ok.next => exact hrest (index + 1) _ after
      all_goals rfl

end Bound

/-! ## Executing a template -/

/-- What an operation ends with whose chain answers so. -/
def Response.ending (response : Response) : Except Stop Record :=
  match response.failure with
  | some failure => .error (.failed failure.error)
  | none => .ok response.lastRecord

/-- The template that the arguments name, and the values that they bind. -/
structure Arguments.Names (args : Arguments) (prepared : Keeper (List Operation))
    (template : List Operation) (binds : Binds) : Prop where
  template : (args.handle "id").bind prepared.get = .ok template
  binds : bindsOf (args.get? "binds") = .ok binds

section ExecutePrepared

variable [Store σ] {nested : Nested σ} {deadlines : Deadlines} {args : Arguments}
  {session : Session} {world : World σ} {template : List Operation} {binds : Binds}

omit [Store σ] in
theorem exec_runExecutePrepared (hnames : args.Names world.engine.prepared template binds) :
    (runExecutePrepared nested deadlines args session).exec world =
      let ending := (nested deadlines template (session.fork template.length) (some binds)).exec
        world
      (ending.1.bind Response.ending, ending.2) := by
  obtain ⟨handle, hid, htemplate⟩ := Except.bind_eq_ok_iff.mp hnames.template
  have hfound : (do
      let found ← world.engine.prepared.get (← args.handle "id")
      return (found, ← bindsOf (args.get? "binds"))) = Except.ok (template, binds) := by
    rw [hid, Except.ok_bind, htemplate, Except.ok_bind, hnames.binds]
    rfl
  rw [runExecutePrepared, Program.exec_bind_ok (Run.exec_engine world)]
  dsimp only
  rw [hfound, Program.exec_bind_ok (Run.exec_lift_ok _ world), Program.exec_bind]
  dsimp only
  generalize (nested deadlines template (session.fork template.length) (some binds)).exec world =
    run
  obtain ⟨stop | response, after⟩ := run
  · rfl
  · dsimp only [Except.bind, Response.ending]
    cases response.failure <;> rfl

/-- An operation that executes a template runs it under its own budget. -/
theorem exec_runOperation_executePrepared {operation : Operation} {outer : Option Binds}
    (hkind : operation.kind = .executePrepared)
    (hargs : operation.resolve session.results outer = .ok args)
    (hnames : args.Names world.engine.prepared template binds) (rest : List Operation) :
    (runOperation nested deadlines operation rest session outer).exec world =
      let timeout := operation.overrides.timeout.getD world.engine.timeout
      let due := world.clock.elapsed + timeout.toNat
      let run := (nested (due :: deadlines) template (session.fork template.length)
        (some binds)).exec world
      ((Run.settled timeout due deadlines.length run.2.clock.elapsed
        (run.1.bind Response.ending)).map (.next · session), run.2) := by
  have hbody : timedRun? nested (Context.of session operation world.engine.timeout) args session =
      some fun deadlines => runExecutePrepared nested deadlines args session := by
    rw [timedRun?, Operation.resolve_kind hargs, hkind]
  rw [runOperation_resolved nested deadlines rest world hargs, runResolved_of_timedRun hbody,
    Program.exec_bind_ok (Run.exec_engine world), Program.exec_bind_pure, Run.exec_within_eq]
  dsimp only
  rw [exec_runExecutePrepared hnames]
  rfl

end ExecutePrepared

namespace Attempt

variable [Store σ] {attempt : Attempt σ} {chain : Chain σ}

/-- The operation ends as the chain does. Of what the chain answers only the record of
its last operation is kept, and the session is the one that the operation found. -/
structure Repeats (attempt : Attempt σ) (chain : Chain σ) : Prop where
  after : attempt.after = chain.run.2
  succeeded : ∀ results, chain.run.1 = .ok ⟨results, none⟩ →
    ∃ record, attempt.ending = .ok (.next record attempt.session) ∧
      (chain.operations = [] → record = .ok) ∧
      ∀ last, last + 1 = chain.operations.length → chain.attempts.Produced last record
  failed : ∀ results failure, chain.run.1 = .ok ⟨results, some failure⟩ →
    attempt.ending = .error (.failed failure.error)
  stopped : ∀ stop, chain.run.1 = .error stop → attempt.ending = .error stop

/-- The last record of a chain is that of its last operation, which no other can have
cleared. -/
theorem produced_lastRecord {response : Response} {count : Nat}
    (hanswered : chain.Answered (count + 1) response) :
    chain.attempts.Produced count response.lastRecord := by
  have hkeys := hanswered.keys
  rw [List.range_succ] at hkeys
  obtain ⟨earlier, later, hresults, _, hlater⟩ := List.map_eq_append_iff.mp hkeys
  obtain ⟨last, rfl, rfl⟩ := List.map_eq_singleton_iff.mp hlater
  have hlast : response.lastRecord = last.2 := by
    rw [Response.lastRecord, hresults, List.getLast?_append]
    rfl
  rw [hlast]
  refine (hanswered.record (by rw [hresults]; simp)).2 ?_
  rintro ⟨k, hlt, hclears⟩
  have hbefore := hanswered.succeeded k last.1 hclears
  omega

theorem repeats_of_ending (hplain : ∀ operation ∈ chain.operations, operation.kind ≠ .prepare)
    (hafter : attempt.after = chain.run.2)
    (hending : attempt.ending = (chain.run.1.bind Response.ending).map (.next · attempt.session)) :
    attempt.Repeats chain := by
  refine ⟨hafter, fun results hrun => ?_, fun results failure hrun => ?_, fun stop hrun => ?_⟩
  · rw [hrun] at hending
    refine ⟨_, hending, ?_⟩
    obtain ⟨count, hanswered⟩ := Chain.exists_answered (Prod.ext hrun rfl)
    have hcount : count = chain.operations.length := by
      rcases hanswered.finished rfl with hall | ⟨_, last, hlast, hprepare⟩
      · exact hall
      · exact absurd hprepare (hplain last (List.mem_of_getElem? hlast))
    constructor
    · intro hempty
      have hkeys := hanswered.keys
      rw [hcount, hempty] at hkeys
      have hresults : results = [] := List.map_eq_nil_iff.mp hkeys
      rw [hresults]
      rfl
    · intro last hlast
      rw [hcount, ← hlast] at hanswered
      exact produced_lastRecord hanswered
  · rw [hending, hrun]
    rfl
  · rw [hending, hrun]
    rfl

end Attempt

/-! ## The chain of a template -/

section

variable [Store σ] {depth : Nat} {deadlines : Deadlines} {outer : Option Binds}
  {operation : Operation} {rest : List Operation} {session : Session} {world : World σ}
  {attempt : Attempt σ} {args : Arguments} {template : List Operation} {binds : Binds}

/-- A template with values in place of its markers, as a chain that takes over nothing
but how the session around it is set. -/
def templateChain (depth : Nat) (deadlines : Deadlines) (template : List Operation)
    (binds : Binds) (session : Session) (world : World σ) : Chain σ :=
  Chain.inside depth deadlines (template.map (Operation.bound binds)) session none world

theorem run_templateChain (hplain : ∀ inner ∈ template, inner.kind ≠ .prepare)
    (hbound : ∀ inner ∈ template, inner.BoundBy binds) :
    (templateChain depth deadlines template binds session world).run =
      (runFrom (runChain depth) deadlines (some binds) 0 template
        (session.fork template.length)).exec world := by
  have hlength : (template.map (Operation.bound binds)).length = template.length :=
    List.length_map _
  rw [← exec_runFrom_bound (runChain depth) deadlines hplain hbound, ← hlength]
  rfl

theorem around_ending {count : Nat} {result : Except Stop Response}
    (haround : ∀ stop, result = .error stop → stop.Around count) :
    ∀ stop, result.bind Response.ending = .error stop → stop.Around count := by
  intro stop hstop
  cases result with
  | error inner =>
      cases hstop
      exact haround _ rfl
  | ok response =>
      change response.ending = .error stop at hstop
      unfold Response.ending at hstop
      split at hstop <;> cases hstop
      exact .failed _

namespace Operation

theorem exec_of_executePrepared
    (hattempt : attempt = attemptOf (runChain (depth + 1)) deadlines outer operation rest session
      world)
    (hkind : operation.kind = .executePrepared)
    (hargs : operation.resolve session.results outer = .ok args)
    (hnames : args.Names world.engine.prepared template binds) :
    let timeout := operation.overrides.timeout.getD world.engine.timeout
    let due := world.clock.elapsed + timeout.toNat
    let run := (runFrom (runChain depth) (due :: deadlines) (some binds) 0 template
      (session.fork template.length)).exec world
    attempt.session = session ∧ attempt.after = run.2 ∧
      attempt.ending = (Run.settled timeout due deadlines.length run.2.clock.elapsed
        (run.1.bind Response.ending)).map (.next · session) := by
  have hexec : (runOperation (runChain (depth + 1)) deadlines operation rest session outer).exec
      world = _ := exec_runOperation_executePrepared hkind hargs hnames rest
  rw [hattempt]
  exact ⟨rfl, congrArg Prod.snd hexec, congrArg Prod.fst hexec⟩

/-- The operation ends as the chain of its template does, unless that takes longer than
the operation may. -/
theorem repeats_or_late
    (hattempt : attempt = attemptOf (runChain (depth + 1)) deadlines outer operation rest session
      world)
    (hkind : operation.kind = .executePrepared)
    (hargs : operation.resolve session.results outer = .ok args)
    (hnames : args.Names world.engine.prepared template binds)
    (hplain : ∀ inner ∈ template, inner.kind ≠ .prepare)
    (hbound : ∀ inner ∈ template, inner.BoundBy binds) :
    let chain := templateChain depth deadlines template binds session world
    let timeout := operation.overrides.timeout.getD world.engine.timeout
    attempt.Repeats chain ∨
      attempt.ending = .error (.failed (.timeout timeout)) ∧
        world.clock.elapsed + timeout.toNat ≤ chain.run.2.clock.elapsed := by
  intro chain timeout
  obtain ⟨hsession, hafter, hending⟩ := exec_of_executePrepared hattempt hkind hargs hnames
  have hchain : chain.run = _ := run_templateChain hplain hbound
  have hkinds : ∀ inner ∈ chain.operations, inner.kind ≠ .prepare := by
    intro inner hinner
    obtain ⟨original, horiginal, rfl⟩ := List.mem_map.mp hinner
    exact hplain original horiginal
  have haround (stop : Stop) (hstop : chain.run.1 = .error stop) :
      stop.Around deadlines.length := (stopped_runFrom (punctual_runChain depth) hstop).1
  -- The own deadline of the operation is the one that the plain chain does without.
  have hends := (spares_runFrom (spared_runChain depth) (punctual_runChain depth) (some binds)
    (world.clock.elapsed + timeout.toNat) [] deadlines 0 template
    (session.fork template.length)).ends world
  rw [List.nil_append, List.nil_append, ← hchain, Stop.mapError_shifted haround] at hends
  rcases hends with hsame | ⟨hover, hlate⟩
  · rw [hsame] at hending hafter
    rcases Run.settled_of_around (around_ending haround) with hsettled | ⟨hsettled, hlate⟩
    · rw [hsettled, ← hsession] at hending
      exact .inl (Attempt.repeats_of_ending hkinds hafter hending)
    · rw [hsettled] at hending
      exact .inr ⟨hending, hlate⟩
  · rw [hover] at hending
    dsimp only [Except.bind, Run.settled] at hending
    rw [if_pos rfl] at hending
    exact .inr ⟨hending, hlate⟩

/-- Whatever becomes of the template, only a record is left in the session. -/
theorem left_of_executePrepared
    (hattempt : attempt = attemptOf (runChain (depth + 1)) deadlines outer operation rest session
      world)
    (hkind : operation.kind = .executePrepared)
    (hargs : operation.resolve session.results outer = .ok args)
    (hnames : args.Names world.engine.prepared template binds) (index : Nat) :
    attempt.left index = session ∨ ∃ record, attempt.ending = .ok (.next record session) ∧
      attempt.left index = { session with results := session.results.capture index record } := by
  obtain ⟨hsession, _, hending⟩ := exec_of_executePrepared hattempt hkind hargs hnames
  generalize Run.settled _ _ _ _ _ = result at hending
  cases result with
  | ok record =>
      refine .inr ⟨record, hending, ?_⟩
      rw [Attempt.left, hending]
      rfl
  | error stop =>
      refine .inl ?_
      rw [Attempt.left, hending]
      exact hsession

/-- Executing a template gives what its chain gives with values in place of the markers,
and leaves the same world behind, unless that takes longer than the operation may. The
chain starts with no results, and of the session around it only the results change. -/
theorem repeats_of_executePrepared
    (hattempt : attempt = attemptOf (runChain (depth + 1)) deadlines outer operation rest session
      world)
    (hkind : operation.kind = .executePrepared)
    (hargs : operation.resolve session.results outer = .ok args)
    (hnames : args.Names world.engine.prepared template binds)
    (hplain : ∀ inner ∈ template, inner.kind ≠ .prepare)
    (hbound : ∀ inner ∈ template, inner.BoundBy binds) :
    let chain := templateChain depth deadlines template binds session world
    let timeout := operation.overrides.timeout.getD world.engine.timeout
    chain.session = { session with results := Results.ofLength template.length } ∧
      (attempt.Repeats chain ∨
        attempt.ending = .error (.failed (.timeout timeout)) ∧
          world.clock.elapsed + timeout.toNat ≤ chain.run.2.clock.elapsed) ∧
      ∀ index, attempt.left index = session ∨ ∃ record,
        attempt.ending = .ok (.next record session) ∧
          attempt.left index =
            { session with results := session.results.capture index record } := by
  refine ⟨?_, repeats_or_late hattempt hkind hargs hnames hplain hbound,
    left_of_executePrepared hattempt hkind hargs hnames⟩
  change session.fork (template.map (Operation.bound binds)).length = _
  rw [List.length_map]
  rfl

/-- A template that sets a keyspace that it is given, and saves the state. -/
theorem repeats_of_executePrepared_marker :
    let template : List Operation :=
      [Operation.param { kind := .setKeyspace } "keyspace" (.bind 0), { kind := .saveState }]
    let engine : Engine NestedStore :=
      { store := {}, prepared := (Keeper.keep { what := "prepared statement" } template).2 }
    let world : World NestedStore := ⟨engine, { readings := fun _ => 0 }⟩
    let operation : Operation := Operation.literal
      (Operation.literal { kind := .executePrepared } "id" (.int 1)) "binds" (.list [.text "ks"])
    let session := Session.start .one 1
    let binds : Binds := Map.ofList [(0, .text "ks")]
    let attempt := attemptOf (runChain 1) [] none operation [] session world
    attempt.Repeats (templateChain 0 [] template binds session world) ∧
      attempt.record?.isSome ∧ (attempt.left 0).defaults = session.defaults := by
  intro template engine world operation session binds attempt
  have hkind : operation.kind = .executePrepared := rfl
  have hargs : operation.resolve session.results none =
      .ok ⟨.executePrepared, [("binds", .list [.text "ks"]), ("id", .int 1)]⟩ := rfl
  have hnames : Arguments.Names
      ⟨.executePrepared, [("binds", .list [.text "ks"]), ("id", .int 1)]⟩ world.engine.prepared
      template binds := ⟨rfl, rfl⟩
  have hplain : ∀ inner ∈ template, inner.kind ≠ .prepare := by decide
  have hbound : ∀ inner ∈ template, inner.BoundBy binds := by
    intro inner hinner entry hentry position hposition
    simp only [template, List.mem_cons, List.not_mem_nil, or_false] at hinner
    rcases hinner with rfl | rfl
    · rw [List.mem_singleton.mp hentry] at hposition
      cases hposition
      exact ⟨.text "ks", rfl, rfl⟩
    · cases hentry
  obtain ⟨_, hrepeats, _⟩ := repeats_of_executePrepared rfl hkind hargs hnames hplain hbound
  refine ⟨hrepeats.resolve_right ?_, rfl, rfl⟩
  rintro ⟨_, hlate⟩
  exact absurd hlate (by decide)

/-- A template with nothing to wait for still comes too late for a budget of nothing. -/
theorem not_repeats_of_executePrepared_late :
    let template : List Operation :=
      [Operation.literal { kind := .setKeyspace } "keyspace" (.text "ks")]
    let engine : Engine NestedStore :=
      { store := {}, prepared := (Keeper.keep { what := "prepared statement" } template).2 }
    let world : World NestedStore := ⟨engine, { readings := fun _ => 0 }⟩
    let operation : Operation := Operation.literal
      { kind := .executePrepared, overrides := { timeout := some 0 } } "id" (.int 1)
    let session := Session.start .one 1
    let attempt := attemptOf (runChain 1) [] none operation [] session world
    let chain := templateChain 0 [] template ∅ session world
    chain.run.1 = .ok ⟨[(0, .ok)], none⟩ ∧ attempt.ending = .error (.failed (.timeout 0)) ∧
      ¬ attempt.Repeats chain := by
  intro template engine world operation session attempt chain
  have hrun : chain.run.1 = .ok ⟨[(0, .ok)], none⟩ := rfl
  have hlate : attempt.ending = .error (.failed (.timeout 0)) := rfl
  refine ⟨hrun, hlate, fun hrepeats => ?_⟩
  obtain ⟨record, hending, _⟩ := hrepeats.succeeded _ hrun
  rw [hlate] at hending
  cases hending

end Operation

end

end OperationChain
