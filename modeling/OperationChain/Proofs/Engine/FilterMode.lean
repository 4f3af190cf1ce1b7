import OperationChain.Proofs.Engine.Interleaving
import OperationChain.Proofs.Engine.ReadErrors
import OperationChain.Proofs.Extension.Registry

/-! # Filter mode

A session in filter mode keeps only the name of its filter, which is looked up anew at every
read, in a registry that all requests share. That the lookup succeeds is an invariant of the
situations of an engine: a name gets into a session only while a filter is registered under
it, registrations put filters in the places of filters, and a name is never unregistered.
-/

namespace OperationChain

open Except (FailsWith)

variable {σ : Type}

/-! ## Registered filters -/

namespace Registry

/-- A filter is registered under this name. -/
def HoldsFilter (registry : Registry) (name : String) : Prop :=
  ∃ filter, registry.kept.find? ⟨.filter, name⟩ = some (.filter filter)

theorem filter_of_find? {registry : Registry} {name : String} {filter : Filter}
    (hfind : registry.kept.find? ⟨.filter, name⟩ = some (.filter filter)) :
    registry.filter name = .ok filter := by
  rw [Registry.filter, find, hfind]
  rfl

theorem holdsFilter_of_filter {registry : Registry} {name : String} {filter : Filter}
    (hfilter : registry.filter name = .ok filter) : registry.HoldsFilter name := by
  obtain ⟨capability, hfind, hcapability⟩ := Except.bind_eq_ok_iff.mp hfilter
  cases capability with
  | filter found => exact ⟨found, find_eq_ok_iff.mp hfind⟩
  | processor processor => cases hcapability
  | multiProcessor combiner => cases hcapability
  | serviceProcess process => cases hcapability

/-- The later registry has a filter under every name under which the first has one. -/
def KeepsFilters (registry after : Registry) : Prop :=
  ∀ name, registry.HoldsFilter name → after.HoldsFilter name

theorem KeepsFilters.refl (registry : Registry) : registry.KeepsFilters registry := fun _ => id

theorem keepsFilters_insert (registry : Registry) {shape : Shape} {capability : Capability}
    (hshape : capability.shape = shape) (name : String) :
    registry.KeepsFilters
      { registry with kept := registry.kept.insert ⟨shape, name⟩ capability } := by
  rintro held ⟨filter, hfilter⟩
  by_cases hkey : (⟨.filter, held⟩ : CapabilityKey) = ⟨shape, name⟩
  · obtain ⟨rfl, rfl⟩ := CapabilityKey.mk.inj hkey
    cases capability with
    | filter found => exact ⟨found, Map.find?_insert_self ..⟩
    | processor processor => cases hshape
    | multiProcessor combiner => cases hshape
    | serviceProcess process => cases hshape
  · exact ⟨filter, (Map.find?_insert_of_ne hkey).trans hfilter⟩

theorem keepsFilters_of_register {registry after : Registry} {shape : Shape}
    {args : Arguments} (hafter : registerCapability registry shape args = .ok after) :
    registry.KeepsFilters after := by
  obtain ⟨name, _, hafter⟩ := Except.bind_eq_ok_iff.mp hafter
  obtain ⟨loader, _, hafter⟩ := Except.bind_eq_ok_iff.mp hafter
  obtain ⟨source, _, hafter⟩ := Except.bind_eq_ok_iff.mp hafter
  obtain ⟨⟨replaced, found⟩, hregister, hfound⟩ := Except.bind_eq_ok_iff.mp hafter
  cases hfound
  obtain ⟨_, hcompile, _, rfl⟩ := register_eq_ok_iff.mp hregister
  exact registry.keepsFilters_insert (compile_shape hcompile) name

end Registry

/-! ## Sessions in filter mode -/

/-- If the session filters, then by a name under which a filter is registered. -/
def Session.Filtered (session : Session) (registry : Registry) : Prop :=
  ∀ name, session.filter = some name → registry.HoldsFilter name

namespace Session.Filtered

variable {session : Session} {registry after : Registry}

theorem mono (hfiltered : session.Filtered registry) (hkeeps : registry.KeepsFilters after) :
    session.Filtered after := fun name hname => hkeeps name (hfiltered name hname)

theorem of_filter_eq {other : Session} (hsame : other.filter = session.filter)
    (hfiltered : session.Filtered registry) : other.Filtered registry :=
  fun name hname => hfiltered name (hsame.symm.trans hname)

theorem unfiltered (hnone : session.filter = none) : session.Filtered registry := by
  intro name hname
  rw [hnone] at hname
  cases hname

end Session.Filtered

/-- An operation on the session turns filter mode on only if the name leads to a filter. -/
theorem filtered_of_administer {registry : Registry} {ctx : Context} {args : Arguments}
    {change : Update Session Unit} (hchange : administer? registry ctx args = some change)
    {session : Session} (hfiltered : session.Filtered registry) :
    (change.exec session).2.Filtered registry := by
  unfold administer? at hchange
  split at hchange <;> cases hchange
  case h_6 =>
    rw [Update.exec_lift_bind]
    cases args.boolean? "enabled" with
    | error error => exact hfiltered
    | ok enabled =>
        dsimp only
        split
        next =>
          rw [Update.exec_lift_bind]
          cases args.text "name" with
          | error error => exact hfiltered
          | ok name =>
              dsimp only
              rw [Update.exec_lift_bind]
              cases hfilter : registry.filter name with
              | error error => exact hfiltered
              | ok filter =>
                  rintro found ⟨⟩
                  exact Registry.holdsFilter_of_filter hfilter
        next => exact .unfiltered rfl
  all_goals
    -- The other changes fail before they touch the session, or leave its filter alone.
    repeat' first
      | exact hfiltered
      | exact .of_filter_eq rfl hfiltered
      | simp only [Update.exec_lift_bind]
      | simp only [Program.exec_bind_ok (Program.exec_get session)]
      | split

section Operations

variable [Store σ] {nested : Nested σ} {deadlines : Deadlines} {ctx : Context} {args : Arguments}
  {rest : List Operation} {session : Session} {world : World σ}

/-- An operation that runs no chain inside itself keeps the filters of the registry. -/
theorem keepsFilters_runResolved (hinner : args.inner? world.engine = none) :
    world.engine.registry.KeepsFilters
      ((runResolved nested deadlines ctx args rest session).exec world).2.engine.registry := by
  have hdispatched := dispatched nested deadlines ctx args rest session world
  generalize hrun : (runResolved nested deadlines ctx args rest session).exec world = run
    at hdispatched
  cases hdispatched with
  | registered shape registry hshape hregistry => exact Registry.keepsFilters_of_register hregistry
  | timed body hbody =>
      rw [← hrun, after_runResolved_of_timedRun hbody]
      obtain ⟨store, hstore⟩ := engine_of_timedRun hbody hinner
        ((world.clock.elapsed + ctx.timeout.toNat) :: deadlines)
      rw [hstore]
      exact .refl _
  | unknown => exact .refl _
  | prepared => exact .refl _
  | saved => exact .refl _
  | restored => exact .refl _
  | refused => exact .refl _
  | administered => exact .refl _

/-- The session after an operation filters by a registered filter, if the session before it
does. -/
theorem filtered_runResolved {record : Record} {next : Session} {after : World σ}
    (hrun : (runResolved nested deadlines ctx args rest session).exec world =
      (.ok (.next record next), after))
    (hfiltered : session.Filtered world.engine.registry) :
    next.Filtered world.engine.registry := by
  unfold runResolved at hrun
  split at hrun
  next => cases hrun
  next =>
    rw [exec_runPrepare] at hrun
    cases hrun
  next =>
    rw [exec_runSaveState] at hrun
    cases hrun
    exact hfiltered
  next =>
    rw [exec_runRestoreState] at hrun
    obtain ⟨snapshot, _, hstep⟩ := Except.map_eq_ok_iff.mp (congrArg Prod.fst hrun)
    cases hstep
    exact hfiltered.of_filter_eq rfl
  next =>
    split at hrun
    next shape _ =>
      cases hregistry : registerCapability world.engine.registry shape args with
      | ok registry =>
          rw [exec_runRegister_ok hregistry] at hrun
          cases hrun
          exact hfiltered
      | error error =>
          rw [exec_runRegister_error hregistry] at hrun
          cases hrun
    next =>
      rw [Program.exec_bind_ok (Run.exec_engine world)] at hrun
      split at hrun
      next change hchange =>
        have hafter := filtered_of_administer hchange hfiltered
        generalize change.exec session = changed at hrun hafter
        obtain ⟨error | _, left⟩ := changed
        · cases hrun
        · cases hrun
          exact hafter
      next =>
        split at hrun
        next body _ =>
          rw [Program.exec_bind_pure] at hrun
          obtain ⟨produced, _, hstep⟩ := Except.map_eq_ok_iff.mp (congrArg Prod.fst hrun)
          cases hstep
          exact hfiltered
        next => cases hrun

variable {binds : Option Binds} {operation : Operation} {attempt : Attempt σ}
  (hattempt : attempt = attemptOf nested deadlines binds operation rest session world)
include hattempt

theorem Attempt.keepsFilters (hinner : attempt.inner? = none) :
    attempt.before.engine.registry.KeepsFilters attempt.after.engine.registry := by
  rcases attempt.run_cases hattempt with ⟨error, _, _, hafter⟩ | ⟨args, hargs, _, hrun⟩
  · rw [hafter]
    exact .refl _
  · rw [Attempt.inner?, Except.toOption_eq_some_iff.mpr hargs, Option.bind_some] at hinner
    have hafter : _ = attempt.after := congrArg Prod.snd hrun
    rw [← hafter]
    exact keepsFilters_runResolved hinner

theorem Attempt.filtered_next {record : Record} {next : Session}
    (hending : attempt.ending = .ok (.next record next))
    (hfiltered : attempt.session.Filtered attempt.before.engine.registry) :
    next.Filtered attempt.before.engine.registry := by
  rcases attempt.run_cases hattempt with ⟨error, _, hfailed, _⟩ | ⟨args, _, _, hrun⟩
  · cases hfailed.symm.trans hending
  · rw [hending] at hrun
    exact filtered_runResolved hrun hfiltered

end Operations

/-! ## Reads -/

namespace Session

/-- The error says that the filter of the session stopped short on a row. -/
def StopsShort (session : Session) (error : Error) : Prop :=
  ∃ name, session.filter = some name ∧ error = .extension (.panicked .filter name)

/-- A read in this session can fail with this error: one that has nothing to do with
capabilities, or that the filter stopped short, or what the store itself answers. -/
def MayMeet [Store σ] (session : Session) (store : σ) (error : Error) : Prop :=
  error.Ordinary ∨ session.StopsShort error ∨ Store.FailsReading store error

/-- When the cells are there, a registered filter is found and can only stop short. -/
theorem Filtered.finish {session : Session} {registry : Registry}
    (hfiltered : session.Filtered registry) (target : TableName) (cells : List Cell) :
    FailsWith (fun error => error.Ordinary ∨ session.StopsShort error)
      (session.finish registry target cells) := by
  refine .bind (.mapM (fun cell => ?_) cells) fun rows => .bind ?_ fun _ => .ok _
  · exact (session.ordinary_decodeCell target cell).mono fun _ => .inl
  · unfold filterRows
    split
    next => exact .ok _
    next name hname =>
      obtain ⟨filter, hfilter⟩ := hfiltered name hname
      rw [Registry.filter_of_find? hfilter, Except.ok_bind]
      split
      next => exact .ok _
      next => exact .error (.inr ⟨name, hname, rfl⟩)

end Session

section Runs

variable [Store σ] {engine : Engine σ} {ctx : Context} {args : Arguments} {session : Session}
  (hfiltered : session.Filtered engine.registry)
include hfiltered

theorem meets_runFinish (deadlines : Deadlines) (target : TableName) (cells : List Cell) :
    Run.FailsWith engine (session.MayMeet engine.store)
      (runFinish session deadlines target cells) := by
  refine .bind_engine (.bind (.wait _ _) (.of_idle (Run.idle_wait _ _)) fun _ => ?_)
  exact .lift ((hfiltered.finish target cells).mono fun _ => Or.imp_right .inl)

theorem meets_readNames (deadlines : Deadlines) (target : TableName) (rowkey : Bytes)
    (names : List Bytes) :
    Run.FailsWith engine (session.MayMeet engine.store)
      (readNames ctx session deadlines target rowkey names) := by
  refine .bind .now .now fun now => .bind (.ask _ _) (.ask _ fun error herror => ?_) fun cells => ?_
  · exact .inr (.inr (.read herror))
  · exact meets_runFinish hfiltered deadlines target cells

theorem meets_runGet (deadlines : Deadlines) :
    Run.FailsWith engine (session.MayMeet engine.store) (runGet ctx args session deadlines) := by
  refine .bind (.lift _) (.lift (.mono ?_ fun _ => .inl)) fun _ =>
    meets_readNames hfiltered deadlines _ _ _
  refine ctx.ordinary_target.bind fun target => ?_
  refine (args.ordinary_required "rowkey").bind fun rowkey => ?_
  refine (ordinary_encodeNatural rowkey).bind fun _ => ?_
  refine (args.ordinary_required "name").bind fun name => ?_
  exact (session.ordinary_encodeName target name).bind fun _ => .ok _

theorem meets_runSlice (deadlines : Deadlines) :
    Run.FailsWith engine (session.MayMeet engine.store)
      (runSlice ctx args session deadlines) := by
  refine .bind (.lift _) (.lift (.mono ?_ fun _ => .inl)) fun read => ?_
  · refine ctx.ordinary_target.bind fun target => ?_
    refine (args.ordinary_sliceRange session target).bind fun _ => ?_
    refine (args.ordinary_required "rowkey").bind fun rowkey => ?_
    exact (ordinary_encodeNatural rowkey).bind fun _ => .ok _
  · refine .bind .now .now fun now => .bind (.ask _ _) (.ask _ fun error herror => ?_)
      fun cells => ?_
    · exact .inr (.inr (.readSlice herror))
    · exact meets_runFinish hfiltered deadlines read.1 cells

theorem meets_runSliceByNames (deadlines : Deadlines) :
    Run.FailsWith engine (session.MayMeet engine.store)
      (runSliceByNames ctx args session deadlines) := by
  refine .bind (.lift _) (.lift (.mono ?_ fun _ => .inl)) fun _ =>
    meets_readNames hfiltered deadlines _ _ _
  refine ctx.ordinary_target.bind fun target => ?_
  refine (args.ordinary_list "names").bind fun names => ?_
  refine (FailsWith.mapM (session.ordinary_encodeName target) names).bind fun _ => ?_
  refine (args.ordinary_required "rowkey").bind fun rowkey => ?_
  exact (ordinary_encodeNatural rowkey).bind fun _ => .ok _

theorem exists_reading_run (nested : Nested σ) (hkind : args.kind ∈ [.get, .slice, .sliceByNames]) :
    ∃ run : Deadlines → Run σ Record, timedRun? nested ctx args session = some run ∧
      ∀ deadlines, Run.FailsWith engine (session.MayMeet engine.store) (run deadlines) := by
  simp only [List.mem_cons, List.not_mem_nil, or_false] at hkind
  rcases hkind with hkind | hkind | hkind
  · exact ⟨_, timedRun?_of_get nested ctx session hkind, meets_runGet hfiltered⟩
  · exact ⟨_, timedRun?_of_slice nested ctx session hkind, meets_runSlice hfiltered⟩
  · exact ⟨_, timedRun?_of_sliceByNames nested ctx session hkind, meets_runSliceByNames hfiltered⟩

end Runs

theorem Attempt.meets_of_reading [Store σ] {nested : Nested σ} {deadlines : Deadlines}
    {binds : Option Binds} {operation : Operation} {rest : List Operation} {session : Session}
    {world : World σ} {attempt : Attempt σ}
    (hattempt : attempt = attemptOf nested deadlines binds operation rest session world)
    (hkind : attempt.operation.kind ∈ [.get, .slice, .sliceByNames])
    (hfiltered : attempt.session.Filtered attempt.before.engine.registry) {error : Error}
    (herror : attempt.error? = some error) :
    attempt.session.MayMeet attempt.before.engine.store error := by
  rcases attempt.run_cases hattempt with ⟨cause, hcause, hending, _⟩ | ⟨args, _, hargs, hrun⟩
  · rw [error?, hending] at herror
    cases herror
    exact .inl (attempt.operation.ordinary_resolve _ _ _ hcause)
  · rw [← hargs] at hkind
    obtain ⟨run, hbody, hmeets⟩ := exists_reading_run hfiltered nested hkind
    rw [runResolved_of_timedRun hbody, Program.exec_bind_ok (Run.exec_engine _),
      Program.exec_bind_pure] at hrun
    have hending := congrArg Prod.fst hrun
    rcases Attempt.ending_of_failed herror with ⟨after, hfailed⟩ | hfailed
    · obtain ⟨record, _, hstep⟩ := Except.map_eq_ok_iff.mp (hending.trans hfailed)
      cases hstep
    · have hwithin := Except.map_eq_error_iff.mp (hending.trans hfailed)
      have htimeout := Error.ordinary_timeout (Context.of attempt.session attempt.operation
        attempt.before.engine.timeout).timeout
      exact Run.FailsWith.within _ _ hmeets (.inl htimeout) _ rfl error hwithin

/-! ## Situations -/

theorem Engine.filter_of_startSession {engine : Engine σ} {request : Request} {session : Session}
    (hsession : engine.startSession request = .ok session) : session.filter = none := by
  unfold startSession at hsession
  cases hrestore : request.restore with
  | none =>
      rw [hrestore] at hsession
      cases hsession
      rfl
  | some handle =>
      rw [hrestore] at hsession
      obtain ⟨snapshot, _, rfl⟩ := Except.map_eq_ok_iff.mp hsession
      rfl

theorem Frame.filtered_advance [Store σ] {frame : Frame} {operation : Operation}
    {rest : List Operation} {waiting : Frames} {attempt : Attempt σ} {nested : Nested σ}
    {deadlines : Deadlines}
    (hattempt : attempt =
      attemptOf nested deadlines frame.binds operation rest frame.session attempt.before)
    (hfiltered : frame.session.Filtered attempt.before.engine.registry) {frames : Frames}
    (hframes : frames ∈ frame.advance rest waiting attempt) :
    ∃ next : Frame, frames = next :: waiting ∧
      next.session.Filtered attempt.before.engine.registry := by
  have hsession : attempt.session = frame.session := by rw [hattempt]; rfl
  rw [← hsession] at hfiltered
  rcases hending : attempt.ending with stop | (⟨record, next⟩ | record | ⟨error, next⟩)
  · rw [advance_of_error hending] at hframes
    cases hframes
  · rw [advance_of_next hending, List.mem_singleton] at hframes
    refine ⟨_, hframes, ?_⟩
    rw [Attempt.left, hending]
    exact (attempt.filtered_next hattempt hending hfiltered).of_filter_eq rfl
  · rw [advance_of_halt hending, List.mem_singleton] at hframes
    refine ⟨_, hframes, ?_⟩
    rw [Attempt.left, hending]
    exact hfiltered.of_filter_eq rfl
  · rw [advance, hending] at hframes
    cases hframes

namespace Situation

/-- Every session filters by registered filters only. -/
def Filtered (situation : Situation σ) : Prop :=
  ∀ frames ∈ situation.requests, ∀ frame ∈ frames,
    frame.session.Filtered situation.engine.registry

namespace Filtered

variable {engine other : Engine σ} {earlier later requests : List Frames} {frames : Frames}

theorem mono (hfiltered : Filtered ⟨engine, requests⟩)
    (hkeeps : engine.registry.KeepsFilters other.registry) : Filtered ⟨other, requests⟩ :=
  fun frames hframes frame hframe => (hfiltered frames hframes frame hframe).mono hkeeps

theorem request (hfiltered : Filtered ⟨engine, earlier ++ frames :: later⟩) :
    ∀ frame ∈ frames, frame.session.Filtered engine.registry :=
  hfiltered frames (List.mem_append_right _ List.mem_cons_self)

/-- Other requests in the place of one request. -/
theorem replace (hfiltered : Filtered ⟨engine, earlier ++ frames :: later⟩)
    (hrequests : ∀ frames ∈ requests, ∀ frame ∈ frames, frame.session.Filtered engine.registry) :
    Filtered ⟨engine, earlier ++ requests ++ later⟩ := by
  unfold Filtered at hfiltered ⊢
  simp only [List.forall_mem_append, List.forall_mem_cons] at hfiltered ⊢
  exact ⟨⟨hfiltered.1, hrequests⟩, hfiltered.2.2⟩

theorem replace_one (hfiltered : Filtered ⟨engine, earlier ++ frames :: later⟩) {others : Frames}
    (hothers : ∀ frame ∈ others, frame.session.Filtered engine.registry) :
    Filtered ⟨engine, earlier ++ others :: later⟩ := by
  rw [List.append_cons]
  exact hfiltered.replace (List.forall_mem_singleton.mpr hothers)

end Filtered

variable [Store σ] {situation after : Situation σ}

/-- Whatever happens next, the sessions filter by registered filters. -/
theorem Next.filtered (hnext : situation.Next after) (hfiltered : situation.Filtered) :
    after.Filtered := by
  cases hnext with
  | arrived hsession requests =>
      refine List.forall_mem_cons.mpr ⟨List.forall_mem_singleton.mpr ?_, hfiltered⟩
      exact .unfiltered (Engine.filter_of_startSession hsession)
  | @executed _ earlier later frame waiting rest attempt htries hinner =>
      obtain ⟨hrequests, _, hengine, nested, deadlines, hattempt⟩ := htries
      obtain ⟨engine, requests⟩ := situation
      cases hrequests
      cases hengine
      obtain ⟨hframe, hwaiting⟩ := List.forall_mem_cons.mp hfiltered.request
      refine (hfiltered.replace fun frames hframes => ?_).mono
        (Attempt.keepsFilters hattempt hinner)
      obtain ⟨next, rfl, hnext⟩ := Frame.filtered_advance hattempt hframe hframes
      exact List.forall_mem_cons.mpr ⟨hnext, hwaiting⟩
  | entered htries hinner =>
      obtain ⟨engine, requests⟩ := situation
      cases htries.requests
      refine hfiltered.replace_one (List.forall_mem_cons.mpr ⟨?_, hfiltered.request⟩)
      exact (List.forall_mem_cons.mp hfiltered.request).1.of_filter_eq rfl
  | returned engine hdone hrest =>
      obtain ⟨_, hframes⟩ := List.forall_mem_cons.mp hfiltered.request
      obtain ⟨hframe, hwaiting⟩ := List.forall_mem_cons.mp hframes
      exact hfiltered.replace_one (List.forall_mem_cons.mpr ⟨hframe.of_filter_eq rfl, hwaiting⟩)
  | ended engine earlier later frames =>
      have hgone := hfiltered.replace (List.forall_mem_nil _)
      rwa [List.append_nil] at hgone
  | registered engine requests hcompile =>
      exact hfiltered.mono (engine.registry.keepsFilters_insert (Registry.compile_shape hcompile) _)
  | extended engine requests tag loader => exact hfiltered.mono fun _ => id
  | releasedState requests hrelease =>
      obtain ⟨states, _, rfl⟩ := Except.map_eq_ok_iff.mp hrelease
      exact hfiltered.mono (.refl _)
  | releasedPrepared requests hrelease =>
      obtain ⟨prepared, _, rfl⟩ := Except.map_eq_ok_iff.mp hrelease
      exact hfiltered.mono (.refl _)
  | stored engine requests store => exact hfiltered.mono (.refl _)

/-- All sessions of a situation that came of an engine without requests filter by registered
filters. -/
theorem Reaches.filtered (hreaches : situation.Reaches after) (hfiltered : situation.Filtered) :
    after.Filtered := by
  induction hreaches with
  | refl => exact hfiltered
  | tail _ hnext ih => exact hnext.filtered ih

/-- An engine that works on no request yet can come into no situation in which a session
filters by a name under which there is no filter. So the lookup of the filter succeeds,
whenever it takes place, and no read fails for it. -/
theorem finds_filters (hidle : situation.requests = []) (hreaches : situation.Reaches after) :
    (∀ frames ∈ after.requests, ∀ frame ∈ frames, ∀ name, frame.session.filter = some name →
        ∃ filter, after.engine.registry.kept.find? ⟨.filter, name⟩ = some (.filter filter)) ∧
      (∀ frames ∈ after.requests, ∀ frame ∈ frames, ∀ target cells error,
        frame.session.finish after.engine.registry target cells = .error error →
          error.kind = .extension → frame.session.StopsShort error) ∧
      ∀ earlier frame waiting later rest (attempt : Attempt σ),
        after.Tries earlier frame waiting later rest attempt →
          attempt.operation.kind ∈ [.get, .slice, .sliceByNames] →
            ∀ error, attempt.error? = some error → error.kind = .extension →
              frame.session.StopsShort error ∨ Store.FailsReading after.engine.store error := by
  have hfiltered : after.Filtered := by
    refine Reaches.filtered hreaches fun frames hframes => ?_
    rw [hidle] at hframes
    cases hframes
  refine ⟨hfiltered, fun frames hframes frame hframe target cells error herror hkind => ?_, ?_⟩
  · rcases (hfiltered frames hframes frame hframe).finish target cells error herror with
      hordinary | hstops
    · exact absurd hkind hordinary
    · exact hstops
  · intro earlier frame waiting later rest attempt htries hread error herror hkind
    obtain ⟨hrequests, _, hengine, nested, deadlines, hattempt⟩ := htries
    have hsession : attempt.session = frame.session := by rw [hattempt]; rfl
    have hmember : frame :: waiting ∈ after.requests := by
      rw [hrequests]
      exact List.mem_append_right _ List.mem_cons_self
    have hframe := hfiltered _ hmember frame List.mem_cons_self
    rw [← hsession, ← hengine] at hframe
    have hmeets := Attempt.meets_of_reading hattempt hread hframe herror
    rw [hsession, hengine] at hmeets
    exact hmeets.resolve_left (absurd hkind)

/-- While a request is in filter mode its filter is replaced, by one that stops short. -/
theorem finds_filters_replaced :
    let keyspace : Keyspace :=
      { replication := 1
        tables := (∅ : Map String Rows).insert "t"
          ((∅ : Rows).insert [7] ((∅ : Columns).insert [1] ⟨[3], 0, none⟩)) }
    let kept (accepted : Option Bool) : Map CapabilityKey Capability :=
      Map.insert ∅ ⟨.filter, "f"⟩ (.filter { accept := fun _ => accepted })
    let engine (accepted : Option Bool) : Engine NestedStore :=
      { store := { keyspaces := (∅ : Map String Keyspace).insert "ks" keyspace }
        registry := { kept := kept accepted } }
    let slice : Operation :=
      { Operation.literal { kind := .slice } "rowkey" (.bytes [7]) with
        overrides := { keyspace := some "ks", table := some "t" } }
    let session : Session :=
      { defaults := { consistency := .one }, results := ⟨[.captured .ok, .pending]⟩
        filter := some "f" }
    let frame : Frame := { binds := none, index := 1, rest := [slice], session }
    let start : Situation NestedStore := ⟨engine (some true), []⟩
    let situation : Situation NestedStore := ⟨engine none, [[frame]]⟩
    let clock : Clock := { readings := fun _ => 0 }
    let attempt := attemptOf (runChain 0) [] none slice [] session ⟨engine none, clock⟩
    start.Reaches situation ∧ situation.Tries [] frame [] [] [] attempt ∧
      attempt.error? = some (.extension (.panicked .filter "f")) ∧
      (∃ filter, situation.engine.registry.kept.find? ⟨.filter, "f"⟩ = some (.filter filter)) ∧
      (session.StopsShort (.extension (.panicked .filter "f")) ∨
        Store.FailsReading (engine none).store (.extension (.panicked .filter "f"))) := by
  intro keyspace kept engine slice session frame start situation clock attempt
  let mode := Operation.literal { kind := .filterMode } "name" (.text "f")
  let request : Request := { operations := [mode, slice] }
  let fresh : Session := { defaults := { consistency := .one }, results := .ofLength 2 }
  let first := attemptOf (runChain 0) [] none mode [slice] fresh ⟨engine (some true), clock⟩
  let compiling : Registry :=
    { loaders := Map.insert ∅ "always" fun _ _ => .ok (.filter { accept := fun _ => none }) }
  have harrived : start.Next ⟨engine (some true), [[.start [mode, slice] fresh none]]⟩ :=
    .arrived (rfl : (engine (some true)).startSession request = .ok fresh) []
  have hfirst : Tries ⟨engine (some true), [[.start [mode, slice] fresh none]]⟩ []
      (.start [mode, slice] fresh none) [] [] [slice] first :=
    ⟨rfl, rfl, rfl, runChain 0, [], rfl⟩
  have hexecuted : Next ⟨engine (some true), [[.start [mode, slice] fresh none]]⟩
      ⟨engine (some true), [[frame]]⟩ := .executed hfirst rfl
  have hregistered : Next ⟨engine (some true), [[frame]]⟩ situation :=
    .registered (engine (some true)) [[frame]]
      (rfl : compiling.compile .filter "f" "always" "" =
        .ok (.filter { accept := fun _ => none }))
  have hreaches : start.Reaches situation :=
    ((Relation.ReflTransGen.single harrived).tail hexecuted).tail hregistered
  have htries : situation.Tries [] frame [] [] [] attempt := ⟨rfl, rfl, rfl, runChain 0, [], rfl⟩
  have herror : attempt.error? = some (.extension (.panicked .filter "f")) := rfl
  obtain ⟨hfound, _, hread⟩ := finds_filters rfl hreaches
  refine ⟨hreaches, htries, herror, ?_, ?_⟩
  · exact hfound [frame] List.mem_cons_self frame List.mem_cons_self "f" rfl
  · exact hread _ _ _ _ _ attempt htries (by decide) _ herror rfl

end Situation

end OperationChain
