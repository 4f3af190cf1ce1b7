import OperationChain.Proofs.Engine.Columns

/-! # Filter mode and selected components

A session may show less of what is read from a store than there is: a filter chooses among
the rows, which it sees in full, and those that are left are cut to the selected components.
All that can still fail by then is to be in time, for a filter can be slow. Operations that do
not read columns take no notice.
-/

namespace OperationChain

variable {σ α β : Type}

/-! ## Rows -/

theorem Row.component_select (row : Row) (keep : List Component) (component : Component) :
    (row.select keep).component component =
      if keep.contains component then row.component component else none := by
  cases component <;> simp only [Row.select, Row.component] <;> split <;> rfl

theorem Filter.apply_of_accept {filter : Filter} {accepts : Row → Bool}
    (haccepts : ∀ row, filter.accept row = some (accepts row)) (rows : List Row) :
    filter.apply rows = some (rows.filter accepts) := by
  induction rows with
  | nil => rfl
  | cons row rest ih =>
      rw [Filter.apply, haccepts, ih, List.filter_cons]
      rfl

namespace Session

/-- The session without filter mode, in which rows keep all their components. -/
def plain (session : Session) : Session := { session with filter := none, components := none }

/-- Filter mode is off and lets every row pass, or its filter answers every row in this way. -/
structure FiltersBy (session : Session) (registry : Registry) (accepts : Row → Bool) : Prop where
  off : session.filter = none → ∀ row, accepts row = true
  on : ∀ name ∈ session.filter, ∃ filter, registry.filter name = .ok filter ∧
    ∀ row, filter.accept row = some (accepts row)

/-- A row with the components that are selected. -/
def cut (session : Session) (row : Row) : Row := session.components.elim row row.select

theorem selectComponents_eq (session : Session) (rows : List Row) :
    session.selectComponents rows = rows.map session.cut := by
  unfold selectComponents cut
  cases session.components with
  | none => exact (List.map_id' rows).symm
  | some keep => rfl

variable {session : Session} {registry : Registry} {accepts : Row → Bool}

theorem filterRows_of_filtersBy (hfilters : session.FiltersBy registry accepts) (rows : List Row) :
    session.filterRows registry rows = .ok (rows.filter accepts) := by
  unfold filterRows
  split
  next hoff =>
    rw [List.filter_eq_self.mpr fun row _ => hfilters.off hoff row]
  next name hon =>
    obtain ⟨filter, hfilter, haccepts⟩ := hfilters.on name hon
    rw [hfilter, Except.ok_bind, Filter.apply_of_accept haccepts]
    rfl

theorem finish_of_filtersBy (hfilters : session.FiltersBy registry accepts) (target : TableName)
    (cells : List Cell) :
    session.finish registry target cells = (cells.mapM (session.decodeCell target)).map
      fun rows => .rows ((rows.filter accepts).map session.cut) := by
  rw [finish]
  cases cells.mapM (session.decodeCell target) with
  | error error => rfl
  | ok rows =>
      rw [Except.ok_bind, filterRows_of_filtersBy hfilters, Except.ok_bind, selectComponents_eq]
      rfl

end Session

theorem Session.filterTime_of_unfiltered {session : Session} (hoff : session.filter = none)
    (registry : Registry) (target : TableName) (cells : List Cell) :
    session.filterTime registry target cells = 0 := by
  rw [filterTime, hoff]
  rfl

namespace Run

/-- A run ends with what `view` makes of the rows of another one, or without rows in the same
way. Where rows are `filtered` it can also be late, if the other one has rows or is late. -/
def Shows (filtered : Prop) (view : List Row → List Row) (outcome : Except Stop (List Row))
    (ending : Except Stop Record) : Prop :=
  ending = outcome.map (fun rows => .rows (view rows)) ∨
    filtered ∧ (∀ stop, outcome = .error stop → stop.Late) ∧
      ∃ stop, ending = .error stop ∧ stop.Late

/-- The second run answers the rows that it finds, and the first one shows them. Both leave the
same engine at the same time, or the first one later if it is `filtered`. -/
def Views (registry : Registry) (filtered : Prop) (view : List Row → List Row)
    (run plain : Run σ Record) : Prop :=
  ∀ world, world.engine.registry = registry →
    ∃ (outcome : Except Stop (List Row)) (after : World σ) (ending : Except Stop Record)
      (clock : Clock),
      plain.exec world = (outcome.map .rows, after) ∧
        run.exec world = (ending, { after with clock }) ∧ Shows filtered view outcome ending ∧
        (clock = after.clock ∨ filtered ∧ after.clock.elapsed ≤ clock.elapsed)

section Settled

variable {millis : UInt64} {due count elapsed : Nat}

theorem settled_map (f : α → β) (result : Except Stop α) :
    settled millis due count elapsed (result.map f) =
      (settled millis due count elapsed result).map f := by
  rcases result with (error | level | _) | a
  · rfl
  · simp only [Except.map, settled]
    split <;> rfl
  · rfl
  · simp only [Except.map, settled]
    split <;> rfl

/-- A budget does not put right what is late. -/
theorem late_of_settled {stop : Stop} (hlate : stop.Late) :
    ∃ after, settled millis due count elapsed (.error stop : Except Stop α) = .error after ∧
      after.Late := by
  cases hlate with
  | timeout other => exact ⟨_, rfl, .timeout other⟩
  | overdue level =>
      dsimp only [settled]
      split
      · exact ⟨_, rfl, .timeout millis⟩
      · exact ⟨_, rfl, .overdue level⟩

theorem late_of_settled_error {result : Except Stop α}
    (hresult : ∀ stop, result = .error stop → stop.Late) {stop : Stop}
    (hstop : settled millis due count elapsed result = .error stop) : stop.Late := by
  cases result with
  | error first =>
      obtain ⟨after, hafter, hlate⟩ := late_of_settled (hresult first rfl)
      cases hafter.symm.trans hstop
      exact hlate
  | ok a =>
      dsimp only [settled] at hstop
      split at hstop
      · cases hstop
        exact .timeout millis
      · cases hstop

/-- More time makes no difference to how a run ends, but that it can be late where it had a
value. -/
theorem settled_of_le {later : Nat} (hle : elapsed ≤ later) (result : Except Stop α) :
    settled millis due count later result = settled millis due count elapsed result ∨
      (∃ a, result = .ok a) ∧
        ∃ stop, settled millis due count later result = .error stop ∧ stop.Late := by
  rcases result with (error | level | _) | a
  · exact .inl rfl
  · exact .inl rfl
  · exact .inl rfl
  · dsimp only [settled]
    by_cases hdue : due ≤ later
    · rw [if_pos hdue]
      exact .inr ⟨⟨a, rfl⟩, _, rfl, .timeout millis⟩
    · rw [if_neg hdue, if_neg fun hearly => hdue (hearly.trans hle)]
      exact .inl rfl

theorem Shows.settled {filtered : Prop} {view : List Row → List Row}
    {outcome : Except Stop (List Row)} {ending : Except Stop Record} {later : Nat}
    (hshows : Shows filtered view outcome ending)
    (htime : later = elapsed ∨ filtered ∧ elapsed ≤ later) :
    Shows filtered view (Run.settled millis due count elapsed outcome)
      (Run.settled millis due count later ending) := by
  rcases hshows with rfl | ⟨hfiltered, hplain, stop, rfl, hlate⟩
  · rw [settled_map]
    rcases htime with rfl | ⟨hfiltered, hle⟩
    · exact .inl rfl
    · rcases settled_of_le hle outcome with hsame | ⟨⟨rows, rfl⟩, stop, hstop, hlate⟩
      · exact .inl (by rw [hsame])
      · refine .inr ⟨hfiltered, fun _ => late_of_settled_error (by rintro _ ⟨⟩), stop, ?_, hlate⟩
        rw [hstop]
        rfl
  · exact .inr ⟨hfiltered, fun _ => late_of_settled_error hplain, late_of_settled hlate⟩

end Settled

namespace Views

variable {registry : Registry} {filtered : Prop} {view : List Row → List Row}

theorem bind {first : Run σ α} {next next' : α → Run σ Record} (hfirst : Quiet first)
    (hnext : ∀ a, Views registry filtered view (next a) (next' a)) :
    Views registry filtered view (first >>= next) (first >>= next') := by
  intro world hworld
  have hengine := hfirst world
  cases hresult : first.exec world with
  | mk result after =>
      rw [hresult] at hengine
      cases result with
      | error stop =>
          refine ⟨.error stop, after, .error stop, after.clock, ?_, ?_, .inl rfl, .inl rfl⟩
          · exact Program.exec_bind_error hresult
          · exact Program.exec_bind_error hresult
      | ok a =>
          rw [Program.exec_bind_ok hresult, Program.exec_bind_ok hresult]
          exact hnext a after (by rw [hengine, hworld])

theorem within {run plain : Deadlines → Run σ Record}
    (hviews : ∀ deadlines, Views registry filtered view (run deadlines) (plain deadlines))
    (millis : UInt64) (outer : Deadlines) :
    Views registry filtered view (Run.within millis outer run) (Run.within millis outer plain) := by
  intro world hworld
  obtain ⟨outcome, after, ending, clock, hplain, hrun, hshows, htime⟩ :=
    hviews ((world.clock.elapsed + millis.toNat) :: outer) world hworld
  let due := world.clock.elapsed + millis.toNat
  refine ⟨settled millis due outer.length after.clock.elapsed outcome, after,
    settled millis due outer.length clock.elapsed ending, clock, ?_, ?_, ?_, htime⟩
  · rw [exec_within_eq]
    dsimp only
    rw [hplain, settled_map]
  · rw [exec_within_eq]
    dsimp only
    rw [hrun]
  · exact hshows.settled (htime.imp_left (congrArg Clock.elapsed))

end Views

end Run

section Reads

variable [Store σ] {ctx : Context} {args : Arguments} {session : Session} {registry : Registry}
  {accepts : Row → Bool}

/-- How a session shows the rows that its filter accepts. -/
abbrev Session.view (session : Session) (accepts : Row → Bool) (rows : List Row) : List Row :=
  (rows.filter accepts).map session.cut

end Reads

/-! ## Operations -/

namespace Attempt

variable [Store σ] {nested : Nested σ} {deadlines : Deadlines} {binds : Option Binds}
  {operation : Operation} {rest : List Operation} {session : Session} {world : World σ}
  {attempt plain : Attempt σ}

end Attempt

end OperationChain
