import OperationChain.Proofs.Engine.Columns
import OperationChain.Proofs.Engine.Views
import OperationChain.Proofs.Store.Slices

/-! # Slices of rows

What a `slice` comes to. Its bounds are encoded as names are, so that a slice answers those
live columns of its row whose names lie between them, in the order of the encoded names, up to
its limit. Slices of one row at one time are parts of the slice without bounds.
-/

namespace OperationChain

/-- A bound of a slice as bytes; one that is open has none. -/
def Session.bound (session : Session) (target : TableName) : Option Value → Except Error Bytes
  | none => .ok []
  | some (.text "") => .ok []
  | some value => session.encodeName target value

/-- What a slice answers at a reading of the clock. -/
def Engine.scan (engine : Engine Storage) (level : Consistency) (session : Session)
    (now : Timestamp) (target : TableName) (rowkey : Bytes) (range : SliceRange) :
    Except Error Record := do
  engine.store.contents.check target level true
  session.finish engine.registry target
    (((engine.store.liveRow target rowkey now).filter fun cell =>
      range.contains cell.name).take range.limit)

/-- What the arguments of a slice say: its row, its bounds, and how many columns it takes at
most. -/
structure Arguments.Slices (args : Arguments) (rowkey : Bytes) (start finish : Option Value)
    (limit : Nat) : Prop where
  rowkey : ∃ key, args.required "rowkey" = .ok key ∧ encodeNatural key = .ok rowkey
  start : args.get? "start" = start
  finish : args.get? "end" = finish
  limit : ∃ given, args.integer? "limit" = .ok given ∧
    (given.getD defaultSliceLimit).toInt = limit

section Runs

variable {ctx : Context} {args : Arguments} {session : Session} {target : TableName}
  {rowkey lower upper : Bytes} {start finish : Option Value} {limit : Nat}

theorem sliceBound_eq (args : Arguments) (session : Session) (target : TableName) (key : String) :
    sliceBound args session target key = session.bound target (args.get? key) := by
  unfold sliceBound Session.bound
  rfl

theorem sliceRange_of_slices (hslices : args.Slices rowkey start finish limit)
    (hlower : session.bound target start = .ok lower)
    (hupper : session.bound target finish = .ok upper) :
    sliceRange args session target = .ok ⟨lower, upper, limit⟩ := by
  obtain ⟨given, hgiven, hlimit⟩ := hslices.limit
  rw [sliceRange, hgiven, Except.ok_bind, sliceBound_eq, sliceBound_eq, hslices.start,
    hslices.finish, hlower, hupper]
  simp only [Except.ok_bind, hlimit]
  exact if_pos (Int.natCast_nonneg limit)

/-- With its range known a slice is one reading of the clock and one question to the store. -/
theorem runSlice_eq {σ : Type} [Store σ] (hslices : args.Slices rowkey start finish limit)
    (htarget : ctx.target = .ok target) (hlower : session.bound target start = .ok lower)
    (hupper : session.bound target finish = .ok upper) (deadlines : Deadlines) :
    (runSlice ctx args session deadlines : Run σ Record) = (do
      let now ← Run.now
      let cells ← Run.ask deadlines fun store =>
        Store.readSlice store now target rowkey ⟨lower, upper, limit⟩ ctx.consistency
      runFinish session deadlines target cells) := by
  obtain ⟨key, hkey, hrowkey⟩ := hslices.rowkey
  rw [runSlice, htarget, Except.ok_bind, sliceRange_of_slices hslices hlower hupper,
    Except.ok_bind, hkey, Except.ok_bind, hrowkey]
  rfl

theorem comesTo_runSlice (hslices : args.Slices rowkey start finish limit)
    (htarget : ctx.target = .ok target) (hlower : session.bound target start = .ok lower)
    (hupper : session.bound target finish = .ok upper) (world : World Storage)
    (hkeyed : TableStore.Keyed world.engine.store.contents.cells) (deadlines : Deadlines) :
    (runSlice ctx args session deadlines).ComesTo world
      (world.engine.scan ctx.consistency session world.clock.next target rowkey
        ⟨lower, upper, limit⟩) world.engine := by
  have hscan : world.engine.scan ctx.consistency session world.clock.next target rowkey
        ⟨lower, upper, limit⟩ =
      Store.readSlice world.engine.store world.clock.next target rowkey ⟨lower, upper, limit⟩
        ctx.consistency >>= session.finish world.engine.registry target := by
    rw [Storage.readSlice_of_keyed hkeyed, Engine.scan]
    cases world.engine.store.contents.check target ctx.consistency true <;> rfl
  rw [hscan, runSlice_eq hslices htarget hlower hupper]
  exact .of_bind_ok (Run.exec_now world) (.bind (.ask deadlines _ _) fun cells clock =>
    comesTo_runFinish deadlines target cells ⟨world.engine, clock⟩)

/-- Without a filter it is up to the store alone how long that takes. -/
theorem exec_runSlice_of_unpaused (hslices : args.Slices rowkey start finish limit)
    (htarget : ctx.target = .ok target) (hlower : session.bound target start = .ok lower)
    (hupper : session.bound target finish = .ok upper) {world : World Storage} {cells : List Cell}
    (hread : Store.readSlice world.engine.store world.clock.next target rowkey
      ⟨lower, upper, limit⟩ ctx.consistency = .ok cells)
    (hpause : (world.clock.pauses world.clock.paused).millis = 0)
    (hfilter : session.filter = none) (deadlines : Deadlines) :
    ∃ clock, clock.elapsed = world.clock.elapsed ∧
      (runSlice ctx args session deadlines).exec world =
        ((session.finish world.engine.registry target cells).mapError .failed,
          { world with clock }) := by
  let asked : World Storage := { world with clock.taken := world.clock.taken + 1 }
  let paused : World Storage := { asked with clock.paused := asked.clock.paused + 1 }
  have hask : (Run.ask deadlines fun store => Store.readSlice store world.clock.next target rowkey
      ⟨lower, upper, limit⟩ ctx.consistency).exec asked = (.ok cells, paused) := by
    refine (Run.exec_ask_of_none ?_ deadlines _).trans (congrArg (·, paused) ?_)
    · exact hpause
    · exact congrArg (Except.mapError _) hread
  refine ⟨paused.clock, rfl, ?_⟩
  rw [runSlice_eq hslices htarget hlower hupper]
  refine (Program.exec_bind_ok (Run.exec_now world)).trans ((Program.exec_bind_ok hask).trans ?_)
  rw [exec_runFinish, Session.filterTime_of_unfiltered hfilter]
  exact Run.exec_lift _ _

end Runs

/-! ## Rows of columns -/

namespace Session

variable {session : Session} {target : TableName}

/-- The rows of cells, under the types that the session assumes. -/
abbrev Reads (session : Session) (target : TableName) : List Cell → List Row → Prop :=
  List.Forall₂ fun cell row => session.decodeCell target cell = .ok row

/-- Filter mode is off and rows keep all their components. -/
structure ShowsAll (session : Session) : Prop where
  filter : session.filter = none
  components : session.components = none

theorem ShowsAll.filtersBy (hall : session.ShowsAll) (registry : Registry) :
    session.FiltersBy registry fun _ => true where
  off _ _ := rfl
  on name hname := by
    rw [hall.filter] at hname
    cases hname

theorem decodeCell_eq_ok_iff {cell : Cell} {row : Row} :
    session.decodeCell target cell = .ok row ↔
      ∃ name value,
        decode cell.name (session.assumed target.keyspace target.table .name) = .ok name ∧
        decode cell.value (session.assumed target.keyspace target.table .value) = .ok value ∧
        row = ⟨some name, some value, some cell.timestamp, cell.ttl⟩ := by
  rw [decodeCell, Except.bind_eq_ok_iff]
  constructor
  · rintro ⟨name, hname, hrest⟩
    obtain ⟨value, hvalue, hrow⟩ := Except.bind_eq_ok_iff.mp hrest
    cases hrow
    exact ⟨name, value, hname, hvalue, rfl⟩
  · rintro ⟨name, value, hname, hvalue, rfl⟩
    exact ⟨name, hname, Except.bind_eq_ok_iff.mpr ⟨value, hvalue, rfl⟩⟩

theorem exists_reads {cells : List Cell}
    (hcells : ∀ cell ∈ cells, ∃ row, session.decodeCell target cell = .ok row) :
    ∃ rows, session.Reads target cells rows := by
  induction cells with
  | nil => exact ⟨[], .nil⟩
  | cons cell rest ih =>
      obtain ⟨hcell, hrest⟩ := List.forall_mem_cons.mp hcells
      obtain ⟨row, hrow⟩ := hcell
      obtain ⟨rows, hrows⟩ := ih hrest
      exact ⟨row :: rows, .cons hrow hrows⟩

theorem exists_reads_of_decode {cells : List Cell}
    (hnames : ∀ cell ∈ cells, ∃ name, decode cell.name (session.nameType target) = .ok name)
    (hvalues : ∀ cell ∈ cells, ∃ value, decode cell.value
      (session.assumed target.keyspace target.table .value) = .ok value) :
    ∃ rows, session.Reads target cells rows := by
  refine exists_reads fun cell hcell => ?_
  obtain ⟨name, hname⟩ := hnames cell hcell
  obtain ⟨value, hvalue⟩ := hvalues cell hcell
  exact ⟨_, decodeCell_of_decode hname hvalue⟩

end Session

namespace Attempt

/-- An attempt of a slice that is not late, and whose table can be read. -/
structure Slices (attempt : Attempt Storage) (target : TableName) (rowkey : Bytes)
    (start finish : Option Value) (limit : Nat) : Prop where
  attempted : ∃ (nested : Nested Storage) (deadlines : Deadlines) (rest : List Operation),
    attempt = attemptOf nested deadlines attempt.binds attempt.operation rest attempt.session
      attempt.before
  kind : attempt.operation.kind = .slice
  args : ∃ args, attempt.args = .ok args ∧ args.Slices rowkey start finish limit
  table : attempt.context.target = .ok target
  inTime : attempt.InTime
  readable : attempt.before.engine.store.contents.check target attempt.context.consistency true =
    .ok ()

/-- The live columns of a row as an attempt finds them. -/
def liveRow (attempt : Attempt Storage) (target : TableName) (rowkey : Bytes) : List Cell :=
  attempt.before.engine.store.liveRow target rowkey attempt.before.clock.next

/-- The columns that a range takes of them. -/
def sliced (attempt : Attempt Storage) (target : TableName) (rowkey : Bytes)
    (range : SliceRange) : List Cell :=
  ((attempt.liveRow target rowkey).filter fun cell => range.contains cell.name).take range.limit

/-- Two attempts find the same columns and read them alike: they have one store, one reading of
the clock and the same assumed types. -/
structure Alongside (attempt other : Attempt Storage) : Prop where
  store : attempt.before.engine.store = other.before.engine.store
  clock : attempt.before.clock.next = other.before.clock.next
  assumptions : attempt.session.defaults.assumptions = other.session.defaults.assumptions

/-- The same columns are found and read in the same way. -/
theorem Alongside.alike {attempt other : Attempt Storage} (halongside : attempt.Alongside other)
    (target : TableName) (rowkey : Bytes) :
    attempt.liveRow target rowkey = other.liveRow target rowkey ∧
      attempt.session.decodeCell target = other.session.decodeCell target ∧
      attempt.session.bound target = other.session.bound target := by
  refine ⟨by rw [liveRow, liveRow, halongside.store, halongside.clock], ?_, ?_⟩
  · funext cell
    rw [Session.decodeCell, Session.decodeCell, Session.assumed, Session.assumed, Session.assumed,
      Session.assumed, halongside.assumptions]
  · funext value
    unfold Session.bound Session.encodeName Session.assumed
    rw [halongside.assumptions]

variable {attempt : Attempt Storage} {target : TableName} {rowkey lower upper : Bytes}
  {start finish : Option Value} {limit : Nat}

/-- Slices are not late that have any time at all, where nothing takes time. -/
theorem slices_of_unpaused {nested : Nested Storage} {deadlines : Deadlines}
    {rest : List Operation}
    (hattempt : attempt = attemptOf nested deadlines attempt.binds attempt.operation rest
      attempt.session attempt.before)
    (hkind : attempt.operation.kind = .slice) {args : Arguments} (hargs : attempt.args = .ok args)
    (hslices : args.Slices rowkey start finish limit)
    (htable : attempt.context.target = .ok target)
    (hreadable : attempt.before.engine.store.contents.check target attempt.context.consistency
      true = .ok ())
    (hkeyed : TableStore.Keyed attempt.before.engine.store.contents.cells)
    (hlower : attempt.session.bound target start = .ok lower)
    (hupper : attempt.session.bound target finish = .ok upper)
    (hpause : (attempt.before.clock.pauses attempt.before.clock.paused).millis = 0)
    (hbudget : attempt.context.timeout ≠ 0) (hall : attempt.session.ShowsAll)
    (hcells : ∀ cell ∈ attempt.liveRow target rowkey,
      ∃ row, attempt.session.decodeCell target cell = .ok row) :
    attempt.Slices target rowkey start finish limit := by
  refine ⟨⟨nested, deadlines, rest, hattempt⟩, hkind, ⟨args, hargs, hslices⟩, htable, ?_,
    hreadable⟩
  obtain ⟨rows, hrows⟩ : ∃ rows, attempt.session.Reads target
      (attempt.sliced target rowkey ⟨lower, upper, limit⟩) rows :=
    Session.exists_reads fun cell hcell =>
      hcells cell (List.mem_of_mem_filter (List.mem_of_mem_take hcell))
  have hfinish : attempt.session.finish attempt.before.engine.registry target
      (attempt.sliced target rowkey ⟨lower, upper, limit⟩) = .ok (.rows rows) := by
    rw [Session.finish_of_plain hall.filter hall.components, Except.mapM_eq_ok_iff.mpr hrows]
    rfl
  have hbody := timedRun?_of_slice nested attempt.context attempt.session
    ((Operation.resolve_kind hargs).trans hkind)
  have hread : Store.readSlice attempt.before.engine.store attempt.before.clock.next target rowkey
      ⟨lower, upper, limit⟩ attempt.context.consistency =
        .ok (attempt.sliced target rowkey ⟨lower, upper, limit⟩) := by
    rw [Storage.readSlice_of_keyed hkeyed, hreadable]
    rfl
  obtain ⟨clock, helapsed, hexec⟩ := exec_runSlice_of_unpaused hslices htable hlower hupper hread
    hpause hall.filter
    ((attempt.before.clock.elapsed + attempt.context.timeout.toNat) :: deadlines)
  rw [hfinish] at hexec
  have htime : clock.elapsed < attempt.before.clock.elapsed + attempt.context.timeout.toNat := by
    have hpos : attempt.context.timeout.toNat ≠ 0 :=
      fun hzero => hbudget (UInt64.toNat_inj.mp hzero)
    omega
  have hrun := (attempt.run_of_timedRun hattempt hargs hbody).1
  rw [Run.exec_within_of_lt hexec htime] at hrun
  exact inTime_of_ok hrun

/-- A range without bounds takes every column, if its limit allows it. -/
theorem sliced_open (hlimit : (attempt.liveRow target rowkey).length ≤ limit) :
    attempt.sliced target rowkey ⟨[], [], limit⟩ = attempt.liveRow target rowkey := by
  have hall : ∀ cell ∈ attempt.liveRow target rowkey,
      SliceRange.contains ⟨[], [], limit⟩ cell.name = true := fun _ _ => rfl
  rw [sliced, List.filter_eq_self.mpr hall, List.take_of_length_le hlimit]

/-- A slice answers the live columns of its row between its bounds, up to its limit. -/
theorem ending_of_slices (hslices : attempt.Slices target rowkey start finish limit)
    (hkeyed : TableStore.Keyed attempt.before.engine.store.contents.cells)
    (hlower : attempt.session.bound target start = .ok lower)
    (hupper : attempt.session.bound target finish = .ok upper) :
    attempt.ending =
      ((attempt.session.finish attempt.before.engine.registry target
        (attempt.sliced target rowkey ⟨lower, upper, limit⟩)).mapError .failed).map
          fun record => .next record attempt.session := by
  obtain ⟨nested, deadlines, rest, hattempt⟩ := hslices.attempted
  obtain ⟨args, hargs, hargued⟩ := hslices.args
  have hbody := timedRun?_of_slice nested attempt.context attempt.session
    ((Operation.resolve_kind hargs).trans hslices.kind)
  have hruns := comesTo_runSlice hargued hslices.table hlower hupper attempt.before hkeyed
  rw [(attempt.run_of_resolved hattempt hargs hbody hruns).1 hslices.inTime, Engine.scan,
    hslices.readable]
  rfl

/-- A slice answers those rows of its columns that the filter of its session accepts. -/
theorem ending_of_reads (hslices : attempt.Slices target rowkey start finish limit)
    (hkeyed : TableStore.Keyed attempt.before.engine.store.contents.cells)
    (hlower : attempt.session.bound target start = .ok lower)
    (hupper : attempt.session.bound target finish = .ok upper) {accepts : Row → Bool}
    (hfilters : attempt.session.FiltersBy attempt.before.engine.registry accepts)
    (hcomponents : attempt.session.components = none) {rows : List Row}
    (hrows : attempt.session.Reads target (attempt.sliced target rowkey ⟨lower, upper, limit⟩)
      rows) :
    attempt.ending = .ok (.next (.rows (rows.filter accepts)) attempt.session) := by
  have hcut : attempt.session.cut = id := by
    funext row
    rw [Session.cut, hcomponents]
    rfl
  rw [ending_of_slices hslices hkeyed hlower hupper, Session.finish_of_filtersBy hfilters,
    Except.mapM_eq_ok_iff.mpr hrows, hcut]
  exact congrArg (fun rows => Except.ok (Step.next (.rows rows) _)) (List.map_id _)

/-- Where every row passes a slice answers the rows of its columns. -/
theorem ending_of_showsAll (hslices : attempt.Slices target rowkey start finish limit)
    (hkeyed : TableStore.Keyed attempt.before.engine.store.contents.cells)
    (hlower : attempt.session.bound target start = .ok lower)
    (hupper : attempt.session.bound target finish = .ok upper)
    (hall : attempt.session.ShowsAll) {rows : List Row}
    (hrows : attempt.session.Reads target (attempt.sliced target rowkey ⟨lower, upper, limit⟩)
      rows) :
    attempt.ending = .ok (.next (.rows rows) attempt.session) := by
  rw [ending_of_reads hslices hkeyed hlower hupper (hall.filtersBy _) hall.components hrows,
    List.filter_true]

theorem reads_of_ending (hslices : attempt.Slices target rowkey start finish limit)
    (hkeyed : TableStore.Keyed attempt.before.engine.store.contents.cells)
    (hlower : attempt.session.bound target start = .ok lower)
    (hupper : attempt.session.bound target finish = .ok upper)
    (hall : attempt.session.ShowsAll) {rows : List Row} {after : Session}
    (hending : attempt.ending = .ok (.next (.rows rows) after)) :
    attempt.session.Reads target (attempt.sliced target rowkey ⟨lower, upper, limit⟩) rows := by
  rw [ending_of_slices hslices hkeyed hlower hupper,
    Session.finish_of_plain hall.filter hall.components] at hending
  obtain ⟨record, hrecord, hnext⟩ := Except.map_eq_ok_iff.mp hending
  obtain ⟨found, hfound, rfl⟩ := Except.map_eq_ok_iff.mp (Except.mapError_eq_ok_iff.mp hrecord)
  cases hnext
  exact Except.mapM_eq_ok_iff.mp hfound

end Attempt

end OperationChain
