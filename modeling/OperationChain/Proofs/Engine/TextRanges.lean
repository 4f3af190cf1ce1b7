import OperationChain.Extension.Loader
import OperationChain.Proofs.DataType.Canonical
import OperationChain.Proofs.Engine.Slices
import OperationChain.Proofs.Text.Utf8Order

/-! # Ranges of text names

A slice compares the bytes of names and cuts what it takes to its limit; a predicate compares
texts, row by row. As texts and their bytes have one order, a slice between two texts answers
the first of those rows of its row for which a predicate says that their names lie between
these texts.
-/

namespace OperationChain

namespace Expression.Predicate

/-- The name is not before one text and not after another. -/
def between (first last : String) : Predicate :=
  .and (.compare (.field .name) .atLeast (.literal (.text first)))
    (.compare (.field .name) .atMost (.literal (.text last)))

theorem evaluate_between {row : Row} {name : String} (hname : row.name = some (.text name))
    (first last : String) :
    (between first last).evaluate row =
      ((Ord.compare first name).isLE && (Ord.compare name last).isLE) := by
  have hfield : Term.evaluate row (.field .name) = .text name := by
    rw [Term.evaluate, Row.component, hname]
    rfl
  have hswap : Ord.compare first name = (Ord.compare name first).swap := Std.OrientedCmp.eq_swap
  rw [between, evaluate, evaluate, evaluate, hfield, hswap]
  simp only [Term.evaluate, Comparison.test, Value.compare?]
  cases Ord.compare name first <;> cases Ord.compare name last <;> rfl

end Expression.Predicate

open Expression (Predicate)

theorem DataType.text_of_decode {raw : Bytes} {v : Value}
    (hdecode : DataType.utf8.decode raw = .ok v) : ∃ s, v = .text s ∧ Utf8.encode s = raw := by
  have hempty : ¬ (raw.isEmpty && !DataType.utf8.readsEmpty) = true := by simp [readsEmpty]
  rw [decode, if_neg hempty] at hdecode
  simp only at hdecode
  split at hdecode
  next s hs =>
    cases hdecode
    exact ⟨s, rfl, Utf8.encode_of_decode? hs⟩
  next => cases hdecode

namespace SliceRange

/-- Between the bytes of two texts lie the bytes of the texts between them. -/
theorem contains_encode {first last : String} (hfirst : first ≠ "") (hlast : last ≠ "")
    (limit : Nat) (name : String) :
    SliceRange.contains ⟨Utf8.encode first, Utf8.encode last, limit⟩ (Utf8.encode name) =
      ((compare first name).isLE && (compare name last).isLE) := by
  have hne {s : String} (hs : s ≠ "") : Utf8.encode s ≠ [] :=
    fun hnil => hs (Utf8.encode_inj.mp (hnil.trans rfl))
  rw [contains_of_ne (hne hfirst) (hne hlast), Utf8.compare_encode, Utf8.compare_encode]

end SliceRange

namespace Session

variable {session : Session} {target : TableName}

/-- Under the type of text a bound that is not empty is the bytes of its text. -/
theorem bound_of_text (htype : session.nameType target = some .utf8) {s : String} (hs : s ≠ "") :
    session.bound target (some (.text s)) = .ok (Utf8.encode s) := by
  unfold bound
  split
  next hvalue => cases hvalue
  next hvalue =>
    cases hvalue
    exact absurd rfl hs
  next hvalue =>
    cases hvalue
    exact encodeName_of_nameType htype (.text s)

/-- Behind the filter of a predicate those rows pass for which it is true. -/
theorem filtersBy_of_predicate {registry : Registry} {name : String} {predicate : Predicate}
    (hfilter : session.filter = some name)
    (hkept : registry.filter name = .ok (Loader.predicateFilter predicate)) :
    session.FiltersBy registry fun row => predicate.evaluate row where
  off hoff := by
    rw [hfilter] at hoff
    cases hoff
  on found hfound := by
    rw [hfilter] at hfound
    cases hfound
    exact ⟨_, hkept, fun _ => rfl⟩

end Session

namespace Attempt

variable {whole ranged : Attempt Storage} {target : TableName} {rowkey : Bytes} {count limit : Nat}
  {first last : String}

/-- The rows whose names lie between two texts are the rows of the columns whose bytes do. -/
theorem reads_between {session : Session} {cells : List Cell} {rows : List Row}
    (htype : session.nameType target = some .utf8) (hfirst : first ≠ "") (hlast : last ≠ "")
    (hreads : session.Reads target cells rows) :
    session.Reads target
      (cells.filter fun cell =>
        SliceRange.contains ⟨Utf8.encode first, Utf8.encode last, limit⟩ cell.name)
      (rows.filter fun row => (Predicate.between first last).evaluate row) := by
  refine List.rel_filter (fun cell row hrow => ?_) hreads
  obtain ⟨name, value, hname, -, rfl⟩ := Session.decodeCell_eq_ok_iff.mp hrow
  rw [show session.assumed _ _ _ = some .utf8 from htype] at hname
  obtain ⟨s, rfl, hs⟩ := DataType.text_of_decode hname
  dsimp only
  rw [← hs, SliceRange.contains_encode hfirst hlast, Predicate.evaluate_between rfl]

/-- A slice between two texts answers the first rows, up to its limit, of those rows of the
slice without bounds for which the predicate says that their names lie between the texts. The
slice without bounds has rows, if the values of the row can be read, and behind a filter of that
predicate it answers those very rows. -/
theorem ending_between_texts
    (hkeyed : TableStore.Keyed whole.before.engine.store.contents.cells)
    (hwhole : whole.Slices target rowkey none none count)
    (hcount : (whole.liveRow target rowkey).length ≤ count) (hall : whole.session.ShowsAll)
    (htype : whole.session.nameType target = some .utf8)
    (hvalid : ∀ cell ∈ whole.liveRow target rowkey, Utf8.isValid cell.name = true)
    (halongside : ranged.Alongside whole)
    (hranged : ranged.Slices target rowkey (some (.text first)) (some (.text last)) limit)
    (hfirst : first ≠ "") (hlast : last ≠ "") (hall' : ranged.session.ShowsAll) :
    let chosen (row : Row) : Bool := (Predicate.between first last).evaluate row
    (∀ rows after, whole.ending = .ok (.next (.rows rows) after) →
      ranged.ending = .ok (.next (.rows ((rows.filter chosen).take limit)) ranged.session) ∧
      ∀ (filtered : Attempt Storage) (name : String), filtered.Alongside whole →
        filtered.Slices target rowkey none none count → filtered.session.filter = some name →
        filtered.before.engine.registry.filter name =
          .ok (Loader.predicateFilter (.between first last)) →
        filtered.session.components = none →
        filtered.ending = .ok (.next (.rows (rows.filter chosen)) filtered.session)) ∧
    ((∀ cell ∈ whole.liveRow target rowkey, ∃ value, decode cell.value
        (whole.session.assumed target.keyspace target.table .value) = .ok value) →
      ∃ rows, whole.ending = .ok (.next (.rows rows) whole.session)) := by
  intro chosen
  have hrow : whole.sliced target rowkey ⟨[], [], count⟩ = whole.liveRow target rowkey :=
    sliced_open hcount
  -- All slices are read off the one list of live columns, so that its rows decide everything.
  refine ⟨fun rows after hending => ?_, fun hvalues => ?_⟩
  · have hreads := reads_of_ending hwhole hkeyed rfl rfl hall hending
    rw [hrow] at hreads
    constructor
    · obtain ⟨hlive, hdecode, hencode⟩ := halongside.alike target rowkey
      have hranged' : ranged.session.Reads target
          (ranged.sliced target rowkey ⟨Utf8.encode first, Utf8.encode last, limit⟩)
          ((rows.filter chosen).take limit) := by
        rw [Session.Reads, sliced, hlive, hdecode]
        exact List.forall₂_take limit (reads_between htype hfirst hlast hreads)
      exact ending_of_showsAll hranged (halongside.store ▸ hkeyed)
        (hencode ▸ Session.bound_of_text htype hfirst) (hencode ▸ Session.bound_of_text htype hlast)
        hall' hranged'
    · intro filtered name halongside' hfiltered hfilter hkept hcomponents
      obtain ⟨hlive, hdecode, -⟩ := halongside'.alike target rowkey
      refine ending_of_reads hfiltered (halongside'.store ▸ hkeyed) rfl rfl
        (Session.filtersBy_of_predicate hfilter hkept) hcomponents ?_
      rw [sliced_open (hlive ▸ hcount), Session.Reads, hlive, hdecode]
      exact hreads
  · have hnames : ∀ cell ∈ whole.liveRow target rowkey,
        ∃ name, decode cell.name (whole.session.nameType target) = .ok name := by
      intro cell hcell
      obtain ⟨s, hs⟩ := Option.isSome_iff_exists.mp (hvalid cell hcell)
      rw [htype]
      exact ⟨_, DataType.decode_utf8 hs⟩
    obtain ⟨rows, hrows⟩ := Session.exists_reads_of_decode hnames hvalues
    exact ⟨rows, ending_of_showsAll hwhole hkeyed rfl rfl hall (hrow.symm ▸ hrows)⟩

/-- Names of one and of two bytes, of which a slice takes one that is between its bounds. -/
theorem ending_between_texts_accents :
    let target : TableName := ⟨"ks", "t"⟩
    let column (name : String) : CellRow := ⟨target, [7], Utf8.encode name, [1], 0, none⟩
    let store : TableStore :=
      { keyspaces := [⟨"ks", 1⟩], tables := [target]
        cells := [column "é", column "z", column "a"] }
    let session : Session := Session.assume
      { defaults := { keyspace := some "ks", table := some "t", consistency := .one } }
      "ks" "t" .name .utf8
    let world : World Storage := ⟨{ store := .tables store }, { readings := fun _ => 0 }⟩
    let slice : Operation := Operation.literal { kind := .slice } "rowkey" (.bytes [7])
    let bounded := ((slice.literal "start" (.text "b")).literal "end" (.text "ë")).literal "limit"
      (.int 1)
    let whole := attemptOf (runChain 0) [] none slice [] session world
    let ranged := attemptOf (runChain 0) [] none bounded [] session world
    ∃ rows, whole.ending = .ok (.next (.rows rows) session) ∧
      ranged.ending = .ok (.next (.rows ((rows.filter fun row =>
        (Predicate.between "b" "ë").evaluate row).take 1)) session) := by
  intro target column store session world slice bounded whole ranged
  have hkeyed : TableStore.Keyed world.engine.store.contents.cells := by
    change List.Pairwise _ _
    decide
  have hall : session.ShowsAll := ⟨rfl, rfl⟩
  have htype : session.nameType target = some .utf8 := by decide
  have hvalid : ∀ cell ∈ whole.liveRow target [7], Utf8.isValid cell.name = true := by
    intro cell hcell
    have hmem : (⟨target, [7], cell⟩ : CellRow) ∈ store.cells :=
      (Storage.mem_liveRow_iff_mem.mp hcell).1
    have hname : ∃ name, cell.name = Utf8.encode name := by
      simp only [store, column, List.mem_cons, List.not_mem_nil, or_false, CellRow.mk.injEq,
        true_and] at hmem
      rcases hmem with rfl | rfl | rfl <;> exact ⟨_, rfl⟩
    obtain ⟨name, hname⟩ := hname
    rw [hname, Utf8.isValid, Utf8.decode?_encode]
    rfl
  have hvalues : ∀ cell ∈ whole.liveRow target [7], ∃ value,
      decode cell.value (session.assumed "ks" "t" .value) = .ok value := by
    have hbytes : session.assumed "ks" "t" .value = none := by decide
    rw [hbytes]
    exact fun cell _ => ⟨.bytes cell.value, rfl⟩
  have hcells : ∀ cell ∈ whole.liveRow target [7],
      ∃ row, session.decodeCell target cell = .ok row := by
    intro cell hcell
    obtain ⟨s, hs⟩ := Option.isSome_iff_exists.mp (hvalid cell hcell)
    obtain ⟨value, hvalue⟩ := hvalues cell hcell
    have hname : decode cell.name (session.nameType target) = .ok (.text s) := by
      rw [htype]
      exact DataType.decode_utf8 hs
    exact ⟨_, Session.decodeCell_of_decode hname hvalue⟩
  have hwhole : whole.Slices target [7] none none 100 :=
    slices_of_unpaused rfl rfl rfl ⟨⟨_, rfl, rfl⟩, rfl, rfl, none, rfl, rfl⟩ rfl rfl hkeyed rfl rfl
      rfl (by decide) hall hcells
  have hranged : ranged.Slices target [7] (some (.text "b")) (some (.text "ë")) 1 :=
    slices_of_unpaused rfl rfl rfl ⟨⟨_, rfl, rfl⟩, rfl, rfl, some 1, rfl, rfl⟩ rfl rfl hkeyed
      (Session.bound_of_text htype (by decide)) (Session.bound_of_text htype (by decide)) rfl
      (by decide) hall hcells
  have hcount : (whole.liveRow target [7]).length ≤ 100 :=
    Nat.le_trans (Storage.length_liveRow_le _ _ _ _) (by decide)
  have halongside : ranged.Alongside whole := ⟨rfl, rfl, rfl⟩
  obtain ⟨hending, hrows⟩ := ending_between_texts hkeyed hwhole hcount hall htype hvalid halongside
    hranged (by decide) (by decide) hall
  obtain ⟨rows, hrows⟩ := hrows hvalues
  exact ⟨rows, hrows, (hending rows session hrows).1⟩

end Attempt

end OperationChain
