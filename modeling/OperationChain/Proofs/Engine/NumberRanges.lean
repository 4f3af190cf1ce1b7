import OperationChain.Proofs.DataType.Identity
import OperationChain.Proofs.DataType.IntegerOrder
import OperationChain.Proofs.Engine.Slices

/-! # Ranges of whole numbers as names

A slice compares the bytes of names, and those of whole numbers put the negative ones last.
Between bounds of one sign a slice takes the numbers between them in ascending order. From a
negative bound to another it takes nothing, and from one that is not negative to a negative one
it takes what lies outside: first the numbers up from its start, then those up to its end.
-/

namespace OperationChain

variable {type : DataType} {raw lower upper : Bytes} {first last n : Int64}

/-! ## Numbers between bounds -/

namespace SliceRange

section Bounds

variable (htype : type.holdsInt = true) (hfirst : type.encode (.int first) = .ok lower)
  (hlast : type.encode (.int last) = .ok upper) (hn : type.encode (.int n) = .ok raw) (limit : Nat)
include htype hfirst hlast hn

/-- A range takes the numbers between its bounds, all read without their sign. -/
theorem contains_encode_int :
    SliceRange.contains ⟨lower, upper, limit⟩ raw = true ↔
      first.toUInt64 ≤ n.toUInt64 ∧ n.toUInt64 ≤ last.toUInt64 := by
  have hlower : lower ≠ [] := DataType.ne_nil_of_encode_int htype hfirst
  have hupper : upper ≠ [] := DataType.ne_nil_of_encode_int htype hlast
  rw [contains_of_ne hlower hupper, Bool.and_eq_true, DataType.compare_encode_int htype hfirst hn,
    DataType.compare_encode_int htype hn hlast, Std.isLE_compare, Std.isLE_compare]

theorem contains_of_one_sign (hsign : 0 ≤ first ↔ 0 ≤ last) :
    SliceRange.contains ⟨lower, upper, limit⟩ raw = true ↔ first ≤ n ∧ n ≤ last := by
  rw [contains_encode_int htype hfirst hlast hn, DataType.toUInt64_le_iff, DataType.toUInt64_le_iff]
  simp only [Int64.le_iff_toInt_le, Int64.lt_iff_toInt_lt] at hsign ⊢
  omega

theorem not_contains_of_negative (hneg : first < 0) (hpos : 0 ≤ last) :
    ¬ SliceRange.contains ⟨lower, upper, limit⟩ raw = true := by
  rw [contains_encode_int htype hfirst hlast hn, DataType.toUInt64_le_iff, DataType.toUInt64_le_iff]
  simp only [Int64.le_iff_toInt_le, Int64.lt_iff_toInt_lt] at hneg hpos ⊢
  omega

theorem contains_of_turned (hpos : 0 ≤ first) (hneg : last < 0) :
    SliceRange.contains ⟨lower, upper, limit⟩ raw = true ↔ first ≤ n ∨ n ≤ last := by
  rw [contains_encode_int htype hfirst hlast hn, DataType.toUInt64_le_iff, DataType.toUInt64_le_iff]
  simp only [Int64.le_iff_toInt_le, Int64.lt_iff_toInt_lt] at hneg hpos ⊢
  omega

end Bounds

end SliceRange

/-- Where none that passes comes after one that does not, a list is chosen from in two parts. -/
theorem filter_eq_append {α : Type} {list : List α} {passes : α → Bool}
    (hpasses : list.Pairwise fun a b => passes b = true → passes a = true) (keep : α → Bool) :
    list.filter keep =
      list.filter (fun a => keep a && passes a) ++ list.filter (fun a => keep a && !passes a) := by
  induction hpasses with
  | nil => rfl
  | @cons a rest hrest _ ih =>
      cases ha : passes a with
      | true => cases hkeep : keep a <;> simp [ha, hkeep, ih]
      | false =>
          -- Nothing after an element that does not pass does.
          have hnone : rest.filter (fun b => keep b && passes b) = [] := by
            refine List.filter_eq_nil_iff.mpr fun b hb hpass => ?_
            rw [hrest b hb (Bool.and_eq_true_iff.mp hpass).2] at ha
            cases ha
          rw [hnone] at ih
          cases hkeep : keep a <;> simp [ha, hkeep, hnone, ih]

/-- Whether bytes hold a number that is not negative. -/
def DataType.readsNatural (type : DataType) (raw : Bytes) : Bool :=
  match type.decode raw with
  | .ok (.int n) => 0 ≤ n
  | _ => false

theorem DataType.readsNatural_eq_decide (hdecode : type.decode raw = .ok (.int n)) :
    type.readsNatural raw = decide (0 ≤ n) := by
  rw [readsNatural, hdecode]

namespace Attempt

variable {attempt : Attempt Storage} {target : TableName} {rowkey : Bytes} {limit : Nat}

/-- The live columns of a row whose names are numbers with a property, in the ascending order
of these numbers. -/
structure Numbers (attempt : Attempt Storage) (target : TableName) (rowkey : Bytes)
    (type : DataType) (keep : Int64 → Prop) (cells : List Cell) : Prop where
  mem_iff (cell : Cell) : cell ∈ cells ↔
    attempt.before.engine.store.cell? target rowkey cell.name = some cell ∧
      cell.isLive attempt.before.clock.next = true ∧
      ∃ n, type.decode cell.name = .ok (.int n) ∧ keep n
  ascending : cells.Pairwise fun a b =>
    ∀ m n, type.decode a.name = .ok (.int m) → type.decode b.name = .ok (.int n) → m < n

section Row

variable (hkeyed : TableStore.Keyed attempt.before.engine.store.contents.cells)
  (htype : type.holdsInt = true)
include hkeyed htype

/-- The numbers that the names of a row hold ascend, once they are read without their sign. -/
theorem pairwise_numbers (target : TableName) (rowkey : Bytes) :
    (attempt.liveRow target rowkey).Pairwise fun a b =>
      ∀ m n, type.decode a.name = .ok (.int m) → type.decode b.name = .ok (.int n) →
        m.toUInt64 < n.toUInt64 := by
  refine (Storage.pairwise_liveRow hkeyed target rowkey _).imp fun hlt m n hm hn => ?_
  rw [DataType.decode_eq_int_iff htype] at hm hn
  rw [DataType.compare_encode_int htype hm hn, Std.compare_eq_lt] at hlt
  exact hlt

variable (hnames : ∀ cell ∈ attempt.liveRow target rowkey,
  ∃ n, type.decode cell.name = .ok (.int n))
include hnames

/-- Columns that are chosen by their numbers ascend, if these are of one sign. -/
theorem numbers_filter {keep : Int64 → Prop} (hsign : ∀ m n, keep m → keep n → (0 ≤ m ↔ 0 ≤ n))
    {chosen : Cell → Bool}
    (hchosen : ∀ cell n, type.decode cell.name = .ok (.int n) → (chosen cell = true ↔ keep n)) :
    attempt.Numbers target rowkey type keep ((attempt.liveRow target rowkey).filter chosen) where
  mem_iff cell := by
    rw [List.mem_filter]
    constructor
    · rintro ⟨hcell, hpass⟩
      obtain ⟨n, hn⟩ := hnames cell hcell
      obtain ⟨hfound, hlive⟩ := (Storage.mem_liveRow hkeyed).mp hcell
      exact ⟨hfound, hlive, n, hn, (hchosen cell n hn).mp hpass⟩
    · rintro ⟨hfound, hlive, n, hn, hkeep⟩
      exact ⟨(Storage.mem_liveRow hkeyed).mpr ⟨hfound, hlive⟩, (hchosen cell n hn).mpr hkeep⟩
  ascending := by
    refine ((pairwise_numbers hkeyed htype target rowkey).filter chosen).imp_of_mem ?_
    intro a b ha hb hascending m n hm hn
    have hkeep := (hchosen a m hm).mp (List.mem_filter.mp ha).2
    have hkeep' := (hchosen b n hn).mp (List.mem_filter.mp hb).2
    -- Without signs the names ascend, which among numbers of one sign is their own order.
    rcases DataType.toUInt64_lt_iff.mp (hascending m n hm hn) with ⟨hpos, hneg⟩ | ⟨-, hlt⟩
    · exact absurd ((hsign m n hkeep hkeep').mp hpos) (Int64.not_le.mpr hneg)
    · exact hlt

/-- Columns with numbers that are not negative come before those with negative ones. -/
theorem filter_by_sign (keep : Cell → Bool) :
    (attempt.liveRow target rowkey).filter keep =
      (attempt.liveRow target rowkey).filter
          (fun cell => keep cell && type.readsNatural cell.name) ++
        (attempt.liveRow target rowkey).filter
          (fun cell => keep cell && !type.readsNatural cell.name) := by
  refine filter_eq_append ((pairwise_numbers hkeyed htype target rowkey).imp_of_mem ?_) keep
  intro a b ha hb hascending hpass
  obtain ⟨m, hm⟩ := hnames a ha
  obtain ⟨n, hn⟩ := hnames b hb
  rw [DataType.readsNatural_eq_decide hn, decide_eq_true_iff] at hpass
  rw [DataType.readsNatural_eq_decide hm, decide_eq_true_iff]
  rcases DataType.toUInt64_lt_iff.mp (hascending m n hm hn) with ⟨hpos, -⟩ | ⟨hsign, -⟩
  · exact hpos
  · exact hsign.mpr hpass

/-- Columns with the numbers from one on that is not negative, or up to a negative one, are
ascending in two parts. -/
theorem exists_numbers_turned (hpos : 0 ≤ first) (hneg : last < 0) {chosen : Cell → Bool}
    (hchosen : ∀ cell n, type.decode cell.name = .ok (.int n) →
      (chosen cell = true ↔ first ≤ n ∨ n ≤ last)) :
    ∃ upper lower, (attempt.liveRow target rowkey).filter chosen = upper ++ lower ∧
      attempt.Numbers target rowkey type (fun n => first ≤ n) upper ∧
      attempt.Numbers target rowkey type (fun n => n ≤ last) lower := by
  refine ⟨_, _, filter_by_sign hkeyed htype hnames chosen, ?_, ?_⟩
  · refine numbers_filter hkeyed htype hnames (fun m n hm hn => ?_) fun cell n hn => ?_
    · exact iff_of_true (Int64.le_trans hpos hm) (Int64.le_trans hpos hn)
    · rw [Bool.and_eq_true, hchosen cell n hn, DataType.readsNatural_eq_decide hn,
        decide_eq_true_iff]
      simp only [Int64.le_iff_toInt_le, Int64.lt_iff_toInt_lt] at hpos hneg ⊢
      omega
  · refine numbers_filter hkeyed htype hnames (fun m n hm hn => ?_) fun cell n hn => ?_
    · have hnegative {k : Int64} (hk : k ≤ last) : ¬ 0 ≤ k :=
        fun hle => Int64.not_lt.mpr (Int64.le_trans hle hk) hneg
      exact iff_of_false (hnegative hm) (hnegative hn)
    · rw [Bool.and_eq_true, hchosen cell n hn, DataType.readsNatural_eq_decide hn,
        Bool.not_eq_true', decide_eq_false_iff_not]
      simp only [Int64.le_iff_toInt_le, Int64.lt_iff_toInt_lt] at hpos hneg ⊢
      omega

end Row

/-! ## Slices of at most two columns -/

/-- A slice of at most two columns of a row, whose columns are named by numbers of eight bytes. -/
def sliceOfTwo (names : List Int64) (first last : Int64) : Attempt Storage :=
  let column (n : Int64) : CellRow := ⟨⟨"ks", "t"⟩, [7], Bytes.ofInt64 n, [1], 0, none⟩
  let store : TableStore :=
    { keyspaces := [⟨"ks", 1⟩], tables := [⟨"ks", "t"⟩], cells := names.map column }
  let session : Session := Session.assume
    { defaults := { keyspace := some "ks", table := some "t", consistency := .one } }
    "ks" "t" .name .long
  let row : Operation := Operation.literal { kind := .slice } "rowkey" (.bytes [7])
  let bounded := (row.literal "start" (.int first)).literal "end" (.int last)
  let slice := bounded.literal "limit" (.int 2)
  let world : World Storage := ⟨{ store := .tables store }, { readings := fun _ => 0 }⟩
  attemptOf (runChain 0) [] none slice [] session world

section SliceOfTwo

variable (names : List Int64) (first last : Int64)

theorem showsAll_sliceOfTwo : (sliceOfTwo names first last).session.ShowsAll := ⟨rfl, rfl⟩

theorem nameType_sliceOfTwo :
    (sliceOfTwo names first last).session.nameType ⟨"ks", "t"⟩ = some .long := rfl

theorem names_sliceOfTwo : ∀ cell ∈ (sliceOfTwo names first last).liveRow ⟨"ks", "t"⟩ [7],
    ∃ n ∈ names, DataType.long.encode (.int n) = .ok cell.name := by
  intro cell hcell
  obtain ⟨n, hn, hcolumn⟩ := List.mem_map.mp (Storage.mem_liveRow_iff_mem.mp hcell).1
  cases hcolumn
  exact ⟨n, hn, rfl⟩

theorem values_sliceOfTwo (cell : Cell) :
    ∃ value, decode cell.value
      ((sliceOfTwo names first last).session.assumed "ks" "t" .value) = .ok value :=
  ⟨.bytes cell.value, rfl⟩

theorem slices_sliceOfTwo
    (hkeyed : TableStore.Keyed (sliceOfTwo names first last).before.engine.store.contents.cells) :
    (sliceOfTwo names first last).Slices ⟨"ks", "t"⟩ [7] (some (.int first)) (some (.int last))
      2 := by
  refine slices_of_unpaused rfl rfl rfl ⟨⟨_, rfl, rfl⟩, rfl, rfl, some 2, rfl, rfl⟩ rfl rfl hkeyed
    rfl rfl rfl (by decide : (10000 : UInt64) ≠ 0) ⟨rfl, rfl⟩ fun cell hcell => ?_
  obtain ⟨n, -, hn⟩ := names_sliceOfTwo names first last cell hcell
  obtain ⟨value, hvalue⟩ := values_sliceOfTwo names first last cell
  exact ⟨_, Session.decodeCell_of_decode ((DataType.decode_eq_int_iff rfl).mpr hn) hvalue⟩

end SliceOfTwo

/-! ## Slices between whole numbers -/

/-- A slice between two whole numbers answers the first columns, up to its limit, of those with
the numbers between its bounds in ascending order, if the bounds have one sign. From a negative
number to one that is not negative there are none, and from one that is not negative to a
negative one they are those with the numbers from the first on, and after them those with the
numbers up to the last. -/
theorem ending_between_numbers
    (hkeyed : TableStore.Keyed attempt.before.engine.store.contents.cells)
    (hslices : attempt.Slices target rowkey (some (.int first)) (some (.int last)) limit)
    (htype : attempt.session.nameType target = some type)
    (hfirst : type.Holds (.int first)) (hlast : type.Holds (.int last))
    (hnames : ∀ cell ∈ attempt.liveRow target rowkey,
      ∃ n, type.encode (.int n) = .ok cell.name) :
    ∃ cells,
      attempt.ending =
        ((attempt.session.finish attempt.before.engine.registry target
          (cells.take limit)).mapError .failed).map (fun record => .next record attempt.session) ∧
      (attempt.session.ShowsAll →
        (∀ cell ∈ cells.take limit, ∃ value, decode cell.value
          (attempt.session.assumed target.keyspace target.table .value) = .ok value) →
        ∃ rows, attempt.session.Reads target (cells.take limit) rows ∧
          attempt.ending = .ok (.next (.rows rows) attempt.session)) ∧
      ((0 ≤ first ↔ 0 ≤ last) →
        attempt.Numbers target rowkey type (fun n => first ≤ n ∧ n ≤ last) cells) ∧
      (first < 0 → 0 ≤ last → cells = []) ∧
      (0 ≤ first → last < 0 → ∃ upper lower, cells = upper ++ lower ∧
        attempt.Numbers target rowkey type (fun n => first ≤ n) upper ∧
        attempt.Numbers target rowkey type (fun n => n ≤ last) lower) := by
  have hint : type.holdsInt = true := by cases hfirst <;> rfl
  have hbound {n : Int64} : attempt.session.bound target (some (.int n)) = type.encode (.int n) :=
    Session.encodeName_of_nameType htype (.int n)
  have hnumbers : ∀ cell ∈ attempt.liveRow target rowkey,
      ∃ n, type.decode cell.name = .ok (.int n) := by
    intro cell hcell
    obtain ⟨n, hn⟩ := hnames cell hcell
    exact ⟨n, (DataType.decode_eq_int_iff hint).mpr hn⟩
  obtain ⟨lower, hlower⟩ := hfirst.exists_encode
  obtain ⟨upper, hupper⟩ := hlast.exists_encode
  refine ⟨(attempt.liveRow target rowkey).filter fun cell =>
    SliceRange.contains ⟨lower, upper, limit⟩ cell.name, ?_, ?_, ?_, ?_, ?_⟩
  · exact ending_of_slices hslices hkeyed (hbound.trans hlower) (hbound.trans hupper)
  · intro hall hvalues
    have hread : ∀ cell ∈ attempt.sliced target rowkey ⟨lower, upper, limit⟩,
        ∃ name, decode cell.name (attempt.session.nameType target) = .ok name := by
      intro cell hcell
      obtain ⟨n, hn⟩ := hnumbers cell (List.mem_of_mem_filter (List.mem_of_mem_take hcell))
      rw [htype]
      exact ⟨_, hn⟩
    obtain ⟨rows, hrows⟩ := Session.exists_reads_of_decode hread hvalues
    exact ⟨rows, hrows, ending_of_showsAll hslices hkeyed (hbound.trans hlower)
      (hbound.trans hupper) hall hrows⟩
  · intro hsign
    refine numbers_filter hkeyed hint hnumbers (fun m n hm hn => ?_) fun cell n hn => ?_
    · simp only [Int64.le_iff_toInt_le] at hsign hm hn ⊢
      omega
    · exact SliceRange.contains_of_one_sign hint hlower hupper
        ((DataType.decode_eq_int_iff hint).mp hn) limit hsign
  · intro hneg hpos
    refine List.filter_eq_nil_iff.mpr fun cell hcell => ?_
    obtain ⟨n, hn⟩ := hnames cell hcell
    exact SliceRange.not_contains_of_negative hint hlower hupper hn limit hneg hpos
  · intro hpos hneg
    exact exists_numbers_turned hkeyed hint hnumbers hpos hneg fun cell n hn =>
      SliceRange.contains_of_turned hint hlower hupper ((DataType.decode_eq_int_iff hint).mp hn)
        limit hpos hneg

/-- Three of four columns have numbers between the bounds, and the limit leaves two of them. -/
theorem ending_between_numbers_positive :
    let attempt := sliceOfTwo [7, -1, 5, 3] 1 9
    ∃ cells rows,
      attempt.Numbers ⟨"ks", "t"⟩ [7] .long (fun n => 1 ≤ n ∧ n ≤ 9) cells ∧
      attempt.session.Reads ⟨"ks", "t"⟩ (cells.take 2) rows ∧
      attempt.ending = .ok (.next (.rows rows) attempt.session) := by
  intro attempt
  have hkeyed : TableStore.Keyed attempt.before.engine.store.contents.cells := by
    change List.Pairwise _ _
    decide
  obtain ⟨cells, -, hrows, hnumbers, -, -⟩ := ending_between_numbers hkeyed
    (slices_sliceOfTwo _ _ _ hkeyed) (nameType_sliceOfTwo ..) (.long 1) (.long 9)
    fun cell hcell => (names_sliceOfTwo _ _ _ cell hcell).imp fun _ hn => hn.2
  obtain ⟨rows, hreads, hending⟩ := hrows (showsAll_sliceOfTwo ..)
    fun cell _ => values_sliceOfTwo _ _ _ cell
  exact ⟨cells, rows, hnumbers (by decide), hreads, hending⟩

/-- From a negative number to one that is not negative nothing is found, not even what lies
between them. -/
theorem not_ending_between_numbers :
    ¬ ∀ (attempt : Attempt Storage) (target : TableName) (rowkey : Bytes) (type : DataType)
        (first last : Int64) (limit : Nat),
      TableStore.Keyed attempt.before.engine.store.contents.cells →
      attempt.Slices target rowkey (some (.int first)) (some (.int last)) limit →
      attempt.session.nameType target = some type →
      type.Holds (.int first) → type.Holds (.int last) →
      (∀ cell ∈ attempt.liveRow target rowkey, ∃ n, type.encode (.int n) = .ok cell.name) →
      attempt.session.ShowsAll →
      (∀ cell ∈ attempt.liveRow target rowkey, ∃ value, decode cell.value
        (attempt.session.assumed target.keyspace target.table .value) = .ok value) →
      ∃ cells rows,
        attempt.Numbers target rowkey type (fun n => first ≤ n ∧ n ≤ last) cells ∧
        attempt.session.Reads target (cells.take limit) rows ∧
        attempt.ending = .ok (.next (.rows rows) attempt.session) := by
  intro hall
  have hkeyed : TableStore.Keyed
      (sliceOfTwo [-1, 0, 1] (-1) 1).before.engine.store.contents.cells := by
    change List.Pairwise _ _
    decide
  have hslices := slices_sliceOfTwo [-1, 0, 1] (-1) 1 hkeyed
  have hshows := showsAll_sliceOfTwo [-1, 0, 1] (-1) 1
  have hnames := names_sliceOfTwo [-1, 0, 1] (-1) 1
  obtain ⟨cells, rows, hnumbers, hreads, hending⟩ := hall _ _ _ _ _ _ _ hkeyed hslices
    (nameType_sliceOfTwo ..) (.long (-1)) (.long 1)
    (fun cell hcell => (hnames cell hcell).imp fun _ hn => hn.2) hshows
    fun cell _ => values_sliceOfTwo _ _ _ cell
  have hnone : (sliceOfTwo [-1, 0, 1] (-1) 1).sliced ⟨"ks", "t"⟩ [7]
      ⟨Bytes.ofInt64 (-1), Bytes.ofInt64 1, 2⟩ = [] := by
    rw [sliced, List.filter_eq_nil_iff.mpr, List.take_nil]
    intro cell hcell
    obtain ⟨n, -, hn⟩ := hnames cell hcell
    exact SliceRange.not_contains_of_negative rfl rfl rfl hn 2 (by decide) (by decide)
  have hreads' : (sliceOfTwo [-1, 0, 1] (-1) 1).session.Reads ⟨"ks", "t"⟩
      ((sliceOfTwo [-1, 0, 1] (-1) 1).sliced ⟨"ks", "t"⟩ [7]
        ⟨Bytes.ofInt64 (-1), Bytes.ofInt64 1, 2⟩) [] := by
    rw [hnone]
    exact .nil
  rw [ending_of_showsAll hslices hkeyed rfl rfl hshows hreads'] at hending
  cases hending
  have hcells : cells.take 2 = [] := List.forall₂_nil_right_iff.mp hreads
  have hzero : (⟨Bytes.ofInt64 0, [1], 0, none⟩ : Cell) ∈ cells :=
    (hnumbers.mem_iff _).mpr ⟨rfl, rfl, 0, rfl, by decide, by decide⟩
  cases cells with
  | nil => cases hzero
  | cons => cases hcells

end Attempt

end OperationChain
