import OperationChain.Results

/-! # Slots by index

Every access to the results of a chain in terms of the slot at an index, and what
the slots show in an answer: the executed ones, in order, each under its index.
-/

namespace OperationChain.Results

/-! ## Single slots -/

theorem slot_eq_ok_iff {results : Results} {index : Int} {place : Nat} {slot : Slot} :
    results.slot index = .ok (place, slot) ↔ index = place ∧ results.slots[place]? = some slot := by
  unfold Results.slot
  split
  next hsign =>
    split
    next found hfound =>
      constructor
      · intro heq
        cases heq
        exact ⟨by omega, hfound⟩
      · rintro ⟨rfl, hslot⟩
        simp only [Int.toNat_natCast] at hfound ⊢
        rw [hslot] at hfound
        cases hfound
        rfl
    next hfound =>
      constructor
      · intro heq
        cases heq
      · rintro ⟨rfl, hslot⟩
        rw [Int.toNat_natCast, hslot] at hfound
        cases hfound
  next hsign =>
    constructor
    · intro heq
      cases heq
    · rintro ⟨rfl, _⟩
      omega

/-- Reading succeeds at the captured slots and nowhere else. -/
theorem get_eq_ok_iff {results : Results} {index : Int} {record : Record} :
    results.get index = .ok record ↔
      ∃ place : Nat, index = place ∧ results.slots[place]? = some (.captured record) := by
  constructor
  · intro hget
    unfold Results.get at hget
    split at hget
    next place found hslot =>
      cases hget
      exact ⟨place, slot_eq_ok_iff.mp hslot⟩
    all_goals cases hget
  · rintro ⟨place, hplace⟩
    unfold Results.get
    rw [slot_eq_ok_iff.mpr hplace]

theorem clear_eq_ok {results after : Results} {index : Int}
    (hclear : results.clear index = .ok after) :
    ∃ place : Nat, index = place ∧ place < results.slots.length ∧
      after = ⟨results.slots.set place .cleared⟩ := by
  unfold Results.clear at hclear
  split at hclear
  · cases hclear
  next place slot _ hslot =>
    cases hclear
    obtain ⟨hindex, hplace⟩ := slot_eq_ok_iff.mp hslot
    exact ⟨place, hindex, (List.getElem?_eq_some_iff.mp hplace).1, rfl⟩
  · cases hclear

/-- A slot that is still pending cannot be cleared. -/
theorem clear_ne_ok_of_pending {results after : Results} {place : Nat}
    (hpending : results.slots[place]? = some .pending) : results.clear place ≠ .ok after := by
  unfold Results.clear
  rw [slot_eq_ok_iff.mpr ⟨rfl, hpending⟩]
  intro heq
  cases heq

theorem slots_capture {results : Results} {index : Nat} (record : Record)
    (hindex : index < results.slots.length) :
    (results.capture index record).slots = results.slots.set index (.captured record) := by
  have hmissing : index + 1 - results.length = 0 := by
    unfold Results.length
    omega
  simp only [Results.capture, hmissing, List.replicate_zero, List.append_nil]

theorem slots_ofLength (length : Nat) :
    (Results.ofLength length).slots = List.replicate length .pending := rfl

/-! ## Places beyond the last slot -/

/-- The slot at a place; beyond the last one nothing was executed. -/
def slotAt (results : Results) (place : Nat) : Slot := results.slots[place]?.getD .pending

section Places

variable {results : Results} {place : Nat}

theorem slotAt_ofLength (length place : Nat) : (ofLength length).slotAt place = .pending := by
  simp only [slotAt, slots_ofLength, List.getElem?_replicate]
  split <;> rfl

theorem slotAt_eq_captured_iff {record : Record} :
    results.slotAt place = .captured record ↔ results.slots[place]? = some (.captured record) := by
  unfold slotAt
  cases results.slots[place]? with
  | none => constructor <;> rintro ⟨⟩
  | some slot => simp

theorem lt_length_of_executed (hexecuted : results.slotAt place ≠ .pending) :
    place < results.slots.length := by
  refine Nat.lt_of_not_le fun hbeyond => hexecuted ?_
  rw [slotAt, List.getElem?_eq_none hbeyond, Option.getD_none]

theorem slotAt_set (hplace : place < results.slots.length) (slot : Slot) (i : Nat) :
    slotAt ⟨results.slots.set place slot⟩ i = if i = place then slot else results.slotAt i := by
  unfold slotAt
  by_cases hi : i = place
  · simp [hi, hplace]
  · simp [hi, List.getElem?_set_ne (Ne.symm hi)]

theorem slotAt_capture (results : Results) (index : Nat) (record : Record) (i : Nat) :
    (results.capture index record).slotAt i =
      if i = index then .captured record else results.slotAt i := by
  let padded : Results :=
    ⟨results.slots ++ List.replicate (index + 1 - results.length) Slot.pending⟩
  have hlength : index < padded.slots.length := by
    simp only [padded, length, List.length_append, List.length_replicate]
    omega
  -- What is added before the new slot is pending, as it was when it was not there.
  have hpadded : padded.slotAt i = results.slotAt i := by
    unfold slotAt
    rw [List.getElem?_append]
    split
    · rfl
    next hbeyond =>
      rw [List.getElem?_eq_none (Nat.le_of_not_lt hbeyond), List.getElem?_replicate]
      split <;> rfl
  rw [← hpadded]
  exact slotAt_set hlength _ i

theorem slot_of_lt (hplace : place < results.length) :
    results.slot place = .ok (place, results.slotAt place) := by
  rw [slot_eq_ok_iff, slotAt, List.getElem?_eq_getElem hplace, Option.getD_some]
  exact ⟨rfl, rfl⟩

theorem clear_eq_ok_iff {index : Int} {after : Results} :
    results.clear index = .ok after ↔ ∃ place : Nat, index = place ∧
      results.slotAt place ≠ .pending ∧ after = ⟨results.slots.set place .cleared⟩ := by
  constructor
  · intro hclear
    obtain ⟨place, rfl, hplace, hafter⟩ := clear_eq_ok hclear
    refine ⟨place, rfl, fun hpending => ?_, hafter⟩
    rw [slotAt, List.getElem?_eq_getElem hplace, Option.getD_some] at hpending
    exact clear_ne_ok_of_pending (List.getElem?_eq_some_iff.mpr ⟨hplace, hpending⟩) hclear
  · rintro ⟨place, rfl, hexecuted, rfl⟩
    unfold clear
    rw [slot_of_lt (lt_length_of_executed hexecuted)]
    cases hslot : results.slotAt place with
    | pending => exact absurd hslot hexecuted
    | captured record => rfl
    | cleared => rfl

theorem length_capture (results : Results) (index : Nat) (record : Record) :
    (results.capture index record).length = max results.length (index + 1) := by
  simp only [length, capture, List.length_set, List.length_append, List.length_replicate]
  omega

theorem slot_of_outside {index : Int} (houtside : ¬ (0 ≤ index ∧ index < results.length)) :
    results.slot index = .error (.reference (.outOfRange index results.length)) := by
  unfold slot
  split
  next hsign =>
    have hbeyond : results.slots.length ≤ index.toNat := by
      unfold length at houtside
      omega
    rw [List.getElem?_eq_none hbeyond]
  next => rfl

theorem get_natCast_eq_ok_iff {record : Record} :
    results.get place = .ok record ↔ results.slotAt place = .captured record := by
  rw [get_eq_ok_iff, slotAt_eq_captured_iff]
  constructor
  · rintro ⟨same, hsame, hslot⟩
    rwa [Int.ofNat_inj.mp hsame]
  · exact fun hslot => ⟨place, rfl, hslot⟩

theorem refused_of_outside {index : Int} (houtside : ¬ (0 ≤ index ∧ index < results.length)) :
    results.get index = .error (.reference (.outOfRange index results.length)) ∧
      results.clear index = .error (.reference (.outOfRange index results.length)) := by
  constructor
  · rw [get, slot_of_outside houtside]
  · rw [clear, slot_of_outside houtside]

theorem refused_of_pending (hplace : place < results.length)
    (hpending : results.slotAt place = .pending) :
    results.get place = .error (.reference (.pending place)) ∧
      results.clear place = .error (.reference (.pendingClear place)) := by
  constructor
  · rw [get, slot_of_lt hplace, hpending]
  · rw [clear, slot_of_lt hplace, hpending]

theorem get_of_cleared (hcleared : results.slotAt place = .cleared) :
    results.get place = .error (.reference (.cleared place)) := by
  have hplace : place < results.length :=
    lt_length_of_executed (by rw [hcleared]; rintro ⟨⟩)
  rw [get, slot_of_lt hplace, hcleared]

end Places

/-! ## Answers -/

theorem mem_collectFrom {α : Type} {read : Slot → Option α} {first place : Nat} {found : α}
    {slots : List Slot} :
    (place, found) ∈ collectFrom read first slots ↔
      first ≤ place ∧ slots[place - first]?.bind read = some found := by
  induction slots generalizing first with
  | nil => simp [collectFrom]
  | cons slot rest ih =>
      have htail : (place, found) ∈ collectFrom read (first + 1) rest ↔
          first < place ∧ (slot :: rest)[place - first]?.bind read = some found := by
        rw [ih]
        constructor
        · rintro ⟨hplace, hfound⟩
          refine ⟨hplace, ?_⟩
          rwa [show place - first = place - (first + 1) + 1 by omega]
        · rintro ⟨hplace, hfound⟩
          refine ⟨hplace, ?_⟩
          rwa [show place - first = place - (first + 1) + 1 by omega] at hfound
      rw [collectFrom]
      cases hread : read slot with
      | none =>
          dsimp only
          rw [htail]
          constructor
          · exact fun h => ⟨Nat.le_of_lt h.1, h.2⟩
          · rintro ⟨hplace, hfound⟩
            refine ⟨Nat.lt_of_le_of_ne hplace ?_, hfound⟩
            rintro rfl
            simp [hread] at hfound
      | some value =>
          dsimp only
          rw [List.mem_cons, htail]
          constructor
          · rintro (heq | h)
            · cases heq
              simp [hread]
            · exact ⟨Nat.le_of_lt h.1, h.2⟩
          · rintro ⟨hplace, hfound⟩
            rcases Nat.eq_or_lt_of_le hplace with rfl | hlt
            · simp only [Nat.sub_self, List.getElem?_cons_zero, Option.bind_some, hread,
                Option.some.injEq] at hfound
              exact .inl (by rw [hfound])
            · exact .inr ⟨hlt, hfound⟩

/-- What is listed stands under its place, if pending slots show nothing. -/
theorem mem_collectFrom_zero {α : Type} {read : Slot → Option α} (hpending : read .pending = none)
    {results : Results} {place : Nat} {found : α} :
    (place, found) ∈ collectFrom read 0 results.slots ↔
      read (results.slotAt place) = some found := by
  rw [mem_collectFrom, slotAt, and_iff_right (Nat.zero_le place), Nat.sub_zero]
  cases results.slots[place]? with
  | none => rw [Option.bind_none, Option.getD_none, hpending]
  | some slot => rw [Option.bind_some, Option.getD_some]

theorem mem_rowLists {results : Results} {place : Nat} {rows : List Row} :
    (place, rows) ∈ results.rowLists ↔ results.slotAt place = .captured (.rows rows) := by
  rw [rowLists, mem_collectFrom_zero rfl]
  cases results.slotAt place with
  | pending => simp [Slot.rows?]
  | cleared => simp [Slot.rows?]
  | captured record => cases record <;> simp [Slot.rows?]

/-- An answer shows what was captured, and no rows where that was cleared. -/
theorem mem_answers {results : Results} {place : Nat} {record : Record} :
    (place, record) ∈ results.answers ↔
      results.slotAt place = .captured record ∨
        results.slotAt place = .cleared ∧ record = .rows [] := by
  rw [answers, mem_collectFrom_zero rfl]
  cases results.slotAt place with
  | pending => simp [Slot.answer?]
  | cleared => simp [Slot.answer?, eq_comm]
  | captured found => simp [Slot.answer?]

theorem mem_keys_answers {results : Results} {place : Nat} :
    place ∈ results.answers.map (·.1) ↔ results.slotAt place ≠ .pending := by
  constructor
  · intro hplace hpending
    obtain ⟨entry, hentry, rfl⟩ := List.mem_map.mp hplace
    have hshown := mem_answers.mp hentry
    simp [hpending] at hshown
  · intro hexecuted
    have hshown : ∃ record, (place, record) ∈ results.answers := by
      simp only [mem_answers]
      cases hslot : results.slotAt place with
      | pending => exact absurd hslot hexecuted
      | cleared => exact ⟨_, .inr ⟨rfl, rfl⟩⟩
      | captured record => exact ⟨record, .inl rfl⟩
    obtain ⟨record, hrecord⟩ := hshown
    exact List.mem_map.mpr ⟨_, hrecord, rfl⟩

/-- What is listed is in the order of the places. -/
theorem pairwise_collectFrom {α : Type} (read : Slot → Option α) (first : Nat)
    (slots : List Slot) : ((collectFrom read first slots).map (·.1)).Pairwise (· < ·) := by
  induction slots generalizing first with
  | nil => exact .nil
  | cons slot rest ih =>
      rw [collectFrom]
      split
      next found hfound =>
        rw [List.map_cons, List.pairwise_cons]
        refine ⟨?_, ih (first + 1)⟩
        intro place hplace
        obtain ⟨entry, hentry, rfl⟩ := List.mem_map.mp hplace
        exact (mem_collectFrom.mp hentry).1
      next hnothing => exact ih (first + 1)

/-- Where exactly the first `count` slots show something, they are listed under
consecutive indices. -/
theorem keys_collectFrom {α : Type} {read : Slot → Option α} {slots : List Slot} (count first : Nat)
    (hcount : ∀ place, (slots[place]?.bind read).isSome ↔ place < count) :
    (collectFrom read first slots).map (·.1) = List.range' first count := by
  induction slots generalizing count first with
  | nil =>
      have hzero : count = 0 := by
        have := hcount 0
        simp only [List.getElem?_nil, Option.bind_none, Option.isSome_none, Bool.false_eq_true,
          false_iff] at this
        omega
      simp [collectFrom, hzero]
  | cons slot rest ih =>
      have hhead := hcount 0
      simp only [List.getElem?_cons_zero, Option.bind_some] at hhead
      have htail : ∀ place, (rest[place]?.bind read).isSome ↔ place < count - 1 := by
        intro place
        have := hcount (place + 1)
        rw [List.getElem?_cons_succ] at this
        rw [this]
        omega
      rw [collectFrom]
      cases hread : read slot with
      | none =>
          -- A head that shows nothing leaves nothing to show behind it.
          have hzero : count = 0 := by
            simp only [hread, Option.isSome_none, Bool.false_eq_true, false_iff] at hhead
            omega
          dsimp only
          rw [ih (count - 1) (first + 1) htail, hzero]
          rfl
      | some value =>
          have hpos : 0 < count := by
            simpa only [hread, Option.isSome_some, true_iff] using hhead
          dsimp only
          rw [List.map_cons, ih (count - 1) (first + 1) htail]
          obtain ⟨fewer, rfl⟩ := Nat.exists_eq_succ_of_ne_zero (Nat.ne_of_gt hpos)
          rfl

end OperationChain.Results
