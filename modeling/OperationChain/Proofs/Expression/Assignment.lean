import OperationChain.Extension.Loader
import OperationChain.Proofs.Except
import OperationChain.Proofs.Value.Whole

/-! # Assignments

A processor that is compiled from assignments reads every row before it sets any component of
it: each component then holds what the last assignment to it gives on the row as it was. A
timestamp or a time to live that is given something else than a whole number, or than one in
range, is refused, also where a later assignment would override it, and the first refusal ends
the whole process. The exception are timestamps out of range, which are held to it.
-/

namespace OperationChain

/-! ## One component -/

namespace Component

/-- What a component holds once it was given a value. A timestamp out of range is held to it. -/
inductive Holds : Component → Value → Option Value → Prop where
  | name (v : Value) : Holds .name v (some v)
  | value (v : Value) : Holds .value v (some v)
  | timestamp {v : Value} {n : Int} {m : Int64} (hwhole : v.IsWhole n)
      (hm : m.toInt = max (-0x8000000000000000) (min n 0x7FFFFFFFFFFFFFFF)) :
      Holds .timestamp v (some (.int m))
  | ttl {v : Value} {n : Int} {m : Int64} (hwhole : v.IsWhole n)
      (hrange : 0 ≤ n ∧ n < 0x100000000) (hm : m.toInt = n) : Holds .ttl v (some (.int m))

/-- What error a component refuses a value with. -/
inductive Refuses : Component → Value → Error → Prop where
  | timestamp {v : Value} (hwhole : ∀ n, ¬ v.IsWhole n) :
      Refuses .timestamp v (.validation (.timestampNotInteger v.shape))
  | ttl {v : Value} (hwhole : ∀ n, v.IsWhole n → ¬ (0 ≤ n ∧ n < 0x100000000)) :
      Refuses .ttl v (.validation (.ttlNotNatural v.display))

end Component

namespace Row

variable {row row' : Row} {component : Component} {v : Value} {e : Error}

theorem setComponent_eq_error_iff :
    row.setComponent component v = .error e ↔ component.Refuses v e := by
  unfold setComponent
  cases component with
  | name => constructor <;> rintro ⟨⟩
  | value => constructor <;> rintro ⟨⟩
  | timestamp =>
      dsimp only
      split
      next n hint =>
        constructor
        · rintro ⟨⟩
        · intro hrefuses
          cases hrefuses with
          | timestamp hwhole =>
              rw [Value.int?_eq_none_iff.mpr hwhole] at hint
              cases hint
      next hint =>
        constructor
        · rintro ⟨⟩
          exact .timestamp (Value.int?_eq_none_iff.mp hint)
        · rintro ⟨_⟩
          rfl
  | ttl =>
      dsimp only
      split
      next seconds hseconds =>
        constructor
        · rintro ⟨⟩
        · intro hrefuses
          cases hrefuses with
          | ttl hwhole =>
              rw [Value.seconds?_eq_none_iff.mpr hwhole] at hseconds
              cases hseconds
      next hseconds =>
        constructor
        · rintro ⟨⟩
          exact .ttl (Value.seconds?_eq_none_iff.mp hseconds)
        · rintro ⟨_⟩
          rfl

theorem setComponent_cases (hset : row.setComponent component v = .ok row') :
    (component = .name ∧ row' = { row with name := some v }) ∨
      (component = .value ∧ row' = { row with value := some v }) ∨
      (∃ m, component = .timestamp ∧ v.int? = some m ∧ row' = { row with timestamp := some m }) ∨
      ∃ seconds : UInt32, component = .ttl ∧ v.IsWhole seconds.toNat ∧
        row' = { row with ttl := some seconds } := by
  unfold setComponent at hset
  cases component with
  | name => exact .inl ⟨rfl, (Except.ok.inj hset).symm⟩
  | value => exact .inr (.inl ⟨rfl, (Except.ok.inj hset).symm⟩)
  | timestamp =>
      dsimp only at hset
      split at hset
      next m hint => exact .inr (.inr (.inl ⟨m, rfl, hint, (Except.ok.inj hset).symm⟩))
      next => cases hset
  | ttl =>
      dsimp only at hset
      split at hset
      next seconds hseconds =>
        exact .inr (.inr (.inr ⟨seconds, rfl, Value.seconds?_eq_some_iff.mp hseconds,
          (Except.ok.inj hset).symm⟩))
      next => cases hset

theorem holds_of_setComponent (hset : row.setComponent component v = .ok row') :
    component.Holds v (row'.component component) := by
  obtain ⟨rfl, rfl⟩ | ⟨rfl, rfl⟩ | ⟨m, rfl, hint, rfl⟩ | ⟨seconds, rfl, hwhole, rfl⟩ :=
    setComponent_cases hset
  · exact .name v
  · exact .value v
  · obtain ⟨n, hwhole, rfl⟩ := Value.int?_eq_some_iff.mp hint
    exact .timestamp hwhole (Value.toInt_clampInt64 n)
  · have hlt := seconds.toNat_lt
    exact .ttl hwhole (by omega) (Int64.toInt_ofInt_of_le (by omega) (by omega))

/-- Setting a component leaves the others as they are. -/
theorem component_of_setComponent (hset : row.setComponent component v = .ok row')
    {other : Component} (hother : other ≠ component) :
    row'.component other = row.component other := by
  obtain ⟨rfl, rfl⟩ | ⟨rfl, rfl⟩ | ⟨_, rfl, -, rfl⟩ | ⟨_, rfl, -, rfl⟩ := setComponent_cases hset
  all_goals cases other <;> first | rfl | exact absurd rfl hother

end Row

/-! ## Lists of assignments -/

section FirstError

variable {α : Type} {refuses : α → Error → Prop} {a : α} {items : List α} {e : Error}

/-- The error of the first of these items that has one. -/
def FirstError (refuses : α → Error → Prop) (items : List α) (e : Error) : Prop :=
  ∃ before a after, items = before ++ a :: after ∧
    (∀ b ∈ before, ∀ cause, ¬ refuses b cause) ∧ refuses a e

theorem not_firstError_nil : ¬ FirstError refuses [] e := by
  rintro ⟨before, a, after, hitems, -⟩
  simp at hitems

theorem firstError_cons : FirstError refuses (a :: items) e ↔
    refuses a e ∨ (∀ cause, ¬ refuses a cause) ∧ FirstError refuses items e := by
  constructor
  · rintro ⟨before, b, after, hitems, hbefore, hrefuses⟩
    cases before with
    | nil =>
        cases hitems
        exact .inl hrefuses
    | cons c before =>
        cases hitems
        refine .inr ⟨hbefore _ List.mem_cons_self, before, b, after, rfl, ?_, hrefuses⟩
        exact fun d hd => hbefore d (List.mem_cons_of_mem _ hd)
  · rintro (hrefuses | ⟨hnone, before, b, after, rfl, hbefore, hrefuses⟩)
    · exact ⟨[], a, items, rfl, nofun, hrefuses⟩
    · exact ⟨a :: before, b, after, rfl, List.forall_mem_cons.mpr ⟨hnone, hbefore⟩, hrefuses⟩

theorem exists_firstError_iff :
    (∃ e, FirstError refuses items e) ↔ ∃ a ∈ items, ∃ e, refuses a e := by
  constructor
  · rintro ⟨e, before, a, after, rfl, -, hrefuses⟩
    exact ⟨a, by simp, e, hrefuses⟩
  · intro hsome
    induction items with
    | nil => simp at hsome
    | cons a rest ih =>
        by_cases ha : ∃ e, refuses a e
        · obtain ⟨e, he⟩ := ha
          exact ⟨e, firstError_cons.mpr (.inl he)⟩
        · obtain ⟨b, hb, hsome⟩ := hsome
          obtain rfl | hb := List.mem_cons.mp hb
          · exact absurd hsome ha
          · obtain ⟨e, he⟩ := ih ⟨b, hb, hsome⟩
            exact ⟨e, firstError_cons.mpr (.inr ⟨fun cause h => ha ⟨cause, h⟩, he⟩)⟩

end FirstError

namespace Expression

variable {assignments : List Assignment} {value : Assignment → Value} {row row' : Row} {e : Error}

/-- A row in which every component that assignments name was given the value of the last
assignment to it. -/
structure Assigned (assignments : List Assignment) (value : Assignment → Value)
    (row row' : Row) : Prop where
  last : ∀ before a after, assignments = before ++ a :: after →
    (∀ b ∈ after, b.component ≠ a.component) →
    a.component.Holds (value a) (row'.component a.component)
  others : ∀ component, (∀ a ∈ assignments, a.component ≠ component) →
    row'.component component = row.component component

theorem assigned_of_assignAll
    (hassign : assignAll row (assignments.map fun a => (a.component, value a)) = .ok row') :
    Assigned assignments value row row' := by
  induction assignments generalizing row with
  | nil =>
      cases hassign
      exact ⟨by simp, fun _ _ => rfl⟩
  | cons a rest ih =>
      rw [List.map_cons, assignAll] at hassign
      split at hassign
      next row₁ hset =>
        have hrest := ih hassign
        refine ⟨?_, ?_⟩
        · intro before b after hitems hlast
          cases before with
          | nil =>
              cases hitems
              rw [hrest.others a.component hlast]
              exact Row.holds_of_setComponent hset
          | cons c before =>
              cases hitems
              exact hrest.last before b after rfl hlast
        · intro component hnone
          obtain ⟨ha, hnone⟩ := List.forall_mem_cons.mp hnone
          rw [hrest.others component hnone, Row.component_of_setComponent hset ha.symm]
      next => cases hassign

theorem assignAll_eq_error_iff :
    assignAll row (assignments.map fun a => (a.component, value a)) = .error e ↔
      FirstError (fun a => a.component.Refuses (value a)) assignments e := by
  induction assignments generalizing row with
  | nil =>
      refine iff_of_false ?_ not_firstError_nil
      rintro ⟨⟩
  | cons a rest ih =>
      rw [List.map_cons, assignAll, firstError_cons]
      simp only [← @Row.setComponent_eq_error_iff row]
      split
      next row₁ hset => simp [hset, ih]
      next cause hset => simp [hset]

/-- What a row is refused with. -/
abbrev RowRefused (assignments : List Assignment) (row : Row) : Error → Prop :=
  FirstError (fun a => a.component.Refuses (a.term.evaluate row)) assignments

theorem forall₂_of_assignRows {rows rows' : List Row}
    (hassign : assignRows assignments rows = .ok rows') :
    List.Forall₂ (fun row => Assigned assignments (fun a => a.term.evaluate row) row)
      rows rows' := by
  induction rows generalizing rows' with
  | nil =>
      cases hassign
      exact .nil
  | cons row rest ih =>
      rw [assignRows] at hassign
      split at hassign
      next => cases hassign
      next row' hrow =>
        split at hassign
        next => cases hassign
        next rest' hrest =>
          cases hassign
          exact .cons (assigned_of_assignAll hrow) (ih hrest)

theorem assignRows_eq_error_iff {rows : List Row} :
    assignRows assignments rows = .error e ↔ FirstError (RowRefused assignments) rows e := by
  induction rows with
  | nil =>
      refine iff_of_false ?_ not_firstError_nil
      rintro ⟨⟩
  | cons row rest ih =>
      have hrefused (cause : Error) :
          RowRefused assignments row cause ↔ assignRow assignments row = .error cause :=
        assignAll_eq_error_iff.symm
      rw [assignRows, firstError_cons, ← ih]
      simp only [hrefused]
      split
      next cause hrow => simp [hrow]
      next row' hrow =>
        split
        next cause hrest => simp [hrow, hrest]
        next rest' hrest => simp [hrow, hrest]

end Expression

namespace Loader

open Expression

variable {source : String} {capability : Capability}

/-- A processor compiled from assignments answers every list of rows with one of its length, in
which each component holds what the last assignment to it gives on the row as it was. It fails
exactly if an assignment is refused, with the first such error. -/
theorem process_of_compiled (hload : expressions source .processor = .ok capability) :
    ∃ assignments processor, Assignment.parse source = .ok assignments ∧
      capability = .processor processor ∧ ∀ rows,
        (∀ rows', processor.process rows = .ok rows' →
          List.Forall₂ (fun row => Assigned assignments (fun a => a.term.evaluate row) row)
            rows rows') ∧
        (∀ fault, processor.process rows = .error fault ↔
          ∃ e, fault = .failed e ∧ FirstError (RowRefused assignments) rows e) ∧
        ((∃ fault, processor.process rows = .error fault) ↔
          ∃ row ∈ rows, ∃ a ∈ assignments, ∃ e, a.component.Refuses (a.term.evaluate row) e) := by
  obtain ⟨assignments, hparse, rfl⟩ := Except.map_eq_ok_iff.mp hload
  have herror (rows : List Row) (fault : Fault) :
      (assignmentProcessor assignments).process rows = .error fault ↔
        ∃ e, fault = .failed e ∧ FirstError (RowRefused assignments) rows e := by
    rw [assignmentProcessor, Except.mapError_eq_error_iff]
    simp only [assignRows_eq_error_iff]
    constructor
    · rintro ⟨e, hfirst, rfl⟩
      exact ⟨e, rfl, hfirst⟩
    · rintro ⟨e, rfl, hfirst⟩
      exact ⟨e, hfirst, rfl⟩
  refine ⟨assignments, _, hparse, rfl, ?_⟩
  intro rows
  refine ⟨?_, herror rows, ?_⟩
  · intro rows' hprocess
    exact forall₂_of_assignRows (Except.mapError_eq_ok_iff.mp hprocess)
  · have hsome : (∃ e, FirstError (RowRefused assignments) rows e) ↔
        ∃ row ∈ rows, ∃ a ∈ assignments, ∃ e, a.component.Refuses (a.term.evaluate row) e := by
      simp only [RowRefused, exists_firstError_iff]
    rw [← hsome]
    constructor
    · rintro ⟨fault, hfault⟩
      obtain ⟨e, -, hfirst⟩ := (herror rows fault).mp hfault
      exact ⟨e, hfirst⟩
    · rintro ⟨e, hfirst⟩
      exact ⟨.failed e, (herror rows _).mpr ⟨e, rfl, hfirst⟩⟩

/-- Two components that change places, on every list of rows. -/
theorem process_of_compiled_swap :
    let assignments : List Assignment := [⟨.value, .field .name⟩, ⟨.name, .field .value⟩]
    ∃ processor, expressions "value = name, name = value" .processor = .ok (.processor processor) ∧
      ∀ rows, ∃ rows', processor.process rows = .ok rows' ∧
        List.Forall₂ (fun row => Assigned assignments (fun a => a.term.evaluate row) row)
          rows rows' := by
  intro assignments
  have hchars : Token.ofChars? "value = name, name = value".toList =
      some [.word "value", .sign .assign, .word "name", .sign .comma, .word "name", .sign .assign,
        .word "value"] := by decide +kernel
  have hparse : Assignment.parse "value = name, name = value" = .ok assignments := by
    rw [Assignment.parse, readAll, hchars]
    simp [readAssignments, readAssignment, readTerm, wordTerm?, componentOf?, Component.all,
      Component.key, Token.unreadable?, assignments]
  have hload : expressions "value = name, name = value" .processor =
      .ok (.processor (assignmentProcessor assignments)) := by
    rw [expressions, hparse]
    rfl
  obtain ⟨assignments', processor, hparse', hcapability, hprocess⟩ := process_of_compiled hload
  cases hcapability
  cases hparse.symm.trans hparse'
  refine ⟨_, hload, ?_⟩
  intro rows
  obtain ⟨hassigned, -, hfails⟩ := hprocess rows
  cases hresult : (assignmentProcessor assignments).process rows with
  | error fault =>
      obtain ⟨row, -, a, ha, e, hrefuses⟩ := hfails.mp ⟨fault, hresult⟩
      simp only [assignments, List.mem_cons, List.not_mem_nil, or_false] at ha
      obtain rfl | rfl := ha <;> cases hrefuses
  | ok rows' => exact ⟨rows', rfl, hassigned rows' hresult⟩

theorem parse_late : Assignment.parse "timestamp = 99999999999999999999.0" =
    .ok [⟨.timestamp, .literal (.float (.ofDecimal false 999999999999999999990 (-1)))⟩] := by
  have hchars : Token.ofChars? "timestamp = 99999999999999999999.0".toList =
      some [.word "timestamp", .sign .assign, .numeral "99999999999999999999.0"] := by
    decide +kernel
  have hnumeral : Token.numeralValue? "99999999999999999999.0" =
      some (.float (.ofDecimal false 999999999999999999990 (-1))) := rfl
  rw [Assignment.parse, readAll, hchars]
  simp [readAssignments, readAssignment, readTerm, hnumeral, componentOf?, Component.all,
    Component.key, Token.unreadable?]

/-- A timestamp out of range is not the whole number that it was given. -/
theorem not_process_of_compiled_exactly :
    ¬ ∀ (source : String) (term : Term) (processor : Processor) (row row' : Row) (n : Int),
      Assignment.parse source = .ok [⟨.timestamp, term⟩] →
      expressions source .processor = .ok (.processor processor) →
      (term.evaluate row).IsWhole n → processor.process [row] = .ok [row'] →
      row'.timestamp.map Int64.toInt = some n := by
  intro hexact
  have hload := congrArg (Except.map fun a => Capability.processor (assignmentProcessor a))
    parse_late
  have hint : (Binary64.ofDecimal false 999999999999999999990 (-1)).toInt? =
      some 100000000000000000000 := by decide +kernel
  have hclamp : Value.clampInt64 100000000000000000000 = 9223372036854775807 := by decide
  obtain ⟨hfinite, hvalue⟩ := Binary64.toInt?_eq_some_iff.mp hint
  have hsame := hexact _ _ _ {} { timestamp := some 9223372036854775807 } 100000000000000000000
    parse_late hload (.float hfinite hvalue)
    (by simp [assignmentProcessor, assignRows, assignRow, assignAll, Row.setComponent,
      Term.evaluate, Value.int?, hint, hclamp, Except.mapError])
  revert hsame
  decide

end Loader

end OperationChain
