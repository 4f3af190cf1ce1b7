import Mathlib.Data.List.Induction

/-! # Places in a history

What holds at the places of a list of events, told from its end, where events are added. A place
in a history with one event more is that event, or one that was there before, so the last event
that did something is found from the history before the end and from the event that comes next.
-/

namespace OperationChain

section Places

variable {α : Type} {history : List α} {last : α}

/-- The places of a history with one event more: its end, and the places that it had. -/
theorem exists_place_concat {p : List α → α → List α → Prop} :
    (∃ earlier event later, history ++ [last] = earlier ++ event :: later ∧
        p earlier event later) ↔
      p history last [] ∨ ∃ earlier event later, history = earlier ++ event :: later ∧
        p earlier event (later ++ [last]) := by
  constructor
  · rintro ⟨earlier, event, later, hsplit, hplace⟩
    rcases later.eq_nil_or_concat with rfl | ⟨front, final, rfl⟩
    · obtain ⟨rfl, hevent⟩ := List.append_inj' hsplit rfl
      obtain rfl := List.singleton_inj.mp hevent
      exact .inl hplace
    · rw [List.concat_eq_append] at hsplit hplace
      rw [← List.cons_append, ← List.append_assoc] at hsplit
      obtain ⟨rfl, hfinal⟩ := List.append_inj' hsplit rfl
      obtain rfl := List.singleton_inj.mp hfinal
      exact .inr ⟨earlier, event, front, rfl, hplace⟩
  · rintro (hplace | ⟨earlier, event, later, rfl, hplace⟩)
    · exact ⟨history, last, [], rfl, hplace⟩
    · exact ⟨earlier, event, later ++ [last], by simp, hplace⟩

/-- Places after which an event did not come: a last event is such a place, and it takes away
the ones before if it is that event. -/
theorem exists_place_since_concat {p : List α → α → Prop} {stop : α} :
    (∃ earlier event later, history ++ [last] = earlier ++ event :: later ∧
        p earlier event ∧ stop ∉ later) ↔
      p history last ∨ (∃ earlier event later, history = earlier ++ event :: later ∧
        p earlier event ∧ stop ∉ later) ∧ last ≠ stop := by
  rw [exists_place_concat]
  refine or_congr (and_iff_left List.not_mem_nil) ?_
  simp only [List.mem_append, List.mem_singleton, not_or]
  constructor
  · rintro ⟨earlier, event, later, hsplit, hplace, hlater, hlast⟩
    exact ⟨⟨earlier, event, later, hsplit, hplace, hlater⟩, Ne.symm hlast⟩
  · rintro ⟨⟨earlier, event, later, hsplit, hplace, hlater⟩, hlast⟩
    exact ⟨earlier, event, later, hsplit, hplace, hlater, Ne.symm hlast⟩

theorem not_exists_place_nil {p : List α → α → List α → Prop} :
    ¬ ∃ earlier event later, [] = earlier ++ event :: later ∧ p earlier event later := by
  rintro ⟨earlier, event, later, hsplit, -⟩
  simp at hsplit

theorem forall_place_concat {q : List α → α → Prop} :
    (∀ earlier event later, history ++ [last] = earlier ++ event :: later → q earlier event) ↔
      q history last ∧
        ∀ earlier event later, history = earlier ++ event :: later → q earlier event := by
  have hplaces := not_congr (@exists_place_concat _ history last fun earlier event _ =>
    ¬ q earlier event)
  simpa only [not_or, not_exists, not_and, not_not] using hplaces

end Places

section Latest

variable {α β : Type} {gives : List α → α → β → Prop} {history : List α} {last : α} {value : β}

/-- What the last of those events gave that gave something. What an event gives may depend on
the events before it. -/
def Latest (gives : List α → α → β → Prop) (history : List α) (value : β) : Prop :=
  ∃ earlier event later, history = earlier ++ event :: later ∧ gives earlier event value ∧
    ∀ between next rest, later = between ++ next :: rest →
      ∀ other, ¬ gives (earlier ++ event :: between) next other

theorem not_latest_nil : ¬ Latest gives [] value := not_exists_place_nil

theorem latest_concat : Latest gives (history ++ [last]) value ↔
    gives history last value ∨
      Latest gives history value ∧ ∀ other, ¬ gives history last other := by
  unfold Latest
  rw [exists_place_concat]
  refine or_congr (and_iff_left (by simp)) ?_
  simp only [forall_place_concat]
  constructor
  · rintro ⟨earlier, event, later, rfl, hgives, hlast, hafter⟩
    exact ⟨⟨earlier, event, later, rfl, hgives, hafter⟩, hlast⟩
  · rintro ⟨⟨earlier, event, later, rfl, hgives, hafter⟩, hlast⟩
    exact ⟨earlier, event, later, rfl, hgives, hlast, hafter⟩

/-- There is a last event that gave something if any did. -/
theorem exists_latest_iff : (∃ value, Latest gives history value) ↔
    ∃ earlier event later, history = earlier ++ event :: later ∧
      ∃ value, gives earlier event value := by
  constructor
  · rintro ⟨value, earlier, event, later, hsplit, hgives, -⟩
    exact ⟨earlier, event, later, hsplit, value, hgives⟩
  · induction history using List.reverseRecOn with
    | nil => exact fun hplace => absurd hplace not_exists_place_nil
    | append_singleton history last ih =>
        rw [exists_place_concat]
        intro hplace
        by_cases hlast : ∃ value, gives history last value
        · obtain ⟨value, hvalue⟩ := hlast
          exact ⟨value, latest_concat.mpr (.inl hvalue)⟩
        · obtain ⟨value, hlatest⟩ := ih (hplace.resolve_left hlast)
          exact ⟨value, latest_concat.mpr (.inr ⟨hlatest, not_exists.mp hlast⟩)⟩

end Latest

end OperationChain
