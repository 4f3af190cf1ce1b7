import OperationChain.Handles
import OperationChain.Proofs.Except
import OperationChain.Proofs.History
import OperationChain.Proofs.Ordered.Map

/-! # What handles mean

A handle means the value for which it was handed out, from then on and until it is let go, and
never anything else: the handles that a keeper hands out go up by one from call to call, so that
none comes a second time.
-/

namespace OperationChain.Keeper

variable {α : Type}

/-! ## Calls -/

/-- A call on a keeper. -/
inductive Call (α : Type) where
  | keep (value : α)
  | get (handle : Handle)
  | release (handle : Handle)

/-- What a call on a keeper answers. -/
inductive Reply (α : Type) where
  | kept (handle : Handle)
  | found (value : α)
  | released

/-- Makes a call: its answer, and the keeper after it. -/
def perform (keeper : Keeper α) : Call α → Except Error (Reply α) × Keeper α
  | .keep value => (.ok (.kept (keeper.keep value).1), (keeper.keep value).2)
  | .get handle => ((keeper.get handle).map .found, keeper)
  | .release handle =>
    match keeper.release handle with
    | .ok after => (.ok .released, after)
    | .error error => (.error error, keeper)

/-- The keeper after calls. -/
def performed (keeper : Keeper α) (calls : List (Call α)) : Keeper α :=
  calls.foldl (fun keeper call => (keeper.perform call).2) keeper

/-- What calls answer, in their order. -/
def replies (keeper : Keeper α) : List (Call α) → List (Except Error (Reply α))
  | [] => []
  | call :: rest => (keeper.perform call).1 :: (keeper.perform call).2.replies rest

/-- The call keeps a value. -/
def Call.keeps : Call α → Bool
  | .keep _ => true
  | _ => false

/-- The handle that a call handed out. -/
def handedOut? : Except Error (Reply α) → Option Handle
  | .ok (.kept handle) => some handle
  | _ => none

/-- The call let go of a value. -/
def letsGo : Except Error (Reply α) → Bool
  | .ok .released => true
  | _ => false

theorem performed_concat (keeper : Keeper α) (calls : List (Call α)) (call : Call α) :
    keeper.performed (calls ++ [call]) = ((keeper.performed calls).perform call).2 :=
  List.foldl_concat ..

/-! ## One call -/

section Calls

variable {keeper after : Keeper α} {handle other : Handle} {value : α}

theorem get_eq_ok_iff : keeper.get handle = .ok value ↔ keeper.kept.find? handle = some value := by
  unfold get
  split
  next found hfound => rw [hfound, Except.ok.injEq, Option.some.injEq]
  next hnone =>
    rw [hnone]
    constructor <;> rintro ⟨⟩

theorem get_eq_error (hnone : ∀ value, keeper.get handle ≠ .ok value) :
    keeper.get handle = .error (.state (.unknownHandle keeper.what handle)) := by
  unfold get at hnone ⊢
  split at hnone
  next found _ => exact absurd rfl (hnone found)
  next => rfl

/-- A value is let go of if it is there, and only it. -/
theorem release_eq_ok_iff : keeper.release handle = .ok after ↔
    (∃ value, keeper.get handle = .ok value) ∧
      after = { keeper with kept := keeper.kept.erase handle } := by
  have hfound : keeper.kept.contains handle = true ↔ ∃ value, keeper.get handle = .ok value := by
    rw [Map.contains, Option.isSome_iff_exists]
    exact exists_congr fun _ => get_eq_ok_iff.symm
  rw [← hfound, release]
  split
  next hcontains => rw [and_iff_right hcontains, Except.ok.injEq, eq_comm]
  next hmissing => simp [hmissing]

theorem release_eq_error (hnone : ∀ value, keeper.get handle ≠ .ok value) :
    keeper.release handle = .error (.state (.unknownHandle keeper.what handle)) := by
  cases hrelease : keeper.release handle with
  | ok after =>
      obtain ⟨⟨value, hvalue⟩, -⟩ := release_eq_ok_iff.mp hrelease
      exact absurd hvalue (hnone value)
  | error error =>
      unfold release at hrelease
      split at hrelease
      next => cases hrelease
      next => rw [← Except.error.inj hrelease]

theorem get_release_of_ne (hrelease : keeper.release handle = .ok after) (hother : other ≠ handle) :
    after.get other = keeper.get other := by
  obtain ⟨-, rfl⟩ := release_eq_ok_iff.mp hrelease
  rw [get, get, Map.find?_erase_of_ne hother]

theorem get_keep_next : (keeper.keep value).2.get (keeper.last + 1) = .ok value :=
  get_eq_ok_iff.mpr Map.find?_insert_self

theorem get_keep_of_ne (hother : other ≠ keeper.last + 1) :
    (keeper.keep value).2.get other = keeper.get other := by
  rw [get, get, keep, Map.find?_insert_of_ne hother]

theorem last_perform (keeper : Keeper α) (call : Call α) :
    (keeper.perform call).2.last = keeper.last + [call].countP Call.keeps := by
  cases call with
  | keep value => rfl
  | get handle => rfl
  | release handle =>
      rw [perform]
      split
      next after hrelease => rw [(release_eq_ok_iff.mp hrelease).2]; rfl
      next => rfl

theorem what_perform (keeper : Keeper α) (call : Call α) :
    (keeper.perform call).2.what = keeper.what := by
  cases call with
  | keep value => rfl
  | get handle => rfl
  | release handle =>
      rw [perform]
      split
      next after hrelease => rw [(release_eq_ok_iff.mp hrelease).2]
      next => rfl

end Calls

/-! ## Handles that are still to come -/

/-- No handle means anything before it was handed out. -/
def Bounded (keeper : Keeper α) : Prop :=
  ∀ handle value, keeper.get handle = .ok value → handle ≤ keeper.last

namespace Bounded

variable {keeper : Keeper α}

theorem empty (what : String) : Bounded ({ what } : Keeper α) := by
  intro handle value hvalue
  rw [get_eq_ok_iff, Map.find?_empty] at hvalue
  cases hvalue

theorem find?_next (hbounded : keeper.Bounded) : keeper.kept.find? (keeper.last + 1) = none := by
  rw [Option.eq_none_iff_forall_ne_some]
  intro value hvalue
  exact Nat.not_succ_le_self _ (hbounded _ _ (get_eq_ok_iff.mpr hvalue))

theorem perform (hbounded : keeper.Bounded) (call : Call α) : (keeper.perform call).2.Bounded := by
  intro handle value hvalue
  rw [last_perform]
  cases call with
  | keep kept =>
      by_cases hnew : handle = keeper.last + 1
      · exact Nat.le_of_eq hnew
      · exact Nat.le_succ_of_le (hbounded _ _ ((get_keep_of_ne hnew).symm.trans hvalue))
  | get asked => exact hbounded _ _ hvalue
  | release asked =>
      rw [Keeper.perform] at hvalue
      split at hvalue
      next after hrelease =>
        by_cases hsame : handle = asked
        · obtain ⟨-, rfl⟩ := release_eq_ok_iff.mp hrelease
          rw [hsame, get_eq_ok_iff, Map.find?_erase_self] at hvalue
          cases hvalue
        · exact hbounded _ _ ((get_release_of_ne hrelease hsame).symm.trans hvalue)
      next => exact hbounded _ _ hvalue

theorem performed (hbounded : keeper.Bounded) (calls : List (Call α)) :
    (keeper.performed calls).Bounded := by
  induction calls generalizing keeper with
  | nil => exact hbounded
  | cons call rest ih => exact ih (hbounded.perform call)

/-- One call more, and how many values are kept. -/
theorem size_perform (hbounded : keeper.Bounded) (call : Call α) :
    (keeper.perform call).2.size + [(keeper.perform call).1].countP letsGo =
      keeper.size + [call].countP Call.keeps := by
  cases call with
  | keep value => exact Map.size_insert hbounded.find?_next
  | get handle =>
      rw [Keeper.perform]
      cases keeper.get handle <;> rfl
  | release handle =>
      rw [Keeper.perform]
      split
      next after hrelease =>
        obtain ⟨⟨value, hvalue⟩, rfl⟩ := release_eq_ok_iff.mp hrelease
        exact Map.size_erase (get_eq_ok_iff.mp hvalue)
      next => rfl

theorem size_performed (hbounded : keeper.Bounded) (calls : List (Call α)) :
    (keeper.performed calls).size + (keeper.replies calls).countP letsGo =
      keeper.size + calls.countP Call.keeps := by
  induction calls generalizing keeper with
  | nil => rfl
  | cons call rest ih =>
      have hcall := hbounded.size_perform call
      have hrest := ih (hbounded.perform call)
      rw [replies, List.countP_cons, List.countP_cons, Keeper.performed, List.foldl_cons]
      rw [List.countP_singleton, List.countP_singleton] at hcall
      rw [Keeper.performed] at hrest
      omega

end Bounded

/-! ## Sequences of calls -/

theorem what_performed (keeper : Keeper α) (calls : List (Call α)) :
    (keeper.performed calls).what = keeper.what := by
  induction calls using List.reverseRecOn with
  | nil => rfl
  | append_singleton calls call ih => rw [performed_concat, what_perform, ih]

/-- The handles that calls hand out are the numbers that come next. -/
theorem handedOut_replies (keeper : Keeper α) (calls : List (Call α)) :
    (keeper.replies calls).filterMap handedOut? =
      List.range' (keeper.last + 1) (calls.countP Call.keeps) := by
  induction calls generalizing keeper with
  | nil => rfl
  | cons call rest ih =>
      rw [replies, List.filterMap_cons, ih, last_perform]
      cases call with
      | keep value =>
          change (keeper.last + 1) :: List.range' (keeper.last + 1 + 1) _ = _
          rw [List.countP_cons_of_pos rfl, List.range'_succ]
      | get handle =>
          rw [perform]
          cases keeper.get handle <;> rfl
      | release handle =>
          rw [perform]
          cases keeper.release handle <;> rfl

/-- The value was kept under this handle, and not let go since. -/
def Means (start : Keeper α) (calls : List (Call α)) (handle : Handle) (value : α) : Prop :=
  ∃ earlier call later, calls = earlier ++ call :: later ∧ call = .keep value ∧
    ((start.performed earlier).perform call).1 = .ok (.kept handle) ∧ .release handle ∉ later

section Means

variable {start : Keeper α} {calls : List (Call α)} {call : Call α} {handle : Handle} {value : α}

theorem not_means_nil : ¬ start.Means [] handle value := not_exists_place_nil

theorem means_concat : start.Means (calls ++ [call]) handle value ↔
    (call = .keep value ∧ handle = (start.performed calls).last + 1) ∨
      start.Means calls handle value ∧ call ≠ .release handle := by
  have hreply : ((start.performed calls).perform (.keep value)).1 = .ok (.kept handle) ↔
      handle = (start.performed calls).last + 1 := by
    simp only [perform, keep, Except.ok.injEq, Reply.kept.injEq, eq_comm]
  unfold Means
  simp only [← and_assoc (a := _ = Call.keep value)]
  rw [exists_place_since_concat]
  refine or_congr_left (and_congr_right ?_)
  rintro rfl
  exact hreply

/-- A keeper without values finds what handles have come to mean. -/
theorem get_performed_iff (hbounded : start.Bounded)
    (hempty : ∀ handle value, start.get handle ≠ .ok value) :
    (start.performed calls).get handle = .ok value ↔ start.Means calls handle value := by
  induction calls using List.reverseRecOn generalizing handle value with
  | nil => exact iff_of_false (hempty handle value) not_means_nil
  | append_singleton calls call ih =>
      have hbounded := hbounded.performed calls
      rw [performed_concat, means_concat]
      cases call with
      | keep kept =>
          by_cases hnew : handle = (start.performed calls).last + 1
          · have hnot : ¬ start.Means calls handle value := fun hmeans =>
              Nat.not_succ_le_self _ (hnew ▸ hbounded handle value (ih.mpr hmeans))
            obtain rfl := hnew
            rw [perform, get_keep_next]
            simp [hnot]
          · rw [perform, get_keep_of_ne hnew, ih]
            simp [hnew]
      | get asked =>
          rw [perform, ih]
          simp
      | release asked =>
          rw [perform]
          split
          next after hrelease =>
            by_cases hsame : handle = asked
            · obtain ⟨-, rfl⟩ := release_eq_ok_iff.mp hrelease
              rw [hsame, get_eq_ok_iff, Map.find?_erase_self]
              simp
            · rw [get_release_of_ne hrelease hsame, ih]
              simp [Ne.symm hsame]
          next error hrelease =>
            rw [ih]
            refine ⟨fun hmeans => .inr ⟨hmeans, ?_⟩, ?_⟩
            · rintro ⟨⟩
              rw [release_eq_ok_iff.mpr ⟨⟨value, ih.mpr hmeans⟩, rfl⟩] at hrelease
              cases hrelease
            · rintro (⟨⟨⟩, -⟩ | ⟨hmeans, -⟩)
              exact hmeans

end Means

/-- Whatever calls were made on a new keeper, the handles that it handed out go up strictly from
one on, one for each value, so that all of them are words of 64 bits while fewer values were kept
than there are such words. A handle means the value that was kept under it last, until it is
let go: the value is found then and can be let go, which changes what no other handle means, and
otherwise both are refused. There are as many values as were kept and not let go. -/
theorem meaning_of_performed (what : String) (calls : List (Call α)) :
    let start : Keeper α := { what }
    let keeper := start.performed calls
    let handles := (start.replies calls).filterMap handedOut?
    (handles.Pairwise (· < ·) ∧ handles.length = calls.countP Call.keeps ∧
        ∀ handle ∈ handles, 0 < handle ∧ handle ≤ calls.countP Call.keeps) ∧
      (∀ handle value, keeper.get handle = .ok value ↔ start.Means calls handle value) ∧
      (∀ handle, (∀ value, ¬ start.Means calls handle value) →
        keeper.get handle = .error (.state (.unknownHandle what handle)) ∧
          keeper.release handle = .error (.state (.unknownHandle what handle))) ∧
      (∀ handle, (∃ after, keeper.release handle = .ok after) ↔
        ∃ value, keeper.get handle = .ok value) ∧
      (∀ handle after, keeper.release handle = .ok after → ∀ other, other ≠ handle →
        after.get other = keeper.get other) ∧
      keeper.size + (start.replies calls).countP letsGo = calls.countP Call.keeps := by
  intro start keeper handles
  have hhandles : handles = List.range' 1 (calls.countP Call.keeps) := handedOut_replies start calls
  have hbounded : start.Bounded := .empty what
  have hget (handle : Handle) (value : α) :
      keeper.get handle = .ok value ↔ start.Means calls handle value := by
    refine get_performed_iff hbounded fun handle value hvalue => ?_
    rw [get_eq_ok_iff, Map.find?_empty] at hvalue
    cases hvalue
  refine ⟨⟨?_, ?_, ?_⟩, hget, ?_, ?_, ?_, ?_⟩
  · rw [hhandles]
    exact List.pairwise_lt_range'
  · rw [hhandles, List.length_range']
  · intro handle hhandle
    rw [hhandles, List.mem_range'_1] at hhandle
    exact ⟨hhandle.1, Nat.lt_one_add_iff.mp hhandle.2⟩
  · intro handle hnone
    have hmissing (value : α) : keeper.get handle ≠ .ok value := by
      rw [ne_eq, hget]
      exact hnone value
    have hwhat : keeper.what = what := what_performed start calls
    rw [get_eq_error hmissing, release_eq_error hmissing, hwhat]
    exact ⟨rfl, rfl⟩
  · intro handle
    constructor
    · rintro ⟨after, hrelease⟩
      exact (release_eq_ok_iff.mp hrelease).1
    · intro hfound
      exact ⟨_, release_eq_ok_iff.mpr ⟨hfound, rfl⟩⟩
  · intro handle after hrelease other hother
    exact get_release_of_ne hrelease hother
  · have hsize := hbounded.size_performed calls
    rwa [show start.size = 0 from rfl, Nat.zero_add] at hsize

end OperationChain.Keeper
