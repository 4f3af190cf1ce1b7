import OperationChain.Store.Basic

/-! # What programs do to a state

The equations of the steps that programs are made of.
-/

namespace OperationChain.Program

variable {ε σ α β : Type}

@[simp] theorem exec_pure (a : α) (state : σ) :
    (pure a : Program ε σ α).exec state = (.ok a, state) := rfl

@[simp] theorem exec_throw (error : ε) (state : σ) :
    (throw error : Program ε σ α).exec state = (.error error, state) := rfl

@[simp] theorem exec_get (state : σ) : (get : Program ε σ σ).exec state = (.ok state, state) := rfl

@[simp] theorem exec_set (after state : σ) :
    (set after : Program ε σ PUnit).exec state = (.ok ⟨⟩, after) := rfl

@[simp] theorem exec_modify (change : σ → σ) (state : σ) :
    (modify change : Program ε σ PUnit).exec state = (.ok ⟨⟩, change state) := rfl

theorem exec_bind (first : Program ε σ α) (next : α → Program ε σ β) (state : σ) :
    (first >>= next).exec state =
      match first.exec state with
      | (.ok a, after) => (next a).exec after
      | (.error error, after) => (.error error, after) := by
  change ExceptT.bindCont next (first.exec state).1 (first.exec state).2 = _
  rcases first.exec state with ⟨_ | _, after⟩ <;> rfl

theorem exec_bind_ok {first : Program ε σ α} {next : α → Program ε σ β} {state after : σ} {a : α}
    (hfirst : first.exec state = (.ok a, after)) :
    (first >>= next).exec state = (next a).exec after := by
  rw [exec_bind, hfirst]

theorem exec_bind_error {first : Program ε σ α} {next : α → Program ε σ β} {state after : σ}
    {error : ε} (hfirst : first.exec state = (.error error, after)) :
    (first >>= next).exec state = (.error error, after) := by
  rw [exec_bind, hfirst]

theorem exec_bind_pure (program : Program ε σ α) (f : α → β) (state : σ) :
    (program >>= fun a => pure (f a)).exec state =
      ((program.exec state).1.map f, (program.exec state).2) := by
  rw [exec_bind]
  rcases program.exec state with ⟨_ | _, after⟩ <;> rfl

theorem exec_tryCatch (program : Program ε σ α) (handle : ε → Program ε σ α) (state : σ) :
    (tryCatch program handle).exec state =
      match program.exec state with
      | (.ok a, after) => (.ok a, after)
      | (.error error, after) => (handle error).exec after := by
  change (match (program.exec state).1 with
    | .ok a => (pure (Except.ok a) : StateM σ (Except ε α))
    | .error error => handle error) (program.exec state).2 = _
  rcases program.exec state with ⟨_ | _, after⟩ <;> rfl

end OperationChain.Program

namespace OperationChain.Update

variable {σ α β : Type}

theorem exec_lift (result : Except Error α) (store : σ) :
    (Update.lift result : Update σ α).exec store = (result, store) := by
  cases result <;> rfl

theorem exec_lift_bind (result : Except Error α) (next : α → Update σ β) (store : σ) :
    (Update.lift result >>= next).exec store =
      match result with
      | .ok a => (next a).exec store
      | .error error => (.error error, store) := by
  cases result <;> rfl

end OperationChain.Update
