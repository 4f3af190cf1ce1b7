/-! # Programs

Computations that change a state and may stop with an error. What a program changed
before it stopped stays changed.
-/

namespace OperationChain

/-- A computation that changes a state of type `σ` and may stop with an error of
type `ε`. -/
abbrev Program (ε σ : Type) := ExceptT ε (StateM σ)

/-- How a program ends in a state, and the state after it. -/
def Program.exec {ε σ α : Type} (program : Program ε σ α) (state : σ) : Except ε α × σ :=
  program.run state

end OperationChain
