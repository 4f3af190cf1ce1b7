import OperationChain.Extension.Shape
import OperationChain.Operation.Basic
import OperationChain.Response

/-! # Capabilities

What callers register under a name and use in later operations. A capability can
fail with an error, or stop short without one, which is told apart; one that works on
rows can also take time before it answers.
-/

namespace OperationChain

/-- How a capability ends without an answer. -/
inductive Fault where
  | failed (error : Error)
  | panicked

/-- Decides on single rows; `none` where it stops short. -/
structure Filter where
  accept : Row → Option Bool
  /-- How long it takes for a row at least, in nanoseconds. -/
  nanos : Row → Nat := fun _ => 0

/-- Changes a list of rows. -/
structure Processor where
  process : List Row → Except Fault (List Row)
  /-- How long it takes at least, in milliseconds. -/
  delay : Nat := 0

/-- Joins lists of rows, each under the index of the operation that produced it, in
the order of these indices as texts. -/
structure MultiProcessor where
  combine : List (String × List Row) → List (String × Value) → Except Fault (List Row)
  /-- How long it takes at least, in milliseconds. -/
  delay : Nat := 0

/-- Builds the chain that is run for a service process. -/
structure ServiceProcess where
  build : List (String × Value) → Except Fault (List Operation)

/-- A capability of any shape. -/
inductive Capability where
  | filter (filter : Filter)
  | processor (processor : Processor)
  | multiProcessor (combiner : MultiProcessor)
  | serviceProcess (process : ServiceProcess)

namespace Capability

def shape : Capability → Shape
  | filter _ => .filter
  | processor _ => .processor
  | multiProcessor _ => .multiProcessor
  | serviceProcess _ => .serviceProcess

/-- How a capability is shown when it cannot be shown as what it does. -/
def display (capability : Capability) : String := s!"Capability({capability.shape.name})"

end Capability

/-- The rows that a filter accepts, in their order; `none` if it stops short on one
of them. -/
def Filter.apply (filter : Filter) : List Row → Option (List Row)
  | [] => some []
  | row :: rest =>
    match filter.accept row with
    | none => none
    | some accepted => (filter.apply rest).map fun rows => if accepted then row :: rows else rows

/-- How long a filter takes for rows at least, in nanoseconds: it sees them in their
order, up to one on which it stops short. -/
def Filter.nanosFor (filter : Filter) : List Row → Nat
  | [] => 0
  | row :: rest =>
    filter.nanos row + if (filter.accept row).isNone then 0 else filter.nanosFor rest

/-- The whole milliseconds that a filter takes for rows at least. -/
def Filter.millis (filter : Filter) (rows : List Row) : Nat := filter.nanosFor rows / 1000000

/-- Turns source text into a capability of a wanted shape. -/
abbrev Loader := String → Shape → Except Error Capability

end OperationChain
