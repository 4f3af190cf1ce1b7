import OperationChain.Expression.Evaluation
import OperationChain.Expression.Parser
import OperationChain.Extension.Registry
import OperationChain.Text.Blank

/-! # Loaders

Two loaders stand in every registry: one compiles expressions into filters and
processors, the other looks names up in a table of symbols that the host provides.
-/

namespace OperationChain

namespace Loader

/-- The tag of the loader of expressions. -/
def expressionTag : String := "expr"

/-- The tag of the loader of symbols. -/
def nativeTag : String := "native"

/-- The filter that a predicate is. No comparison is made within a nanosecond. -/
def predicateFilter (predicate : Expression.Predicate) : Filter where
  accept row := some (predicate.evaluate row)
  nanos row := predicate.comparisons row

/-- The processor that assignments are. -/
def assignmentProcessor (assignments : List Expression.Assignment) : Processor where
  process rows := (Expression.assignRows assignments rows).mapError .failed

/-- Compiles expressions. There are none for the other two shapes. -/
def expressions : Loader := fun source shape =>
  match shape with
  | .filter =>
    (Expression.Predicate.parse source).map fun predicate => .filter (predicateFilter predicate)
  | .processor =>
    (Expression.Assignment.parse source).map fun assignments =>
      .processor (assignmentProcessor assignments)
  | other => .error (.extension (.cannotBuild other))

/-- Looks a source up as a symbol, which has to have the wanted shape. -/
def symbols (table : Map String Capability) : Loader := fun source shape =>
  let symbol := Text.trim source
  match table.find? symbol with
  | none => .error (.extension (.unknownSymbol symbol))
  | some capability =>
    if capability.shape = shape then .ok capability
    else .error (.extension (.symbolShape symbol capability.shape shape))

/-- Refuses every source with the error that `reason` gives for it. -/
def refusing (reason : String → Error) : Loader := fun source _ => .error (reason source)

/-- Answers with the same capability, whatever the source and the shape. -/
def always (capability : Capability) : Loader := fun _ _ => .ok capability

end Loader

/-- A registry with the two loaders and no symbols. -/
def Registry.standard : Registry :=
  (({} : Registry).addLoader Loader.expressionTag Loader.expressions).addLoader Loader.nativeTag
    (Loader.symbols ∅)

end OperationChain
