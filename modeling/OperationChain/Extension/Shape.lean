/-! # Shapes of capabilities

What a registered capability can be used for.
-/

namespace OperationChain

/-- What a capability does: choose rows, change rows, join lists of rows, or build a
chain. -/
inductive Shape where
  | filter | processor | multiProcessor | serviceProcess
  deriving DecidableEq, Repr

namespace Shape

/-- What a shape is called in messages. -/
def name : Shape → String
  | filter => "filter"
  | processor => "processor"
  | multiProcessor => "multi-processor"
  | serviceProcess => "service process"

/-- The place of a shape among the four. -/
def index : Shape → Nat
  | filter => 0
  | processor => 1
  | multiProcessor => 2
  | serviceProcess => 3

end Shape

end OperationChain
