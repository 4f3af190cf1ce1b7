import OperationChain.Operation.Kind
import OperationChain.Consistency.Basic
import OperationChain.Value.Document

/-! # Operations

One step of a chain: its kind, its parameters by key, and the settings that it puts
before those of the session. A parameter is a value, a reference to the result of an
earlier operation, or a marker that stands for a value bound later.
-/

namespace OperationChain

/-- Names a handle by a number. -/
abbrev Handle := Nat

/-- Points at the result of an operation of the same chain, or at a part of it. -/
structure Reference where
  index : Int64
  field : Option String := none
  deriving DecidableEq, Repr

/-- What stands under the key of a parameter. -/
inductive Param where
  | reference (target : Reference)
  | bind (position : UInt32)
  | literal (value : Value)

instance : Inhabited Param := ⟨.literal .null⟩

/-- Settings of one operation that win over those of the session. The timeout is in
milliseconds, the time to live in seconds. -/
structure Overrides where
  keyspace : Option String := none
  table : Option String := none
  consistency : Option Consistency := none
  timeout : Option UInt64 := none
  ttl : Option UInt32 := none
  deriving DecidableEq, Repr

/-- One step of a chain. -/
structure Operation where
  kind : OperationKind
  params : Map String Param := ∅
  overrides : Overrides := {}

namespace Operation

/-- The operation with a parameter more, or with another value for one. -/
def param (operation : Operation) (key : String) (param : Param) : Operation :=
  { operation with params := operation.params.insert key param }

/-- The operation with a literal value under `key`. -/
def literal (operation : Operation) (key : String) (value : Value) : Operation :=
  operation.param key (.literal value)

/-- An operation for people: its kind and the keys of its parameters. -/
def display (operation : Operation) : String :=
  operation.kind.name ++ "(" ++ String.intercalate ", " operation.params.keys ++ ")"

end Operation

end OperationChain
