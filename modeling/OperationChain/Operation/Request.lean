import OperationChain.Operation.Wire

/-! # Requests

A chain of operations with the hints that shape the session it starts from: a
consistency level, and the handle of a saved state. A level that does not exist is
passed over.
-/

namespace OperationChain

/-- A chain that is to be run. -/
structure Request where
  operations : List Operation := []
  consistency : Option Consistency := none
  restore : Option UInt64 := none

namespace Request

/-- The level that the hint names, if it names one. -/
def hint? : Json.Field → Option (Option Consistency)
  | .absent => some none
  | .present .null => some none
  | .present (.text s) => some (Consistency.parse s).toOption
  | _ => none

/-- The operations of a request, which may be absent but not null. -/
def operations? : Json.Field → Option (List Operation)
  | .absent => some []
  | .present (.array items) => items.mapM Operation.ofJson?
  | _ => none

/-- The request that a document describes. -/
def ofJson? : Json → Option Request
  | .object members => do
    some {
      operations := ← operations? (Json.field members ["operations"])
      consistency := ← hint? (Json.field members ["consistency"])
      restore := ← Operation.override? Json.uint64? (Json.field members ["restore"]) }
  | _ => none

/-- A request as a document. -/
def toJson (request : Request) : Json :=
  .object ([("operations", Json.array (request.operations.map Operation.toJson))] ++
    (request.consistency.map fun level => ("consistency", Json.text level.name)).toList ++
    (request.restore.map fun n => ("restore", Json.integer n.toNat)).toList)

end Request

end OperationChain
