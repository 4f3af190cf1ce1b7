import OperationChain.Error
import OperationChain.Row.Basic

/-! # Results of a chain

What an operation produces, and what a whole chain answers: the results by the index
of their operation, and the error that stopped the chain, if one did.
-/

namespace OperationChain

/-- What an operation produces. -/
inductive Record where
  | rows (list : List Row)
  | ok
  | scalar (value : Value)

namespace Record

instance : Inhabited Record := ⟨ok⟩

/-- A result as a document. -/
def toJson : Record → Json
  | rows list => .array (list.map Row.toJson)
  | ok => .text "OK"
  | scalar value => value.toJson

end Record

/-- The error that stopped a chain, and the index of the operation that raised it. -/
structure Failure where
  index : Nat
  error : Error

/-- What a chain answers. The results are in the order of their operations. -/
structure Response where
  results : List (Nat × Record) := []
  failure : Option Failure := none

/-- An answer as a document. -/
def Response.toJson (response : Response) : Json :=
  let results := response.results.map fun (index, record) => (Numeral.ofInt index, record.toJson)
  .object (("results", Json.object results) ::
    (response.failure.map fun failure =>
      ("exception", Json.object
        [("message", .text failure.error.message), ("index", .integer failure.index)])).toList)

end OperationChain
