import OperationChain.Consistency.Parse
import OperationChain.Operation.Basic

/-! # Operations as JSON

An operation is an object with the members `type`, `params`, `keyspace`, `table` (or
`columnfamily`), `consistency`, `timeout` and `ttl`, or an array of these in this
order with any tail left out. A parameter is tried as a reference, then as a bind
marker, and is a literal otherwise; a reference may be an array as well. Writing
leaves out what is absent.
-/

namespace OperationChain

/-- The key of the operation that a reference points at. -/
def refKey : String := "$ref"

/-- The key of the position of a bind marker. -/
def bindKey : String := "$bind"

namespace Reference

/-- The field of a reference, which may be absent or null. -/
def field? : Json.Field → Option (Option String)
  | .absent => some none
  | .present .null => some none
  | .present (.text s) => some (some s)
  | _ => none

/-- The reference that a document describes: an object with `$ref` and at most
`field`, or an array of the index and at most the field. -/
def ofJson? : Json → Option Reference
  | .object members =>
    if members.all fun member => member.1 == refKey || member.1 == "field" then
      match Json.field members [refKey], field? (Json.field members ["field"]) with
      | .present index, some field => index.int64?.map fun n => ⟨n, field⟩
      | _, _ => none
    else none
  | .array [index] => index.int64?.map fun n => ⟨n, none⟩
  | .array [index, field] =>
    match index.int64?, field? (.present field) with
    | some n, some field => some ⟨n, field⟩
    | _, _ => none
  | _ => none

/-- A reference as an object. -/
def toJson (reference : Reference) : Json :=
  .object ((refKey, .integer reference.index.toInt) ::
    (reference.field.map fun field => ("field", Json.text field)).toList)

end Reference

namespace Param

/-- The position of the bind marker that a document describes. The array form of a
marker is never reached, because an array of one whole number is a reference. -/
def position? : Json → Option UInt32
  | .object [(key, position)] => if key = bindKey then position.uint32? else none
  | _ => none

/-- The parameter that a document describes. -/
def ofJson (json : Json) : Param :=
  match Reference.ofJson? json with
  | some target => .reference target
  | none =>
    match position? json with
    | some position => .bind position
    | none => .literal (Value.ofJson json)

/-- A parameter as a document. -/
def toJson : Param → Json
  | reference target => target.toJson
  | bind position => .object [(bindKey, .integer position.toNat)]
  | literal value => value.toJson

/-- Parameters by key, of which the last counts under a repeated key. -/
def ofMembers (members : List (String × Json)) : Map String Param :=
  Map.ofList (members.map fun member => (member.1, ofJson member.2))

end Param

namespace Operation

/-- An override that may be absent or null. -/
def override? {α : Type} (read : Json → Option α) : Json.Field → Option (Option α)
  | .absent => some none
  | .present .null => some none
  | .present json => (read json).map some
  | .repeated => none

/-- The parameters of an operation, which may be absent but not null. -/
def params? : Json.Field → Option (Map String Param)
  | .absent => some ∅
  | .present (.object members) => some (Param.ofMembers members)
  | _ => none

/-- The consistency level that a document names. -/
def consistency? : Json → Option Consistency
  | .text s => (Consistency.parse s).toOption
  | _ => none

/-- An operation from its seven members. -/
def ofFields? (type params keyspace table consistency timeout ttl : Json.Field) :
    Option Operation :=
  match type with
  | .present (.text kind) => do
    some {
      kind := OperationKind.ofName kind
      params := ← params? params
      overrides := {
        keyspace := ← override? Json.text? keyspace
        table := ← override? Json.text? table
        consistency := ← override? consistency? consistency
        timeout := ← override? Json.uint64? timeout
        ttl := ← override? Json.uint32? ttl } }
  | _ => none

/-- The operation that a document describes. -/
def ofJson? : Json → Option Operation
  | .object members =>
    let get := Json.field members
    ofFields? (get ["type"]) (get ["params"]) (get ["keyspace"]) (get ["table", "columnfamily"])
      (get ["consistency"]) (get ["timeout"]) (get ["ttl"])
  | .array items =>
    if items.length ≤ 7 then
      let get (i : Nat) : Json.Field := (items[i]?).elim .absent .present
      ofFields? (get 0) (get 1) (get 2) (get 3) (get 4) (get 5) (get 6)
    else none
  | _ => none

/-- The members of an operation as a document. -/
def toMembers (operation : Operation) : List (String × Json) :=
  let o := operation.overrides
  let params := operation.params.entries.map fun (key, param) => (key, param.toJson)
  [("type", Json.text operation.kind.name)] ++
    (if params.isEmpty then [] else [("params", Json.object params)]) ++
    (o.keyspace.map fun s => ("keyspace", Json.text s)).toList ++
    (o.table.map fun s => ("table", Json.text s)).toList ++
    (o.consistency.map fun level => ("consistency", Json.text level.name)).toList ++
    (o.timeout.map fun n => ("timeout", Json.integer n.toNat)).toList ++
    (o.ttl.map fun n => ("ttl", Json.integer n.toNat)).toList

/-- An operation as a document. -/
def toJson (operation : Operation) : Json := .object operation.toMembers

end Operation

end OperationChain
