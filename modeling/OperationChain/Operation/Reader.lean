import OperationChain.Json.Reader
import OperationChain.Operation.Request

/-! # Operations and requests in JSON text

A request is read while its text is gone through, and its first fault counts: a text
that breaks off behind a member that cannot stand there does not fit, and one that
breaks off before it is broken. Unknown members of an operation are passed over
unread.
-/

namespace OperationChain

namespace Operation

/-- The place of a member among the seven of an operation, by its key. -/
def place? : String → Option Nat
  | "type" => some 0
  | "params" => some 1
  | "keyspace" => some 2
  | "table" => some 3
  | "columnfamily" => some 3
  | "consistency" => some 4
  | "timeout" => some 5
  | "ttl" => some 6
  | _ => none

/-- Whether a document can stand at a place of an operation. -/
def fits (place : Nat) (json : Json) : Bool :=
  match place with
  | 0 => json.text?.isSome
  | 1 => (params? (.present json)).isSome
  | 2 => (override? Json.text? (.present json)).isSome
  | 3 => (override? Json.text? (.present json)).isSome
  | 4 => (override? consistency? (.present json)).isSome
  | 5 => (override? Json.uint64? (.present json)).isSome
  | 6 => (override? Json.uint32? (.present json)).isSome
  | _ => false

/-- Reads what stands at a place of an operation. An array breaks where it goes on
after the last place. -/
def memberAt (depth place : Nat) : Json.Part Json :=
  if place < 7 then Json.fitting (place == 1) (fits place) depth else fun _ => .error .broken

/-- How the value under a key is read after the `earlier` members. A member cannot
be given twice. -/
def memberOf (depth : Nat) (earlier : List (String × Json)) (key : String) :
    Except Json.Fault (Json.Part Json) :=
  match place? key with
  | none => .ok fun cs => (Json.passed cs).map fun (_, after) => (.null, after)
  | some place =>
    if earlier.any fun member => place? member.1 == some place then .error .unfit
    else .ok (memberAt depth place)

/-- An operation that a document describes, with what follows it. -/
def settled (found : Json × List Char) : Except Json.Fault (Operation × List Char) :=
  match ofJson? found.1 with
  | some operation => .ok (operation, found.2)
  | none => .error .unfit

/-- Reads an operation that nests at most `depth` deep. -/
def read : (depth : Nat) → Json.Part Operation
  | depth + 1, '[' :: rest => do
    let (items, after) ← Json.bracketed (fun earlier => memberAt depth earlier.length) ']' rest
    settled (.array items, after)
  | depth + 1, '\x7b' :: rest => do
    let (members, after) ←
      Json.bracketed (fun earlier => Json.member (memberOf depth earlier)) '\x7d' rest
    settled (.object members, after)
  | depth, cs => Json.unfitting depth cs

/-- The operation that a text holds, if it holds one and nothing else. -/
def ofText? (s : String) : Option Operation := Json.whole? (read Json.nestingLimit) s

end Operation

namespace Request

/-- A member of a request: its operations, or a hint that is looked at when all
members are there. -/
inductive Member where
  | operations (found : List Operation)
  | hint (key : String) (found : Json)

/-- Reads the operations of a request. -/
def readOperations : (depth : Nat) → Json.Part Member
  | depth + 1, '[' :: rest => do
    let (found, after) ← Json.bracketed (fun _ => Operation.read depth) ']' rest
    return (.operations found, after)
  | depth, cs => Json.unfitting depth cs

/-- How the value under a key is read after the `earlier` members. Operations cannot
be given twice. -/
def memberOf (depth : Nat) (earlier : List (String × Member)) (key : String) :
    Except Json.Fault (Json.Part Member) :=
  if key = "operations" then
    if earlier.any (·.1 == key) then .error .unfit else .ok (readOperations depth)
  else .ok fun cs => (Json.value depth cs).map fun (json, after) => (.hint key json, after)

/-- The operations among the members of a request. -/
def operationsOf (members : List (String × Member)) : List Operation :=
  members.flatMap fun
    | (_, .operations found) => found
    | _ => []

/-- The hints among the members of a request. -/
def hintsOf (members : List (String × Member)) : List (String × Json) :=
  members.filterMap fun
    | (_, .hint key json) => some (key, json)
    | _ => none

/-- Reads a request that nests at most `depth` deep. -/
def read : (depth : Nat) → Json.Part Request
  | depth + 1, '\x7b' :: rest => do
    let (members, after) ←
      Json.bracketed (fun earlier => Json.member (memberOf depth earlier)) '\x7d' rest
    match ofJson? (.object (hintsOf members)) with
    | some request => return ({ request with operations := operationsOf members }, after)
    | none => throw .unfit
  | depth, cs => Json.unfitting depth cs

/-- The request that a text holds, if it holds one and nothing else. -/
def ofText? (s : String) : Option Request := Json.whole? (read Json.nestingLimit) s

end Request

end OperationChain
