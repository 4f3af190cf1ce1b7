import OperationChain.Ordered.Map
import OperationChain.Number.Binary64
import OperationChain.Text.Numeral

/-! # JSON documents

A document as it was read: whole numbers of up to 64 bits stay exact, all others are
floating point numbers, and an object keeps its members in the order of the text,
repeated keys included. Whoever reads an object decides what a repeated key means.
-/

namespace OperationChain

/-- A JSON document. Whole numbers lie between `-2 ^ 63` and `2 ^ 64 - 1`. -/
inductive Json where
  | null
  | bool (value : Bool)
  | integer (value : Int)
  | float (value : Binary64)
  | text (value : String)
  | array (items : List Json)
  | object (members : List (String × Json))

instance : Inhabited Json := ⟨.null⟩

namespace Json

/-- The members of an object, by key in ascending order; of repeated keys the last
counts. -/
def fields (members : List (String × Json)) : List (String × Json) := Entries.ofList members

mutual

/-- The document with every object in key order and without repeated keys. -/
def sorted : Json → Json
  | array items => array (sortedItems items)
  | object members => object (fields (sortedMembers members))
  | other => other

def sortedItems : List Json → List Json
  | [] => []
  | item :: rest => sorted item :: sortedItems rest

def sortedMembers : List (String × Json) → List (String × Json)
  | [] => []
  | (key, value) :: rest => (key, sorted value) :: sortedMembers rest

end

/-- Reading an object with a fixed set of keys: what stands under `key`, unless the
key is repeated. -/
inductive Field where
  | absent
  | present (value : Json)
  | repeated

/-- What an object holds under any of `names`, which all mean the same member. -/
def field (members : List (String × Json)) (names : List String) : Field :=
  match members.filter fun member => names.contains member.1 with
  | [] => .absent
  | [(_, value)] => .present value
  | _ => .repeated

/-- A whole number in the range of signed words of 64 bits. -/
def int64? : Json → Option Int64
  | integer n => Numeral.toInt64? n
  | _ => none

/-- A whole number in the range of unsigned words of 64 bits. -/
def uint64? : Json → Option UInt64
  | integer n => Numeral.toUInt64? n
  | _ => none

/-- A whole number in the range of unsigned words of 32 bits. -/
def uint32? : Json → Option UInt32
  | integer n => Numeral.toUInt32? n
  | _ => none

def text? : Json → Option String
  | text s => some s
  | _ => none

end Json

end OperationChain
