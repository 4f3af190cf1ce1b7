import OperationChain.Ordered.Map
import OperationChain.Number.Decimal
import OperationChain.Text.Utf8

/-! # Dynamic values

What parameters carry and what the name and value of a row are. A map lists its
entries in ascending order of their keys; `Value.ofEntries` builds one from entries
in any order.
-/

namespace OperationChain

/-- A dynamically typed value. -/
inductive Value where
  | null
  | bool (value : Bool)
  | int (value : Int64)
  | float (value : Binary64)
  | text (value : String)
  | bytes (value : Bytes)
  | decimal (value : Decimal)
  | list (items : List Value)
  | map (entries : List (String × Value))

instance : Inhabited Value := ⟨.null⟩

namespace Value

/-- The shapes that a value can have. -/
inductive Shape where
  | null | bool | int | float | text | bytes | decimal | list | map
  deriving DecidableEq, Repr

/-- What a shape is called in messages. -/
def Shape.name : Shape → String
  | null => "null"
  | bool => "bool"
  | int => "int"
  | float => "float"
  | text => "text"
  | bytes => "bytes"
  | decimal => "decimal"
  | list => "list"
  | map => "map"

def shape : Value → Shape
  | null => .null
  | bool _ => .bool
  | int _ => .int
  | float _ => .float
  | text _ => .text
  | bytes _ => .bytes
  | decimal _ => .decimal
  | list _ => .list
  | map _ => .map

def isNull : Value → Bool
  | null => true
  | _ => false

/-- The map with these entries; of several with one key the last counts. -/
def ofEntries (entries : List (String × Value)) : Value := map (Entries.ofList entries)

def text? : Value → Option String
  | text s => some s
  | _ => none

def bool? : Value → Option Bool
  | bool b => some b
  | _ => none

def list? : Value → Option (List Value)
  | list items => some items
  | _ => none

def map? : Value → Option (List (String × Value))
  | map entries => some entries
  | _ => none

/-- A whole number held to the range of words of 64 bits: what lies outside becomes
the nearest bound. -/
def clampInt64 (n : Int) : Int64 :=
  Int64.ofInt (max (-0x8000000000000000) (min n 0x7FFFFFFFFFFFFFFF))

/-- The whole number that a value is. A floating point number without fraction is
one as well, held to the range of words of 64 bits. -/
def int? : Value → Option Int64
  | int n => some n
  | float x => x.toInt?.map clampInt64
  | _ => none

mutual

/-- Equality of values. Numbers of one shape are equal as numbers, so a floating
point value that is not a number differs from itself and a decimal equals its copy
with more zeros. -/
def equal : Value → Value → Bool
  | null, null => true
  | bool a, bool b => a == b
  | int a, int b => a == b
  | float a, float b => a.equal b
  | text a, text b => a == b
  | bytes a, bytes b => a == b
  | decimal a, decimal b => a.equal b
  | list a, list b => equalItems a b
  | map a, map b => equalEntries a b
  | _, _ => false

def equalItems : List Value → List Value → Bool
  | [], [] => true
  | a :: as, b :: bs => equal a b && equalItems as bs
  | _, _ => false

def equalEntries : List (String × Value) → List (String × Value) → Bool
  | [], [] => true
  | (j, a) :: as, (k, b) :: bs => j == k && equal a b && equalEntries as bs
  | _, _ => false

end

end Value

end OperationChain
