import OperationChain.Row.Component
import OperationChain.Value.Document

/-! # Rows

One column of a result: its name, value, timestamp and time to live, each of which
may be left out.
-/

namespace OperationChain

/-- Microseconds since the epoch. -/
abbrev Timestamp := Int64

/-- One column of a result. What a selection has left out, or a store does not hold,
is absent. -/
structure Row where
  name : Option Value := none
  value : Option Value := none
  timestamp : Option Timestamp := none
  ttl : Option UInt32 := none

namespace Row

instance : Inhabited Row := ⟨{}⟩

/-- A component as a value. -/
def component (row : Row) : Component → Option Value
  | .name => row.name
  | .value => row.value
  | .timestamp => row.timestamp.map .int
  | .ttl => row.ttl.map fun seconds => .int (Int64.ofInt seconds.toNat)

/-- The row with another value for a component. A timestamp has to be a whole
number, a time to live one of 32 bits without sign. -/
def setComponent (row : Row) (component : Component) (value : Value) : Except Error Row :=
  match component with
  | .name => .ok { row with name := some value }
  | .value => .ok { row with value := some value }
  | .timestamp =>
    match value.int? with
    | some n => .ok { row with timestamp := some n }
    | none => .error (.validation (.timestampNotInteger value.shape))
  | .ttl =>
    match value.int?.bind fun n => Numeral.toUInt32? n.toInt with
    | some seconds => .ok { row with ttl := some seconds }
    | none => .error (.validation (.ttlNotNatural value.display))

/-- The row with only the components that are kept. -/
def select (row : Row) (keep : List Component) : Row where
  name := if keep.contains .name then row.name else none
  value := if keep.contains .value then row.value else none
  timestamp := if keep.contains .timestamp then row.timestamp else none
  ttl := if keep.contains .ttl then row.ttl else none

/-- The components that a row carries, by key. -/
def entries (row : Row) : List (String × Value) :=
  Component.all.filterMap fun c => (row.component c).map fun v => (c.key, v)

/-- A row as a map from the keys of its components. -/
def toValue (row : Row) : Value := .ofEntries row.entries

/-- A row as a document with a member for each component that it carries. -/
def toJson (row : Row) : Json :=
  .object (row.entries.map fun (key, value) => (key, value.toJson))

/-- A component that may be absent or null. -/
def optional {α : Type} (read : Json → Option α) : Json.Field → Option (Option α)
  | .absent => some none
  | .present .null => some none
  | .present json => (read json).map some
  | .repeated => none

/-- The row that a document describes: an object with the keys of the components, or
an array with the components in their order. -/
def ofJson? : Json → Option Row
  | .object members => do
    let get (c : Component) : Json.Field := Json.field members [c.key]
    some {
      name := ← optional (some ∘ Value.ofJson) (get .name)
      value := ← optional (some ∘ Value.ofJson) (get .value)
      timestamp := ← optional Json.int64? (get .timestamp)
      ttl := ← optional Json.uint32? (get .ttl) }
  | .array items =>
    if items.length ≤ 4 then do
      let get (i : Nat) : Json.Field := (items[i]?).elim .absent .present
      some {
        name := ← optional (some ∘ Value.ofJson) (get 0)
        value := ← optional (some ∘ Value.ofJson) (get 1)
        timestamp := ← optional Json.int64? (get 2)
        ttl := ← optional Json.uint32? (get 3) }
    else none
  | _ => none

end Row

end OperationChain
