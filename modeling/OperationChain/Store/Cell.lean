import OperationChain.Error
import OperationChain.Row.Basic

/-! # Stored columns

A column as a store holds and returns it, a write to one, and the rules that every
store shares: when a column has expired, which names a slice takes, and how many
replicas have to be alive.
-/

namespace OperationChain

/-- A stored column, its name and value still encoded. -/
structure Cell where
  name : Bytes
  value : Bytes
  timestamp : Timestamp
  ttl : Option UInt32
  deriving DecidableEq, Repr

/-- A table of a keyspace. -/
@[ext]
structure TableName where
  keyspace : String
  table : String
  deriving DecidableEq, Repr

/-- A write to one column of a row. -/
structure Mutation where
  target : TableName
  rowkey : Bytes
  cell : Cell
  deriving DecidableEq, Repr

/-- The names from `start` to `finish`, both included; an empty bound is open. At
most `limit` columns are taken. -/
structure SliceRange where
  start : Bytes
  finish : Bytes
  limit : Nat
  deriving DecidableEq, Repr

/-- Whether a name lies between the bounds. Names are compared byte by byte. -/
def SliceRange.contains (range : SliceRange) (name : Bytes) : Bool :=
  (range.start.isEmpty || (compare range.start name).isLE) &&
    (range.finish.isEmpty || (compare name range.finish).isLE)

/-- Whether a column written at `timestamp` with a time to live has expired. The end
of its life is held to the range of timestamps. -/
def expired (timestamp : Timestamp) (ttl : Option UInt32) (now : Timestamp) : Bool :=
  match ttl with
  | none => false
  | some seconds => min (timestamp.toInt + seconds.toNat * 1000000) Int64.maxValue.toInt ≤ now.toInt

/-- Whether a column can be read. -/
def Cell.isLive (cell : Cell) (now : Timestamp) : Bool := !expired cell.timestamp cell.ttl now

/-- Fails where fewer replicas are alive than a level needs. Reads do not have the
level that needs none. -/
def checkConsistency (level : Consistency) (replication nodes : UInt32) (reading : Bool) :
    Except Error Unit :=
  let live := min replication nodes
  let required := level.required replication
  if reading && level = .any then .error (.store .anyForRead)
  else if live < required then .error (.store (.unavailable level required live))
  else .ok ()

end OperationChain
