/-! # Consistency levels

How many replicas have to answer an operation.
-/

namespace OperationChain

/-- A consistency level. -/
inductive Consistency where
  | any | one | two | three | quorum | localQuorum | eachQuorum | localOne | all
  deriving DecidableEq, Repr

namespace Consistency

/-- The name of a level. -/
def name : Consistency → String
  | any => "ANY"
  | one => "ONE"
  | two => "TWO"
  | three => "THREE"
  | quorum => "QUORUM"
  | localQuorum => "LOCAL_QUORUM"
  | eachQuorum => "EACH_QUORUM"
  | localOne => "LOCAL_ONE"
  | all => "ALL"

/-- All levels. -/
def levels : List Consistency :=
  [any, one, two, three, quorum, localQuorum, eachQuorum, localOne, all]

/-- The replicas that have to answer in a keyspace with this replication. A quorum
is more than half. -/
def required (level : Consistency) (replication : UInt32) : UInt32 :=
  match level with
  | any => 0
  | one | localOne => 1
  | two => 2
  | three => 3
  | quorum | localQuorum | eachQuorum => replication / 2 + 1
  | all => replication

end Consistency

end OperationChain
