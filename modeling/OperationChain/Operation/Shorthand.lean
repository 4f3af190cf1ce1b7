import OperationChain.Extension.Shape
import OperationChain.Operation.Request
import OperationChain.Row.Component

/-! # Building requests

Shorthands for the common operations, each under the keys that its kind reads, and
the steps by which a request is put together.
-/

namespace OperationChain

namespace Operation

/-- The operation of a kind with literal parameters. -/
def ofLiterals (kind : OperationKind) (params : List (String × Value)) : Operation :=
  params.foldl (fun operation entry => operation.literal entry.1 entry.2) { kind }

/-- An unsigned word of 32 bits as a value. -/
def ofWord (n : UInt32) : Value := .int (Int64.ofNat n.toNat)

def setKeyspace (keyspace : String) : Operation :=
  ofLiterals .setKeyspace [("keyspace", .text keyspace)]

def setTable (table : String) : Operation := ofLiterals .setTable [("table", .text table)]

def setConsistency (level : Consistency) : Operation :=
  ofLiterals .setConsistency [("level", .text level.name)]

def setAutoTimestamp (enabled : Bool) : Operation :=
  ofLiterals .setAutoTimestamp [("enabled", .bool enabled)]

def assume (role type : String) : Operation :=
  ofLiterals .assume [("role", .text role), ("type", .text type)]

def createKeyspace (name : String) (replication : UInt32) : Operation :=
  ofLiterals .createKeyspace [("name", .text name), ("replication", ofWord replication)]

def createTable (name : String) : Operation := ofLiterals .createTable [("name", .text name)]

def get (rowkey name : Param) : Operation :=
  (({ kind := .get } : Operation).param "rowkey" rowkey).param "name" name

def set (rowkey name value : Param) : Operation :=
  ((({ kind := .set } : Operation).param "rowkey" rowkey).param "name" name).param "value" value

def slice (rowkey start finish : Param) (limit : UInt32) : Operation :=
  (((ofLiterals .slice [("limit", ofWord limit)]).param "rowkey" rowkey).param "start" start).param
    "end" finish

def counter (rowkey name : Param) (delta : Int64) : Operation :=
  ((ofLiterals .counter [("delta", .int delta)]).param "rowkey" rowkey).param "name" name

/-- The kind that registers a capability of a shape. -/
def registration : Shape → OperationKind
  | .filter => .createFilter
  | .processor => .createProcessor
  | .multiProcessor => .createMultiProcessor
  | .serviceProcess => .createServiceProcess

/-- Registers a capability that a loader compiles from a source. -/
def createCapability (shape : Shape) (name loader source : String) : Operation :=
  ofLiterals (registration shape)
    [("name", .text name), ("loader", .text loader), ("source", .text source)]

def filterMode (name : String) (enabled : Bool) : Operation :=
  ofLiterals .filterMode [("name", .text name), ("enabled", .bool enabled)]

def process (name : String) (input : Int64) : Operation :=
  ofLiterals .process [("name", .text name), ("input", .int input)]

def saveState : Operation := { kind := .saveState }

/-- Restores a saved state. The handle is written as a signed word. -/
def restoreState (id : UInt64) : Operation := ofLiterals .restoreState [("id", .int id.toInt64)]

/-- Clears the result of an operation. The index is written as a signed word. -/
def clear (index : UInt64) : Operation := ofLiterals .clear [("index", .int index.toInt64)]

def componentSelect (components : List Component) : Operation :=
  ofLiterals .componentSelect
    [("components", .list (components.map fun component => .text component.key))]

def withKeyspace (operation : Operation) (keyspace : String) : Operation :=
  { operation with overrides.keyspace := some keyspace }

def withTable (operation : Operation) (table : String) : Operation :=
  { operation with overrides.table := some table }

def withConsistency (operation : Operation) (level : Consistency) : Operation :=
  { operation with overrides.consistency := some level }

def withTimeout (operation : Operation) (millis : UInt64) : Operation :=
  { operation with overrides.timeout := some millis }

def withTtl (operation : Operation) (seconds : UInt32) : Operation :=
  { operation with overrides.ttl := some seconds }

end Operation

namespace Request

/-- The request with one more operation at its end. -/
def add (request : Request) (operation : Operation) : Request :=
  { request with operations := request.operations ++ [operation] }

def withConsistency (request : Request) (level : Consistency) : Request :=
  { request with consistency := some level }

/-- The request that starts from a saved state. -/
def restoring (request : Request) (handle : UInt64) : Request :=
  { request with restore := some handle }

end Request

end OperationChain
