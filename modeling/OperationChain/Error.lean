import OperationChain.Consistency.Basic
import OperationChain.DataType.Basic
import OperationChain.Extension.Shape
import OperationChain.Operation.Kind
import OperationChain.Text.Numeral
import OperationChain.Value.Basic

/-! # Errors

Every cause for which something fails, and the one message of each. Causes are
grouped as their messages are. An error that a capability raises is reported as one
of the extension, unless it already is one or is a timeout.
-/

namespace OperationChain

/-- Why an operation, a parameter or a value is not valid. -/
inductive Invalid where
  | missingParameter (kind : OperationKind) (key : String)
  | wrongParameter (kind : OperationKind) (key expected : String) (found : Value.Shape)
  | parameterNotUtf8 (kind : OperationKind) (key : String)
  | parameterNotInteger (kind : OperationKind) (key : String)
  | malformedMarker (keys : List String)
  | inParameter (key : String) (cause : Invalid)
  | noKeyspace
  | noTable
  | unknownOperation (name : String)
  | unknownConsistency (name : String)
  | unknownDataType (name : String)
  | unknownComponent (name : String)
  | unknownRole (name : String)
  | notComponentName (found : Value.Shape)
  | cannotHold (type : DataType) (found : Value.Shape)
  | outOfInt32 (value : Int)
  | notDecimal (text : String)
  | wrongWidth (type : DataType) (expected found : Nat)
  | notText (type : DataType)
  | notComponent (found : Value.Shape)
  | timestampNotInteger (found : Value.Shape)
  | ttlNotNatural (display : String)
  | timestampRequired
  | invalidTtl (seconds : Int)
  | invalidLimit (limit : Int)
  | invalidReplication (replication : Int)
  | batchRowNotMap (found : Value.Shape)
  | batchRowMissing (key : String)
  | batchRowNotText (key : String) (found : Value.Shape)
  | batchRowNotInteger (key : String) (found : Value.Shape)
  | inputNotIndex (display : String)
  | bindPosition (position : String)
  | bindsShape (found : Value.Shape)
  | other (text : String)
  deriving DecidableEq

/-- Why a result cannot be referred to. -/
inductive BadReference where
  | outOfRange (index : Int) (length : Nat)
  | pending (index : Nat)
  | pendingClear (index : Nat)
  | cleared (index : Nat)
  | bindOutside (position : Nat)
  | unbound (position : Nat)
  | noRowsField (index : Int) (field : String)
  | noRows (index : Int) (field : String)
  | notCarried (index : Int) (field : String)
  | noScalarField (index : Int) (field : String)
  | notRows (index : Int)
  | inParameter (key : String) (cause : BadReference)
  | other (text : String)
  deriving DecidableEq

/-- Why a store refuses a call. -/
inductive StoreFault where
  | unknownKeyspace (keyspace : String)
  | unknownTable (keyspace table : String)
  | keyspaceExists (keyspace : String)
  | tableExists (keyspace table : String)
  | noReplicas
  | anyForRead
  | unavailable (level : Consistency) (required live : UInt32)
  | notCounter (column : String)
  | counterOverflow
  | unsupportedVersion (version : String)
  | unsupportedStatement (statement : String)
  | statementLimit (statement : String)
  | statementKeyspace (statement : String)
  | other (text : String)
  deriving DecidableEq

/-- Why a capability cannot be registered, found or run. -/
inductive ExtensionFault where
  | unknownLoader (tag : String)
  | unknownSymbol (symbol : String)
  | symbolShape (symbol : String) (found wanted : Shape)
  | loaderShape (tag : String) (found wanted : Shape) (name : String)
  | unregistered (shape : Shape) (name : String)
  | registeredShape (name : String) (found : Shape)
  | cannotCompile (source : String)
  | malformed (near : String)
  | cannotBuild (shape : Shape)
  | panicked (shape : Shape) (name : String)
  | other (text : String)
  deriving DecidableEq

/-- Why a handle leads to nothing. -/
inductive StateFault where
  | unknownHandle (what : String) (handle : Nat)
  | notHandle (id : Int)
  | other (text : String)
  deriving DecidableEq

/-- Why something failed. -/
inductive Error where
  | validation (cause : Invalid)
  | reference (cause : BadReference)
  | timeout (millis : UInt64)
  | store (cause : StoreFault)
  | extension (cause : ExtensionFault)
  /-- An error that a capability raised, under the name of the capability. -/
  | within (what : String) (inner : Error)
  /-- An error that stopped the chain of a service process at one of its steps. -/
  | failedStep (process : String) (step : Nat) (inner : Error)
  | state (cause : StateFault)
  | config (text : String)
  | lock (text : String)
  deriving DecidableEq

namespace Invalid

/-- What is wrong, in words. -/
def message : Invalid → String
  | missingParameter kind key => s!"{kind.name}: missing required parameter '{key}'"
  | wrongParameter kind key expected found =>
    s!"{kind.name}: parameter '{key}' must be {expected}, got {found.name}"
  | parameterNotUtf8 kind key => s!"{kind.name}: parameter '{key}' is not valid UTF-8"
  | parameterNotInteger kind key => s!"{kind.name}: parameter '{key}' is not an integer"
  | malformedMarker keys =>
    "malformed reference or bind marker with keys [" ++ String.intercalate ", " keys ++ "]"
  | inParameter key cause => s!"parameter '{key}': " ++ cause.message
  | noKeyspace => "no keyspace has been set"
  | noTable => "no table has been set"
  | unknownOperation name => s!"unknown operation type '{name}'"
  | unknownConsistency name => s!"unknown consistency level '{name}'"
  | unknownDataType name => s!"unknown data type '{name}'"
  | unknownComponent name => s!"unknown row component '{name}'"
  | unknownRole name => s!"assumption role must be name, column or value, not '{name}'"
  | notComponentName found => s!"component_select expects component names, got {found.name}"
  | cannotHold type found => s!"{type.name} cannot hold a {found.name} value"
  | outOfInt32 value => Numeral.ofInt value ++ " is out of range for Int32Type"
  | notDecimal text => s!"'{text}' is not a decimal"
  | wrongWidth type expected found =>
    s!"{type.name} expects {Numeral.ofInt expected} bytes, found {Numeral.ofInt found}"
  | notText type => s!"bytes are not valid {type.name}"
  | notComponent found => s!"a {found.name} cannot be stored as a column component"
  | timestampNotInteger found => s!"timestamp must be an integer, got {found.name}"
  | ttlNotNatural display => s!"ttl must be a non-negative integer, got {display}"
  | timestampRequired => "a timestamp is required unless auto-timestamp is enabled"
  | invalidTtl seconds => "invalid ttl " ++ Numeral.ofInt seconds
  | invalidLimit limit => "slice: invalid limit " ++ Numeral.ofInt limit
  | invalidReplication replication =>
    "create_keyspace: invalid replication " ++ Numeral.ofInt replication
  | batchRowNotMap found => s!"batch_set: each row must be a map, got {found.name}"
  | batchRowMissing key => s!"batch_set: row is missing '{key}'"
  | batchRowNotText key found => s!"batch_set: '{key}' must be text, got {found.name}"
  | batchRowNotInteger key found => s!"batch_set: '{key}' must be an integer, got {found.name}"
  | inputNotIndex display => s!"multi_process: input '{display}' is not an index"
  | bindPosition position => s!"bind position '{position}' is not a number"
  | bindsShape found => s!"binds must be a list or a map, got {found.name}"
  | other text => text

end Invalid

namespace BadReference

/-- What is wrong, in words. -/
def message : BadReference → String
  | outOfRange index length =>
    s!"operation index {Numeral.ofInt index} is out of range for a chain of " ++
      s!"{Numeral.ofInt length} operations"
  | pending index => s!"operation {Numeral.ofInt index} has not been executed yet"
  | pendingClear index =>
    s!"operation {Numeral.ofInt index} has not been executed yet and cannot be cleared"
  | cleared index => s!"the result of operation {Numeral.ofInt index} has been cleared"
  | bindOutside position =>
    s!"bind marker {Numeral.ofInt position} can only be resolved by execute_prepared"
  | unbound position => "no value was bound to position " ++ Numeral.ofInt position
  | noRowsField index field =>
    s!"operation {Numeral.ofInt index} returned rows, which have no field '{field}'"
  | noRows index field =>
    s!"operation {Numeral.ofInt index} returned no rows to take '{field}' from"
  | notCarried index field =>
    s!"the first row of operation {Numeral.ofInt index} carries no '{field}'"
  | noScalarField index field =>
    s!"operation {Numeral.ofInt index} returned a scalar, which has no field '{field}'"
  | notRows index => s!"operation {Numeral.ofInt index} did not return rows"
  | inParameter key cause => s!"parameter '{key}': " ++ cause.message
  | other text => text

end BadReference

namespace StoreFault

/-- What is wrong, in words. -/
def message : StoreFault → String
  | unknownKeyspace keyspace => s!"Keyspace '{keyspace}' does not exist"
  | unknownTable keyspace table => s!"Table '{keyspace}.{table}' does not exist"
  | keyspaceExists keyspace => s!"Keyspace '{keyspace}' already exists"
  | tableExists keyspace table => s!"Table '{keyspace}.{table}' already exists"
  | noReplicas => "replication factor must be at least 1"
  | anyForRead => "consistency level ANY is not supported for reads"
  | unavailable level required live =>
    s!"unavailable: {level.name} requires {Numeral.ofInt required.toNat} replicas but only " ++
      s!"{Numeral.ofInt live.toNat} are alive"
  | notCounter column => s!"column '{column}' does not hold a counter"
  | counterOverflow => "counter overflow"
  | unsupportedVersion version => s!"unsupported protocol version '{version}'"
  | unsupportedStatement statement => s!"unsupported statement: {statement}"
  | statementLimit statement => s!"invalid limit in statement: {statement}"
  | statementKeyspace statement => s!"no keyspace given for statement: {statement}"
  | other text => text

end StoreFault

namespace ExtensionFault

/-- What is wrong, in words. -/
def message : ExtensionFault → String
  | unknownLoader tag => s!"no loader registered for tag '{tag}'"
  | unknownSymbol symbol => s!"no native symbol named '{symbol}'"
  | symbolShape symbol found wanted =>
    s!"native symbol '{symbol}' is a {found.name}, not a {wanted.name}"
  | loaderShape tag found wanted name =>
    s!"loader '{tag}' produced a {found.name} for {wanted.name} '{name}'"
  | unregistered shape name => s!"no {shape.name} registered under the name '{name}'"
  | registeredShape name found => s!"'{name}' is a {found.name}"
  | cannotCompile source => s!"cannot compile '{source}'"
  | malformed near => s!"malformed expression near {near}"
  | cannotBuild shape => s!"the expression loader cannot build a {shape.name}"
  | panicked shape name => s!"{shape.name} '{name}' panicked"
  | other text => text

end ExtensionFault

namespace StateFault

/-- What is wrong, in words. -/
def message : StateFault → String
  | unknownHandle what handle => s!"unknown {what} handle {Numeral.ofInt handle}"
  | notHandle id => "unknown handle " ++ Numeral.ofInt id
  | other text => text

end StateFault

namespace Error

/-- The message of an error, as it is reported. -/
def message : Error → String
  | validation cause => "Validation error: " ++ cause.message
  | reference cause => "Reference error: " ++ cause.message
  | timeout millis =>
    s!"Timeout: operation did not complete within {Numeral.ofInt millis.toNat} ms"
  | store cause => "Backend error: " ++ cause.message
  | extension cause => "Extension error: " ++ cause.message
  | within what inner => s!"Extension error: {what}: " ++ inner.message
  | failedStep process step inner =>
    s!"Extension error: service process '{process}' failed at step {Numeral.ofInt step}: " ++
      inner.message
  | state cause => "State error: " ++ cause.message
  | config text => "Config error: " ++ text
  | lock text => "Lock poisoned: " ++ text

/-- The groups of errors, which tell a caller what kind of thing went wrong. -/
inductive Kind where
  | validation | reference | timeout | store | extension | state | config | lock
  deriving DecidableEq, Repr

def kind : Error → Kind
  | validation _ => .validation
  | reference _ => .reference
  | timeout _ => .timeout
  | store _ => .store
  | extension _ | within _ _ | failedStep _ _ _ => .extension
  | state _ => .state
  | config _ => .config
  | lock _ => .lock

/-- Reports an error that arose inside the capability `what` as one of the
extension. An error that already is one keeps its message, and so does a timeout. -/
def withinExtension (error : Error) (what : String) : Error :=
  match error.kind with
  | .extension | .timeout => error
  | _ => within what error

end Error

end OperationChain
