import OperationChain.Extension.Loader
import OperationChain.Operation.Wire
import OperationChain.Text.Case

/-! # A catalog of host capabilities

Capabilities that a host provides under symbols: simple filters, processors and
combiners, service processes that build a chain from their parameters, and some of
each shape that fail or stop short, so that every way in which a capability can end
has an example.
-/

namespace OperationChain.Catalog

/-- Every row gets another value, if it carries one. -/
def onValues (change : Value → Value) : Processor where
  process rows := .ok (rows.map fun row => { row with value := row.value.map change })

/-- A filter that never stops short. -/
def choosing (accept : Row → Bool) : Capability := .filter { accept row := some (accept row) }

/-- A processor that never fails. -/
def mapping (process : List Row → List Row) : Capability :=
  .processor { process rows := .ok (process rows) }

def filters : List (String × Capability) :=
  [ ("everything", choosing fun _ => true),
    ("nothing", choosing fun _ => false),
    ("has_ttl", choosing fun row => row.ttl.isSome),
    ("panic_filter", .filter { accept _ := none }) ]

def processors : List (String × Capability) :=
  [ ("capitalize", .processor (onValues fun value => .text (Text.upper value.display))),
    ("reverse", mapping List.reverse),
    ("drop", mapping fun _ => []),
    ("listify", .processor (onValues fun value => .list [value, value])),
    ("blank", mapping fun rows => rows.map fun _ => {}),
    ("fail_extension", .processor
      { process _ := .error (.failed (.extension (.other "already mine"))) }),
    ("panic", .processor { process _ := .error .panicked }),
    ("sleepy", .processor { process := .ok, delay := 80 }) ]

/-- A row with a name and a value. -/
def row (name : String) (value : Value) : Row := { name := some (.text name), value := some value }

/-- At most as many rows as the parameter `limit` says, if it is a whole number and
not negative. -/
def limited (params : List (String × Value)) (rows : List Row) : List Row :=
  match (Entries.find? "limit" params).bind Value.int? with
  | some limit => if 0 ≤ limit.toInt then rows.take limit.toInt.toNat else rows
  | none => rows

def combiners : List (String × Capability) :=
  [ ("union", .multiProcessor
      { combine inputs params := .ok (limited params (inputs.flatMap fun input => input.2)) }),
    ("counts", .multiProcessor
      { combine inputs _ :=
          .ok (inputs.map fun input => row input.1 (.int (Int64.ofInt input.2.length))) }),
    ("echo", .multiProcessor
      { combine _ params := .ok (params.map fun param => row param.1 param.2) }),
    ("fail", .multiProcessor
      { combine _ _ := .error (.failed (.reference (.other "nothing here"))) }),
    ("panic_multi", .multiProcessor { combine _ _ := .error .panicked }) ]

/-- Fails as a parameter that is not valid. -/
def invalid {α : Type} (text : String) : Except Fault α :=
  .error (.failed (.validation (.other text)))

/-- Writes a column and reads it back. -/
def writeAndRead (params : List (String × Value)) : Except Fault (List Operation) :=
  match Entries.find? "rowkey" params with
  | none => invalid "rowkey is required"
  | some rowkey =>
    let value := (Entries.find? "value" params).getD (.text "default")
    let column (kind : OperationKind) : Operation :=
      (({ kind } : Operation).literal "rowkey" rowkey).literal "name" (.text "service")
    .ok [(column .set).literal "value" value, column .get]

/-- Reads from a table that need not be there. -/
def broken : List Operation :=
  let get :=
    (({ kind := .get } : Operation).literal "rowkey" (.text "r")).literal "name" (.text "c")
  [({ kind := .setKeyspace } : Operation).literal "keyspace" (.text "ks"),
    { get with overrides := { table := some "missing" } }]

/-- Runs the operations that the parameter `ops` lists as documents. -/
def script (params : List (String × Value)) : Except Fault (List Operation) :=
  match ((Entries.find? "ops" params).getD (.list [])).toJson with
  | .array items =>
    match items.mapM Operation.ofJson? with
    | some operations => .ok operations
    | none => invalid "script does not parse"
  | _ => invalid "script does not parse"

def serviceProcesses : List (String × Capability) :=
  [ ("write_and_read", .serviceProcess ⟨writeAndRead⟩),
    ("broken", .serviceProcess ⟨fun _ => .ok broken⟩),
    ("script", .serviceProcess ⟨script⟩),
    ("refuse", .serviceProcess ⟨fun _ => .error (.failed (.extension (.other "refused")))⟩),
    ("panic_service", .serviceProcess ⟨fun _ => .error .panicked⟩) ]

/-- All symbols of the catalog. -/
def symbols : Map String Capability :=
  Map.ofList (filters ++ processors ++ combiners ++ serviceProcesses)

/-- Compiles the symbols of the catalog. -/
def loader : Loader := Loader.symbols symbols

/-- A registry whose symbols are those of the catalog, with a loader that refuses
every source and one that takes every source for a filter. -/
def registry : Registry :=
  ((Registry.standard.addLoader Loader.nativeTag loader).addLoader "refuse"
    (.refusing fun source => .validation (.other ("refused " ++ source)))).addLoader "always_filter"
    (.always (choosing fun _ => true))

end OperationChain.Catalog
