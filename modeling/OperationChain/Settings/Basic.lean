import OperationChain.Consistency.Parse
import OperationChain.Engine.Basic
import OperationChain.Extension.Loader
import OperationChain.Number.Shortest
import OperationChain.Settings.Environment
import OperationChain.Settings.Tree
import OperationChain.Store.Storage

/-! # Settings

What a host can choose: defaults, over them a file, and over both the environment. A
setting that wants text takes numbers and truth values as well; one that wants a
number takes texts, truth values and rounded floating point numbers, as long as it
is in range.
-/

namespace OperationChain

/-- The choices of a host. -/
structure Settings where
  /-- The address that the service listens on. -/
  bind : String
  /-- The budget of an operation that names none, in milliseconds. -/
  timeout : UInt64
  /-- The name of the consistency level of a session whose request names none. -/
  consistency : String
  mode : StorageMode
  /-- The file that keeps the store between runs of the host. -/
  path : Option String
  /-- The number of live replicas. -/
  nodes : UInt32
  /-- Which messages go to the log. -/
  logFilter : String
  deriving DecidableEq, Repr

namespace Settings

/-- The settings where nothing else is said. -/
def defaults : Json :=
  .object [
    ("engine", .object
      [("default_consistency", .text "ONE"), ("default_timeout_ms", .integer 10000)]),
    ("log", .object [("filter", .text "intravert=info")]),
    ("server", .object [("bind", .text "127.0.0.1:8080")]),
    ("storage", .object [("mode", .text "memory"), ("nodes", .integer 1)]) ]

/-- Lays settings over a tree, each under its name. -/
def putAll (tree : Json) (settings : List (String × Json)) : Json :=
  settings.foldl (fun tree (name, value) => put tree name value) tree

/-- A group of settings: a table, or a list of the values of its keys in their order. -/
def group? (tree : Json) (name : String) (keys : List String) : Option (String → Option Json) :=
  match Entries.find? name (members (some tree)) with
  | some (.object members) => some fun key => Entries.find? key members
  | some (.array items) => some fun key => items[keys.idxOf key]?
  | _ => none

/-- Reads a setting as text. -/
def text? : Json → Option String
  | .text s => some s
  | .bool b => some (if b then "true" else "false")
  | .integer n => some (Numeral.ofInt n)
  | .float x => some x.plainText
  | _ => none

/-- A number held to the range of unsigned words of 64 bits. -/
def clampUInt64 (n : Int) : Nat := (min n (UInt64.size - 1 : Nat)).toNat

/-- Reads a setting as a number of 64 bits. Floating point numbers are rounded and
held to the range. -/
def natural? : Json → Option Nat
  | .integer n => if n < 0 then none else some n.toNat
  | .float x =>
    if x.isNaN then some 0
    else if x.isFinite then some (clampUInt64 x.roundAway)
    else some (if x.isNegative then 0 else UInt64.size - 1)
  | .bool b => some (if b then 1 else 0)
  | .text s =>
    match String.ofList (s.toList.map Char.toLower) with
    | "true" => some 1
    | "on" => some 1
    | "yes" => some 1
    | "false" => some 0
    | "off" => some 0
    | "no" => some 0
    | _ => (Numeral.unsigned? s.toList).filter (· < UInt64.size)
  | _ => none

/-- Reads a setting as a storage mode: its name, or a table with this one key. -/
def mode? : Json → Option StorageMode
  | .text name => StorageMode.ofName? name
  | .object [(name, _)] => StorageMode.ofName? name
  | _ => none

/-- Reads a setting that may be absent or null as text. -/
def optionalText? : Option Json → Option (Option String)
  | none => some none
  | some .null => some none
  | some value => (text? value).map some

/-- The settings that a tree holds, if every one of them can be read. -/
def ofTree? (tree : Json) : Option Settings := do
  let server ← group? tree "server" ["bind"]
  let engine ← group? tree "engine" ["default_timeout_ms", "default_consistency"]
  let storage ← group? tree "storage" ["mode", "path", "nodes"]
  let log ← group? tree "log" ["filter"]
  let timeout ← natural? (← engine "default_timeout_ms")
  let nodes ← natural? (← storage "nodes")
  some {
    bind := ← text? (← server "bind")
    timeout := ← Numeral.toUInt64? timeout
    consistency := ← text? (← engine "default_consistency")
    mode := ← mode? (← storage "mode")
    path := ← optionalText? (storage "path")
    nodes := ← Numeral.toUInt32? nodes
    logFilter := ← text? (← log "filter") }

/-- The settings of the file, which has to hold a table. -/
def fileSettings (file : Option Json) (required : Bool) : Except Error (List (String × Json)) :=
  match file with
  | some (.object members) => .ok members
  | some _ => .error (.config "the settings file does not hold a table")
  | none => if required then .error (.config "the settings file does not exist") else .ok []

/-- The settings of a host with this file, which has to exist if it is `required`,
and this environment. The environment is laid over the file before both are laid
over the defaults, so a table that it puts in the place of a list is filled up by
the defaults. -/
def load (file : Option Json) (required : Bool) (environment : List (String × String)) :
    Except Error Settings := do
  let fromFile := putAll (.object []) (← fileSettings file required)
  let chosen := putAll fromFile (ofEnvironment environment)
  match ofTree? (overlay (some defaults) chosen) with
  | some settings => return settings
  | none => throw (.config "a setting cannot be read")

/-- The consistency level of a session whose request names none. -/
def level (settings : Settings) : Except Error Consistency := Consistency.parse settings.consistency

/-- An engine as the settings want it, on an empty store. -/
def engine (settings : Settings) : Except Error (Engine Storage) := do
  return {
    store := Storage.empty settings.mode settings.nodes
    registry := Registry.standard
    timeout := settings.timeout
    consistency := ← settings.level }

end Settings

end OperationChain
