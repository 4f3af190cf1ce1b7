import OperationChain.Text.Blank

/-! # Kinds of operations

What an operation can ask for. A kind has one name and may have older spellings;
case, hyphens and blanks around a spelling make no difference. A name that is no
spelling of any kind is a kind of its own, which fails only when it is executed.
-/

namespace OperationChain

/-- What an operation asks for. -/
inductive OperationKind where
  | set | get | slice | sliceByNames | batchSet | counter
  | createKeyspace | createTable | listKeyspaces | listTables
  | setKeyspace | setTable | setConsistency | setAutoTimestamp | assume
  | createProcessor | process | createMultiProcessor | multiProcess
  | createFilter | filterMode | createServiceProcess | serviceProcess
  | query | prepare | executePrepared | saveState | restoreState | clear | componentSelect
  | unknown (name : String)
  deriving DecidableEq, Repr

namespace OperationKind

/-- The name of a kind. -/
def name : OperationKind → String
  | set => "set"
  | get => "get"
  | slice => "slice"
  | sliceByNames => "slice_by_names"
  | batchSet => "batch_set"
  | counter => "counter"
  | createKeyspace => "create_keyspace"
  | createTable => "create_table"
  | listKeyspaces => "list_keyspaces"
  | listTables => "list_tables"
  | setKeyspace => "set_keyspace"
  | setTable => "set_table"
  | setConsistency => "set_consistency"
  | setAutoTimestamp => "set_auto_timestamp"
  | assume => "assume"
  | createProcessor => "create_processor"
  | process => "process"
  | createMultiProcessor => "create_multi_processor"
  | multiProcess => "multi_process"
  | createFilter => "create_filter"
  | filterMode => "filter_mode"
  | createServiceProcess => "create_service_process"
  | serviceProcess => "service_process"
  | query => "query"
  | prepare => "prepare"
  | executePrepared => "execute_prepared"
  | saveState => "save_state"
  | restoreState => "restore_state"
  | clear => "clear"
  | componentSelect => "component_select"
  | unknown name => name

/-- Every kind that can be executed, with the spellings it has besides its name. -/
def spellings : List (OperationKind × List String) :=
  [ (set, ["write"]),
    (get, []),
    (slice, []),
    (sliceByNames, ["slicebynames"]),
    (batchSet, ["batchset"]),
    (counter, ["counter_increment"]),
    (createKeyspace, ["createkeyspace"]),
    (createTable, ["create_column_family", "createcolumnfamily"]),
    (listKeyspaces, ["listkeyspaces"]),
    (listTables, ["list_column_families", "listcolumnfamilies"]),
    (setKeyspace, ["setkeyspace"]),
    (setTable, ["set_column_family", "setcolumnfamily"]),
    (setConsistency, ["consistency"]),
    (setAutoTimestamp, ["autotimestamp"]),
    (assume, ["assume_type"]),
    (createProcessor, ["createprocessor"]),
    (process, []),
    (createMultiProcessor, ["createmultiprocess"]),
    (multiProcess, ["multiprocess"]),
    (createFilter, ["createfilter"]),
    (filterMode, ["set_filter_mode", "filtermode"]),
    (createServiceProcess, ["createserviceprocess"]),
    (serviceProcess, ["run_service_process", "serviceprocess"]),
    (query, ["raw_query", "cqlquery"]),
    (prepare, ["preparedstatement"]),
    (executePrepared, ["executeprepared"]),
    (saveState, ["savestate"]),
    (restoreState, ["restorestate"]),
    (clear, ["clear_result"]),
    (componentSelect, ["componentselect"]) ]

/-- A spelling without blanks around it, in lower case and with underscores for
hyphens. -/
def normalize (spelling : String) : String :=
  String.ofList ((Text.trimChars spelling.toList).map fun c => if c == '-' then '_' else c.toLower)

/-- The kind that a spelling means. -/
def ofName (spelling : String) : OperationKind :=
  let wanted := normalize spelling
  match spellings.find? fun entry => entry.1.name == wanted || entry.2.contains wanted with
  | some (kind, _) => kind
  | none => unknown spelling

def isUnknown : OperationKind → Bool
  | unknown _ => true
  | _ => false

end OperationKind

end OperationChain
