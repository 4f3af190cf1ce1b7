import OperationChain.Store.Nested
import OperationChain.Store.Tables

/-! # The choice of a store

A host decides at its start which of the two stores it uses. Both answer alike; only
their inner forms differ.
-/

namespace OperationChain

/-- Which store a host uses. -/
inductive StorageMode where
  | nested | tables
  deriving DecidableEq, Repr

namespace StorageMode

/-- What a mode is called in settings. -/
def name : StorageMode → String
  | nested => "memory"
  | tables => "sqlite"

/-- The mode with this name. -/
def ofName? (name : String) : Option StorageMode :=
  [nested, tables].find? fun mode => mode.name == name

end StorageMode

/-- A store of either form. -/
inductive Storage where
  | nested (store : NestedStore)
  | tables (store : TableStore)

namespace Storage

/-- An empty store with a number of live replicas. -/
def empty (mode : StorageMode) (nodes : UInt32) : Storage :=
  match mode with
  | .nested => nested { nodes }
  | .tables => tables { nodes }

/-- The same contents with another number of live replicas. -/
def withNodes (storage : Storage) (nodes : UInt32) : Storage :=
  match storage with
  | nested store => nested { store with nodes }
  | tables store => tables { store with nodes }

/-- Asks a store of either form. -/
def ask {α : Type} (storage : Storage)
    (question : {σ : Type} → [Store σ] → σ → Except Error α) : Except Error α :=
  match storage with
  | nested store => question store
  | tables store => question store

/-- Updates a store of either form, which it keeps. -/
def update (update : {σ : Type} → [Store σ] → Update σ Unit) : Update Storage Unit := do
  match ← get with
  | nested store =>
    let (result, store) := update.exec store
    set (nested store)
    Update.lift result
  | tables store =>
    let (result, store) := update.exec store
    set (tables store)
    Update.lift result

instance : Store Storage where
  read storage now target rowkey names level :=
    storage.ask fun store => Store.read store now target rowkey names level
  readSlice storage now target rowkey range level :=
    storage.ask fun store => Store.readSlice store now target rowkey range level
  batchWrite mutations level := update (Store.batchWrite mutations level)
  increment now target rowkey name delta level :=
    update (Store.increment now target rowkey name delta level)
  createKeyspace name replication := update (Store.createKeyspace name replication)
  createTable target := update (Store.createTable target)
  listKeyspaces storage := storage.ask fun store => Store.listKeyspaces store
  listTables storage keyspace := storage.ask fun store => Store.listTables store keyspace
  query storage now keyspace statement version level :=
    storage.ask fun store => Store.query store now keyspace statement version level

end Storage

end OperationChain
