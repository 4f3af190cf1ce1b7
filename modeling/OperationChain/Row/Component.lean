import OperationChain.Error
import OperationChain.Text.Blank

/-! # Components of a row

The four parts of a row that can be asked for by name, and the two that an assumed
type can apply to.
-/

namespace OperationChain

/-- A part of a row. -/
inductive Component where
  | name | value | timestamp | ttl
  deriving DecidableEq, Repr

/-- The part of a column that an assumed type applies to. -/
inductive Role where
  | name | value
  deriving DecidableEq, Repr

namespace Component

/-- All components, in the order in which a row lists them. -/
def all : List Component := [name, value, timestamp, ttl]

/-- The key of a component in a row. -/
def key : Component → String
  | name => "name"
  | value => "value"
  | timestamp => "timestamp"
  | ttl => "ttl"

/-- The component with this name; the name of a column is also called its column. -/
def parse (s : String) : Except Error Component :=
  match Text.foldLower s with
  | "name" => .ok name
  | "column" => .ok name
  | "value" => .ok value
  | "timestamp" => .ok timestamp
  | "ttl" => .ok ttl
  | other => .error (.validation (.unknownComponent other))

end Component

namespace Role

/-- The name of a role. -/
def key : Role → String
  | name => "name"
  | value => "value"

/-- The role with this name; the name of a column is also called its column. -/
def parse (s : String) : Except Error Role :=
  match Text.foldLower s with
  | "name" => .ok name
  | "column" => .ok name
  | "value" => .ok value
  | other => .error (.validation (.unknownRole other))

end Role

end OperationChain
