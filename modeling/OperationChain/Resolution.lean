import OperationChain.Operation.Wire
import OperationChain.Results

/-! # Resolving parameters

Before an operation is executed each of its parameters becomes a value: a literal is
its own value, a reference reads a result of the same chain, and a bind marker takes
the value bound to its position. The first parameter in key order that has no value
fails the operation.
-/

namespace OperationChain

/-- Values bound to the positions of a template. -/
abbrev Binds := Map UInt32 Value

/-- Whether a literal looks like a reference or a bind marker that could not be read
as one. -/
def Value.isMalformedMarker : Value → Bool
  | .map entries => entries.any fun entry => entry.1 == refKey || entry.1 == bindKey
  | _ => false

/-- The keys of a map. -/
def Value.keys : Value → List String
  | .map entries => entries.map (·.1)
  | _ => []

namespace Record

/-- A field of a list of rows: all rows as maps, or a component of the first row. -/
def rowsField (index : Int64) (rows : List Row) : Option String → Except Error Value
  | none => .ok (.list (rows.map Row.toValue))
  | some "rows" => .ok (.list (rows.map Row.toValue))
  | some field =>
    match Component.parse field with
    | .error _ => .error (.reference (.noRowsField index.toInt field))
    | .ok component =>
      match rows with
      | [] => .error (.reference (.noRows index.toInt field))
      | first :: _ =>
        match first.component component with
        | some value => .ok value
        | none => .error (.reference (.notCarried index.toInt field))

/-- The one field of a result that is not a list of rows. -/
def valueField (index : Int64) (value : Value) : Option String → Except Error Value
  | none => .ok value
  | some "value" => .ok value
  | some field => .error (.reference (.noScalarField index.toInt field))

/-- What a reference to the operation at `index` reads from its result. -/
def field (index : Int64) (record : Record) (field : Option String) : Except Error Value :=
  match record with
  | rows list => rowsField index list field
  | ok => valueField index (.text "OK") field
  | scalar value => valueField index value field

end Record

/-- The value that a reference points at. -/
def Reference.resolve (reference : Reference) (results : Results) : Except Error Value := do
  let record ← results.get reference.index.toInt
  record.field reference.index reference.field

/-- The value of a parameter. Outside a template nothing is bound. -/
def Param.resolve (param : Param) (results : Results) (binds : Option Binds) : Except Error Value :=
  match param with
  | .literal value =>
    if value.isMalformedMarker then .error (.validation (.malformedMarker value.keys))
    else .ok value
  | .reference target => target.resolve results
  | .bind position =>
    match binds with
    | none => .error (.reference (.bindOutside position.toNat))
    | some binds =>
      match binds.find? position with
      | some value => .ok value
      | none => .error (.reference (.unbound position.toNat))

/-- Says in which parameter an error arose. -/
def Error.inParameter (key : String) : Error → Error
  | .reference cause => .reference (.inParameter key cause)
  | .validation cause => .validation (.inParameter key cause)
  | other => other

/-- The values of an operation's parameters, by key. -/
def resolveEntries (results : Results) (binds : Option Binds) :
    List (String × Param) → Except Error (List (String × Value))
  | [] => .ok []
  | (key, param) :: rest =>
    match param.resolve results binds with
    | .error e => .error (e.inParameter key)
    | .ok value =>
      match resolveEntries results binds rest with
      | .error e => .error e
      | .ok values => .ok ((key, value) :: values)

end OperationChain
