import OperationChain.DataType.Codec
import OperationChain.Resolution

/-! # Arguments

The resolved parameters of one operation, read by key as the type that the operation
needs. A null argument counts as absent. Texts are accepted where they spell the
wanted type, and bytes where they encode it.
-/

namespace OperationChain

/-- The resolved parameters of an operation of some kind. -/
structure Arguments where
  kind : OperationKind
  values : List (String × Value)

/-- The arguments of an operation, whose parameters are resolved in key order. -/
def Operation.resolve (operation : Operation) (results : Results) (binds : Option Binds) :
    Except Error Arguments :=
  (resolveEntries results binds operation.params.entries).map fun values => ⟨operation.kind, values⟩

namespace Arguments

/-- The argument under a key, unless it is null. -/
def get? (args : Arguments) (key : String) : Option Value :=
  (Entries.find? key args.values).bind fun value => if value.isNull then none else some value

/-- The argument under a key has another shape than the one wanted. -/
def invalid (args : Arguments) (key expected : String) (found : Value) : Error :=
  .validation (.wrongParameter args.kind key expected found.shape)

/-- The argument under a key, which has to be there. -/
def required (args : Arguments) (key : String) : Except Error Value :=
  match args.get? key with
  | some value => .ok value
  | none => .error (.validation (.missingParameter args.kind key))

/-- An argument that may be absent and is read otherwise. -/
def optional {α : Type} (args : Arguments) (key : String) (read : Value → Except Error α) :
    Except Error (Option α) :=
  match args.get? key with
  | none => .ok none
  | some value => (read value).map some

/-- An argument that has to be there. -/
def needed {α : Type} (args : Arguments) (key : String) (read : Value → Except Error α) :
    Except Error α := do
  read (← args.required key)

/-- Reads an argument as text. Bytes have to be UTF-8. -/
def asText (args : Arguments) (key : String) : Value → Except Error String
  | .text s => .ok s
  | .bytes raw =>
    match Utf8.decode? raw with
    | some s => .ok s
    | none => .error (.validation (.parameterNotUtf8 args.kind key))
  | other => .error (args.invalid key "text" other)

/-- Reads an argument as a whole number. A text has to be a numeral between blanks,
and eight bytes are read in two's complement. -/
def asInteger (args : Arguments) (key : String) (value : Value) : Except Error Int64 :=
  match value with
  | .text s =>
    match Numeral.int64? (Text.trim s) with
    | some n => .ok n
    | none => .error (.validation (.parameterNotInteger args.kind key))
  | .bytes raw =>
    match raw.toInt64? with
    | some n => .ok n
    | none => .error (args.invalid key "an integer" value)
  | other =>
    match other.int? with
    | some n => .ok n
    | none => .error (args.invalid key "an integer" other)

/-- Reads an argument as a truth value, which some texts spell. -/
def asBoolean (args : Arguments) (key : String) : Value → Except Error Bool
  | .bool b => .ok b
  | .text s =>
    match Text.foldLower s with
    | "true" => .ok true
    | "on" => .ok true
    | "false" => .ok false
    | "off" => .ok false
    | _ => .error (args.invalid key "a boolean" (.text s))
  | other => .error (args.invalid key "a boolean" other)

def asList (args : Arguments) (key : String) : Value → Except Error (List Value)
  | .list items => .ok items
  | other => .error (args.invalid key "a list" other)

def asMap (args : Arguments) (key : String) : Value → Except Error (List (String × Value))
  | .map entries => .ok entries
  | other => .error (args.invalid key "a map" other)

def text? (args : Arguments) (key : String) : Except Error (Option String) :=
  args.optional key (args.asText key)

def text (args : Arguments) (key : String) : Except Error String :=
  args.needed key (args.asText key)

def integer? (args : Arguments) (key : String) : Except Error (Option Int64) :=
  args.optional key (args.asInteger key)

def integer (args : Arguments) (key : String) : Except Error Int64 :=
  args.needed key (args.asInteger key)

def boolean? (args : Arguments) (key : String) : Except Error (Option Bool) :=
  args.optional key (args.asBoolean key)

def boolean (args : Arguments) (key : String) : Except Error Bool :=
  args.needed key (args.asBoolean key)

def list (args : Arguments) (key : String) : Except Error (List Value) :=
  args.needed key (args.asList key)

/-- The map under a key, empty where there is none. -/
def map (args : Arguments) (key : String) : Except Error (List (String × Value)) :=
  (args.optional key (args.asMap key)).map fun entries => entries.getD []

/-- The name of a table, under either of its two keys. -/
def table? (args : Arguments) : Except Error (Option String) := do
  match ← args.text? "table" with
  | some table => .ok (some table)
  | none => args.text? "columnfamily"

/-- The handle under a key. A negative number is no handle. -/
def handle (args : Arguments) (key : String) : Except Error Handle := do
  let id := (← args.integer key).toInt
  if 0 ≤ id then .ok id.toNat else .error (.state (.notHandle id))

end Arguments

end OperationChain
