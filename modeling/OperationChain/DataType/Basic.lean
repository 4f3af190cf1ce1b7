/-! # Data types

The types that can be assumed for the names or the values of a table.
-/

namespace OperationChain

/-- A type that decides how a value is encoded as bytes and how bytes are read. -/
inductive DataType where
  | bytes | utf8 | ascii | int32 | long | boolean | double | decimal
  deriving DecidableEq, Repr

/-- The name of a data type. -/
def DataType.name : DataType → String
  | bytes => "BytesType"
  | utf8 => "UTF8Type"
  | ascii => "AsciiType"
  | int32 => "Int32Type"
  | long => "LongType"
  | boolean => "BooleanType"
  | double => "DoubleType"
  | decimal => "DecimalType"

/-- All data types. -/
def DataType.all : List DataType := [bytes, utf8, ascii, int32, long, boolean, double, decimal]

end OperationChain
