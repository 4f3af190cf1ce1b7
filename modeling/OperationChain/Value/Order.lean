import OperationChain.Value.Basic

/-! # The order of values

Which values are comparable, and how. Numbers of different shapes are compared as
floating point numbers, bytes and text through the UTF-8 reading of the bytes.
-/

namespace OperationChain.Value

/-- The floating point number nearest to a number. -/
def binary64? : Value → Option Binary64
  | int n => some (Binary64.ofInt n.toInt)
  | float x => some x
  | decimal d => some d.toBinary64
  | _ => none

/-- The order of two values, if they have one. -/
def compare? : Value → Value → Option Ordering
  | null, null => some .eq
  | bool a, bool b => some (compare a b)
  | int a, int b => some (compare a b)
  | text a, text b => some (compare a b)
  | bytes a, bytes b => some (compare a b)
  | bytes a, text b => some (compare (Utf8.decodeLossy a) b)
  | text a, bytes b => some (compare a (Utf8.decodeLossy b))
  | a, b =>
    match a.binary64?, b.binary64? with
    | some x, some y => x.compare? y
    | _, _ => none

end OperationChain.Value
