import OperationChain.Expression.Basic
import OperationChain.Text.Case
import OperationChain.Value.Order

/-! # The meaning of expressions

A term always has a value on a row; a component that the row does not carry is null.
Values that have no order are different from each other, and every other comparison
of them is false. Assignments all read the row as it was before any of them.
-/

namespace OperationChain.Expression

/-- Whether `needle` stands somewhere in `cs`. -/
def holds (needle : List Char) : List Char → Bool
  | [] => needle.isEmpty
  | c :: rest => needle.isPrefixOf (c :: rest) || holds needle rest

/-- How many items a list has, how many bytes bytes are, and how many characters
everything else has as text; null has none. -/
def lengthOf : Value → Nat
  | .null => 0
  | .bytes raw => raw.length
  | .list items => items.length
  | other => other.display.toList.length

/-- What a function gives for a value. -/
def Function.apply (function : Function) (value : Value) : Value :=
  match function with
  | upper => .text (Text.upper value.display)
  | lower => .text (Text.lower value.display)
  | text => .text value.display
  | length => .int (Int64.ofInt (lengthOf value))

/-- The value of a term on a row. -/
def Term.evaluate (row : Row) : Term → Value
  | field component => (row.component component).getD .null
  | literal value => value
  | call function argument => function.apply (argument.evaluate row)

/-- Whether two values compare as wanted. -/
def Comparison.test (comparison : Comparison) (left right : Value) : Bool :=
  match comparison with
  | contains => holds right.display.toList left.display.toList
  | startsWith => right.display.toList.isPrefixOf left.display.toList
  | notEqual => left.compare? right != some .eq
  | equal => left.compare? right == some .eq
  | less => left.compare? right == some .lt
  | greater => left.compare? right == some .gt
  | atMost => left.compare? right == some .lt || left.compare? right == some .eq
  | atLeast => left.compare? right == some .gt || left.compare? right == some .eq

/-- Whether a predicate is true on a row. -/
def Predicate.evaluate (row : Row) : Predicate → Bool
  | constant value => value
  | compare left comparison right => comparison.test (left.evaluate row) (right.evaluate row)
  | not inner => !inner.evaluate row
  | and left right => left.evaluate row && right.evaluate row
  | or left right => left.evaluate row || right.evaluate row

/-- How many comparisons are made to evaluate a predicate on a row: what follows a part
that decides is not looked at. -/
def Predicate.comparisons (row : Row) : Predicate → Nat
  | constant _ => 0
  | compare _ _ _ => 1
  | not inner => inner.comparisons row
  | and left right =>
    left.comparisons row + if left.evaluate row then right.comparisons row else 0
  | or left right =>
    left.comparisons row + if left.evaluate row then 0 else right.comparisons row

/-- Sets components one after the other; the first that cannot be set fails. -/
def assignAll (row : Row) : List (Component × Value) → Except Error Row
  | [] => .ok row
  | (component, value) :: rest =>
    match row.setComponent component value with
    | .ok row => assignAll row rest
    | .error e => .error e

/-- A row after assignments that are all evaluated on it first. -/
def assignRow (assignments : List Assignment) (row : Row) : Except Error Row :=
  assignAll row (assignments.map fun a => (a.component, a.term.evaluate row))

/-- Rows after assignments, each row on its own; the first row that fails fails all. -/
def assignRows (assignments : List Assignment) : List Row → Except Error (List Row)
  | [] => .ok []
  | row :: rest =>
    match assignRow assignments row with
    | .error e => .error e
    | .ok row =>
      match assignRows assignments rest with
      | .error e => .error e
      | .ok rows => .ok (row :: rows)

end OperationChain.Expression
