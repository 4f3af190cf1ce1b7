import OperationChain.Row.Basic

/-! # Expressions over a row

A term reads a component of a row, or is a literal, or applies a function to a term.
A predicate compares terms and joins comparisons; it decides whether a filter
accepts a row. An assignment gives a component the value of a term.
-/

namespace OperationChain.Expression

/-- A function of one value. -/
inductive Function where
  | upper | lower | length | text
  deriving DecidableEq, Repr

/-- The name of a function. -/
def Function.name : Function → String
  | upper => "upper"
  | lower => "lower"
  | length => "length"
  | text => "text"

def Function.all : List Function := [upper, lower, length, text]

/-- What has a value on a row. -/
inductive Term where
  | field (component : Component)
  | literal (value : Value)
  | call (function : Function) (argument : Term)

/-- How two terms are compared. -/
inductive Comparison where
  | equal | notEqual | less | atMost | greater | atLeast | contains | startsWith
  deriving DecidableEq, Repr

/-- What is true or false on a row. -/
inductive Predicate where
  | constant (value : Bool)
  | compare (left : Term) (comparison : Comparison) (right : Term)
  | not (inner : Predicate)
  | and (left right : Predicate)
  | or (left right : Predicate)

/-- Gives a component the value of a term. -/
structure Assignment where
  component : Component
  term : Term

end OperationChain.Expression
