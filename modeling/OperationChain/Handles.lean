import OperationChain.Error
import OperationChain.Operation.Basic
import OperationChain.Ordered.Map

/-! # Handles for kept values

A keeper hands out a number for each value that it keeps. Numbers count up from one
and are never used again, so a handle means one value for as long as the keeper
exists.
-/

namespace OperationChain

/-- Values by handle. `last` is the handle that was handed out last, zero before the
first. -/
structure Keeper (α : Type) where
  /-- What the kept values are, for messages. -/
  what : String
  last : Handle := 0
  kept : Map Handle α := ∅

namespace Keeper

variable {α : Type}

/-- Keeps a value under a new handle. -/
def keep (keeper : Keeper α) (value : α) : Handle × Keeper α :=
  let handle := keeper.last + 1
  (handle, { keeper with last := handle, kept := keeper.kept.insert handle value })

/-- The value under a handle. -/
def get (keeper : Keeper α) (handle : Handle) : Except Error α :=
  match keeper.kept.find? handle with
  | some value => .ok value
  | none => .error (.state (.unknownHandle keeper.what handle))

/-- Lets go of the value under a handle. -/
def release (keeper : Keeper α) (handle : Handle) : Except Error (Keeper α) :=
  if keeper.kept.contains handle then .ok { keeper with kept := keeper.kept.erase handle }
  else .error (.state (.unknownHandle keeper.what handle))

def size (keeper : Keeper α) : Nat := keeper.kept.size

def isEmpty (keeper : Keeper α) : Bool := keeper.kept.isEmpty

end Keeper

end OperationChain
