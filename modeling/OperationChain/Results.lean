import OperationChain.Response

/-! # Results of the operations of a running chain

One slot for each operation, by its index: not executed yet, captured, or cleared
again. A slot that was executed stays visible in the answer; a cleared one answers
an empty list of rows.
-/

namespace OperationChain

/-- What is known of the result of one operation. -/
inductive Slot where
  | pending
  | captured (record : Record)
  | cleared

/-- The slots of the operations of a chain. -/
structure Results where
  slots : List Slot := []

namespace Results

instance : Inhabited Results := ⟨{}⟩

/-- Results of `length` operations, none of which was executed. -/
def ofLength (length : Nat) : Results := ⟨List.replicate length .pending⟩

def length (results : Results) : Nat := results.slots.length

def isEmpty (results : Results) : Bool := results.slots.isEmpty

/-- The slot at an index, and its place. -/
def slot (results : Results) (index : Int) : Except Error (Nat × Slot) :=
  if 0 ≤ index then
    match results.slots[index.toNat]? with
    | some slot => .ok (index.toNat, slot)
    | none => .error (.reference (.outOfRange index results.length))
  else .error (.reference (.outOfRange index results.length))

/-- The captured result of the operation at an index. -/
def get (results : Results) (index : Int) : Except Error Record :=
  match results.slot index with
  | .ok (_, .captured record) => .ok record
  | .ok (i, .pending) => .error (.reference (.pending i))
  | .ok (i, .cleared) => .error (.reference (.cleared i))
  | .error e => .error e

/-- Captures a result. Slots are added where the index lies beyond the last one. -/
def capture (results : Results) (index : Nat) (record : Record) : Results :=
  let missing := List.replicate (index + 1 - results.length) Slot.pending
  ⟨(results.slots ++ missing).set index (.captured record)⟩

/-- Clears the result of an operation that was executed. -/
def clear (results : Results) (index : Int) : Except Error Results :=
  match results.slot index with
  | .ok (i, .pending) => .error (.reference (.pendingClear i))
  | .ok (i, _) => .ok ⟨results.slots.set i .cleared⟩
  | .error e => .error e

/-- What a slot shows in an answer. -/
def Slot.answer? : Slot → Option Record
  | .pending => none
  | .captured record => some record
  | .cleared => some (.rows [])

/-- The rows that a slot holds. -/
def Slot.rows? : Slot → Option (List Row)
  | .captured (.rows list) => some list
  | _ => none

/-- What `read` finds in the slots from the index `first` on, with the index of each. -/
def collectFrom {α : Type} (read : Slot → Option α) (first : Nat) : List Slot → List (Nat × α)
  | [] => []
  | slot :: rest =>
    match read slot with
    | some found => (first, found) :: collectFrom read (first + 1) rest
    | none => collectFrom read (first + 1) rest

/-- The results of all executed operations, as an answer shows them. -/
def answers (results : Results) : List (Nat × Record) := collectFrom Slot.answer? 0 results.slots

/-- Hands over what an answer shows, and leaves no slot behind. -/
def take (results : Results) : List (Nat × Record) × Results := (results.answers, ofLength 0)

/-- Every captured list of rows. -/
def rowLists (results : Results) : List (Nat × List Row) := collectFrom Slot.rows? 0 results.slots

end Results

end OperationChain
