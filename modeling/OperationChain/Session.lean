import OperationChain.Consistency.Parse
import OperationChain.DataType.Codec
import OperationChain.Handles
import OperationChain.Results

/-! # Sessions

What the operations of one chain share: the defaults they inherit, the types assumed
for tables, the results so far, and how rows are filtered and cut. A snapshot keeps
the defaults and the assumptions; restoring it changes nothing else.
-/

namespace OperationChain

/-- A column role of a table that a type can be assumed for. -/
structure Assumption where
  keyspace : String
  table : String
  role : Role
  deriving DecidableEq, Repr

namespace Assumption

/-- The place of a role, names first. -/
def roleIndex : Role → Nat
  | .name => 0
  | .value => 1

/-- Assumptions are ordered by keyspace, then table, then role. -/
def order : Assumption → Assumption → Ordering :=
  compareLex (compareOn Assumption.keyspace)
    (compareLex (compareOn Assumption.table) (compareOn fun a => roleIndex a.role))

instance : Ord Assumption := ⟨order⟩

instance : Std.TransOrd Assumption :=
  inferInstanceAs (Std.TransCmp (compareLex (compareOn Assumption.keyspace)
    (compareLex (compareOn Assumption.table) (compareOn fun a => roleIndex a.role))))

theorem roleIndex_injective {a b : Role} (h : roleIndex a = roleIndex b) : a = b := by
  cases a <;> cases b <;> first | rfl | cases h

instance : Std.LawfulEqOrd Assumption where
  eq_of_compare {a b} h := by
    have horder : order a b = .eq := h
    simp only [order, compareLex, compareOn, Ordering.then_eq_eq] at horder
    obtain ⟨hkeyspace, htable, hrole⟩ := horder
    have hkeyspace := Std.LawfulEqCmp.eq_of_compare hkeyspace
    have htable := Std.LawfulEqCmp.eq_of_compare htable
    have hrole := roleIndex_injective (Std.LawfulEqCmp.eq_of_compare hrole)
    cases a; cases b
    simp_all

end Assumption

/-- The defaults of a session and the types it assumes. -/
structure Snapshot where
  keyspace : Option String := none
  table : Option String := none
  consistency : Consistency
  autoTimestamp : Bool := false
  assumptions : Map Assumption DataType := ∅
  deriving DecidableEq

/-- What the operations of one chain share. -/
structure Session where
  /-- The part that a snapshot keeps. -/
  defaults : Snapshot
  results : Results := {}
  /-- The filter that rows read from a store have to pass. -/
  filter : Option String := none
  /-- The components to which rows read from a store are cut. -/
  components : Option (List Component) := none

namespace Session

/-- A new session for a chain of this length. -/
def start (consistency : Consistency) (operations : Nat) : Session where
  defaults := { consistency }
  results := Results.ofLength operations

/-- The session with the defaults and assumptions of a snapshot. -/
def restore (session : Session) (snapshot : Snapshot) : Session :=
  { session with defaults := snapshot }

/-- A copy for a chain of its own, with results of its own. -/
def fork (session : Session) (operations : Nat) : Session :=
  { session with results := Results.ofLength operations }

/-- The session with a type assumed for a role of a table. -/
def assume (session : Session) (keyspace table : String) (role : Role) (type : DataType) :
    Session :=
  { session with
    defaults.assumptions := session.defaults.assumptions.insert ⟨keyspace, table, role⟩ type }

/-- The type assumed for a role of a table. -/
def assumed (session : Session) (keyspace table : String) (role : Role) : Option DataType :=
  session.defaults.assumptions.find? ⟨keyspace, table, role⟩

end Session

end OperationChain
