import OperationChain.Extension.Capability
import OperationChain.Ordered.Map

/-! # The registry of capabilities

Loaders by tag, and capabilities by shape and name. A registration compiles its
source first and takes the place of an earlier one only if that succeeds, so what is
kept under a shape always has this shape.
-/

namespace OperationChain

/-- What a capability is registered under. Each shape has names of its own. -/
structure CapabilityKey where
  shape : Shape
  name : String
  deriving DecidableEq, Repr

namespace CapabilityKey

/-- Keys are ordered by shape, then by name. -/
def order : CapabilityKey → CapabilityKey → Ordering :=
  compareLex (compareOn fun key => key.shape.index) (compareOn CapabilityKey.name)

instance : Ord CapabilityKey := ⟨order⟩

instance : Std.TransOrd CapabilityKey :=
  inferInstanceAs (Std.TransCmp (compareLex
    (compareOn fun key : CapabilityKey => key.shape.index) (compareOn CapabilityKey.name)))

theorem index_injective {a b : Shape} (h : a.index = b.index) : a = b := by
  cases a <;> cases b <;> first | rfl | cases h

instance : Std.LawfulEqOrd CapabilityKey where
  eq_of_compare {a b} h := by
    have horder : order a b = .eq := h
    simp only [order, compareLex, compareOn, Ordering.then_eq_eq] at horder
    obtain ⟨hshape, hname⟩ := horder
    have hshape := index_injective (Std.LawfulEqCmp.eq_of_compare hshape)
    have hname := Std.LawfulEqCmp.eq_of_compare hname
    cases a; cases b
    simp_all

end CapabilityKey

/-- Loaders by tag and capabilities by shape and name. -/
structure Registry where
  loaders : Map String Loader := ∅
  kept : Map CapabilityKey Capability := ∅

namespace Registry

/-- Adds a loader, instead of an earlier one under the same tag. Capabilities that
are kept stay as they are. -/
def addLoader (registry : Registry) (tag : String) (loader : Loader) : Registry :=
  { registry with loaders := registry.loaders.insert tag loader }

/-- Compiles a source with the loader under `tag`. A loader has to answer with the
shape that was asked for. -/
def compile (registry : Registry) (shape : Shape) (name tag source : String) :
    Except Error Capability :=
  match registry.loaders.find? tag with
  | none => .error (.extension (.unknownLoader tag))
  | some loader =>
    match loader source shape with
    | .error e => .error (e.withinExtension name)
    | .ok capability =>
      if capability.shape = shape then .ok capability
      else .error (.extension (.loaderShape tag capability.shape shape name))

/-- Compiles and keeps a capability, and tells whether an earlier one had to go. -/
def register (registry : Registry) (shape : Shape) (name tag source : String) :
    Except Error (Bool × Registry) :=
  match registry.compile shape name tag source with
  | .error e => .error e
  | .ok capability =>
    let key : CapabilityKey := ⟨shape, name⟩
    .ok (registry.kept.contains key,
      { registry with kept := registry.kept.insert key capability })

/-- The capability that is kept under a shape and a name. -/
def find (registry : Registry) (shape : Shape) (name : String) : Except Error Capability :=
  match registry.kept.find? ⟨shape, name⟩ with
  | some capability => .ok capability
  | none => .error (.extension (.unregistered shape name))

/-- A capability is kept under another shape than its own. -/
def misplaced (name : String) (capability : Capability) : Error :=
  .extension (.registeredShape name capability.shape)

def filter (registry : Registry) (name : String) : Except Error Filter := do
  match ← registry.find .filter name with
  | .filter filter => .ok filter
  | other => .error (misplaced name other)

def processor (registry : Registry) (name : String) : Except Error Processor := do
  match ← registry.find .processor name with
  | .processor processor => .ok processor
  | other => .error (misplaced name other)

def multiProcessor (registry : Registry) (name : String) : Except Error MultiProcessor := do
  match ← registry.find .multiProcessor name with
  | .multiProcessor combiner => .ok combiner
  | other => .error (misplaced name other)

def serviceProcess (registry : Registry) (name : String) : Except Error ServiceProcess := do
  match ← registry.find .serviceProcess name with
  | .serviceProcess process => .ok process
  | other => .error (misplaced name other)

/-- How many capabilities are kept. -/
def size (registry : Registry) : Nat := registry.kept.size

def isEmpty (registry : Registry) : Bool := registry.kept.isEmpty

end Registry

end OperationChain
