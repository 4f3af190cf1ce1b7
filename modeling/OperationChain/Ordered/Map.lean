/-! # Maps in key order

A map keeps its entries in one list, ascending by key, with every key at most once.
Two maps with the same entries are therefore equal as values, and walking a map
gives its keys in order. The list functions below are shared with types that hold
such a list directly.
-/

namespace OperationChain

namespace Entries

variable {κ ν : Type} [Ord κ]

/-- The value under `key`, in a list of entries. -/
def find? (key : κ) : List (κ × ν) → Option ν
  | [] => none
  | (k, v) :: rest => if compare key k = .eq then some v else find? key rest

/-- Puts `value` under `key` at its place in key order, instead of an earlier value
if there is one. -/
def insert (key : κ) (value : ν) : List (κ × ν) → List (κ × ν)
  | [] => [(key, value)]
  | (k, v) :: rest =>
    match compare key k with
    | .lt => (key, value) :: (k, v) :: rest
    | .eq => (key, value) :: rest
    | .gt => (k, v) :: insert key value rest

/-- Leaves out the entry under `key`. -/
def erase (key : κ) : List (κ × ν) → List (κ × ν)
  | [] => []
  | (k, v) :: rest => if compare key k = .eq then rest else (k, v) :: erase key rest

/-- Keys ascend strictly. -/
def Ascending (entries : List (κ × ν)) : Prop :=
  entries.Pairwise fun a b => compare a.1 b.1 = .lt

/-- Entries in key order; of several with one key the last counts. -/
def ofList (entries : List (κ × ν)) : List (κ × ν) :=
  entries.foldl (fun sorted entry => insert entry.1 entry.2 sorted) []

theorem mem_insert {key : κ} {value : ν} {entry : κ × ν} {entries : List (κ × ν)}
    (h : entry ∈ insert key value entries) : entry = (key, value) ∨ entry ∈ entries := by
  induction entries with
  | nil => simpa [insert] using h
  | cons head rest ih =>
    obtain ⟨k, v⟩ := head
    simp only [insert] at h
    split at h
    · simpa using h
    · rcases List.mem_cons.mp h with h | h
      · exact .inl h
      · exact .inr (List.mem_cons_of_mem _ h)
    · rcases List.mem_cons.mp h with h | h
      · exact .inr (h ▸ List.mem_cons_self)
      · exact (ih h).imp id (List.mem_cons_of_mem _)

theorem mem_of_mem_erase {key : κ} {entry : κ × ν} {entries : List (κ × ν)}
    (h : entry ∈ erase key entries) : entry ∈ entries := by
  induction entries with
  | nil => simp [erase] at h
  | cons head rest ih =>
    obtain ⟨k, v⟩ := head
    simp only [erase] at h
    split at h
    · exact List.mem_cons_of_mem _ h
    · rcases List.mem_cons.mp h with h | h
      · exact h ▸ List.mem_cons_self
      · exact List.mem_cons_of_mem _ (ih h)

theorem Ascending.insert [Std.TransOrd κ] [Std.LawfulEqOrd κ] {key : κ} {value : ν}
    {entries : List (κ × ν)} (h : Ascending entries) :
    Ascending (Entries.insert key value entries) := by
  induction entries with
  | nil => simp [Entries.insert, Ascending]
  | cons head rest ih =>
    obtain ⟨k, v⟩ := head
    obtain ⟨hhead, hrest⟩ := List.pairwise_cons.mp h
    simp only [Entries.insert]
    split
    next hlt =>
      refine List.pairwise_cons.mpr ⟨?_, h⟩
      intro entry hentry
      rcases List.mem_cons.mp hentry with rfl | hentry
      · exact hlt
      · exact Std.TransCmp.lt_trans hlt (hhead _ hentry)
    next heq =>
      refine List.pairwise_cons.mpr ⟨?_, hrest⟩
      intro entry hentry
      have hkey : key = k := Std.LawfulEqCmp.eq_of_compare heq
      exact hkey ▸ hhead _ hentry
    next hgt =>
      refine List.pairwise_cons.mpr ⟨?_, ih hrest⟩
      intro entry hentry
      rcases mem_insert hentry with rfl | hentry
      · exact Std.OrientedCmp.lt_of_gt hgt
      · exact hhead _ hentry

theorem Ascending.erase {key : κ} {entries : List (κ × ν)} (h : Ascending entries) :
    Ascending (Entries.erase key entries) := by
  induction entries with
  | nil => exact h
  | cons head rest ih =>
    obtain ⟨k, v⟩ := head
    obtain ⟨hhead, hrest⟩ := List.pairwise_cons.mp h
    simp only [Entries.erase]
    split
    · exact hrest
    · exact List.pairwise_cons.mpr ⟨fun entry hentry => hhead _ (mem_of_mem_erase hentry), ih hrest⟩

end Entries

/-- A finite map whose entries are listed once each, in ascending order of their
keys. -/
structure Map (κ ν : Type) [Ord κ] where
  entries : List (κ × ν)
  ascending : Entries.Ascending entries

namespace Map

variable {κ ν : Type} [Ord κ]

theorem ext_entries {a b : Map κ ν} (h : a.entries = b.entries) : a = b := by
  cases a; cases b; cases h; rfl

instance [DecidableEq κ] [DecidableEq ν] : DecidableEq (Map κ ν) := fun a b =>
  if h : a.entries = b.entries then isTrue (ext_entries h) else isFalse fun hab => h (hab ▸ rfl)

/-- The map with no entry. -/
def empty : Map κ ν := ⟨[], .nil⟩

instance : EmptyCollection (Map κ ν) := ⟨empty⟩

instance : Inhabited (Map κ ν) := ⟨empty⟩

/-- The value under `key`, if there is one. -/
def find? (map : Map κ ν) (key : κ) : Option ν := Entries.find? key map.entries

def contains (map : Map κ ν) (key : κ) : Bool := (map.find? key).isSome

def size (map : Map κ ν) : Nat := map.entries.length

def isEmpty (map : Map κ ν) : Bool := map.entries.isEmpty

/-- The keys, ascending. -/
def keys (map : Map κ ν) : List κ := map.entries.map (·.1)

/-- The values, in the order of their keys. -/
def values (map : Map κ ν) : List ν := map.entries.map (·.2)

/-- Keeps the map without the entry under `key`. -/
def erase (map : Map κ ν) (key : κ) : Map κ ν :=
  ⟨Entries.erase key map.entries, map.ascending.erase⟩

section Lawful

variable [Std.TransOrd κ] [Std.LawfulEqOrd κ]

/-- Puts `value` under `key`, instead of an earlier value if there is one. -/
def insert (map : Map κ ν) (key : κ) (value : ν) : Map κ ν :=
  ⟨Entries.insert key value map.entries, map.ascending.insert⟩

/-- The map of these entries; of several with one key the last counts. -/
def ofList (entries : List (κ × ν)) : Map κ ν :=
  entries.foldl (fun map entry => map.insert entry.1 entry.2) empty

end Lawful

end Map

end OperationChain
