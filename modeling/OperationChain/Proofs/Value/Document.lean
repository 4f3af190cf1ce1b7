import OperationChain.Proofs.Number.Binary64
import OperationChain.Proofs.Operation.Parameters
import OperationChain.Proofs.Ordered.Map
import OperationChain.Value.Document

/-! # Values that documents describe

A value that was read from a document and holds no bytes is written as a document that
is read as the same value. It is the same document only up to the order of keys, repeated
keys and whole numbers that are rounded.
-/

namespace OperationChain

/-- The numbers of a document are those that a reader keeps: a whole number fits a word of
64 bits with or without a sign, any other is finite. -/
inductive Json.Representable : Json → Prop where
  | null : Representable .null
  | bool (b : Bool) : Representable (.bool b)
  | integer {n : Int} (hlow : -0x8000000000000000 ≤ n) (hhigh : n < 0x10000000000000000) :
      Representable (.integer n)
  | float {x : Binary64} (hfinite : x.isFinite) : Representable (.float x)
  | text (s : String) : Representable (.text s)
  | array {items : List Json} (hitems : ∀ item ∈ items, Representable item) :
      Representable (.array items)
  | object {members : List (String × Json)}
      (hmembers : ∀ member ∈ members, Representable member.2) : Representable (.object members)

namespace Value

/-- There are bytes in the value, or at any depth below it. -/
inductive HasBytes : Value → Prop where
  | bytes (raw : Bytes) : HasBytes (.bytes raw)
  | list {items : List Value} {item : Value} (hitem : item ∈ items) (hbytes : HasBytes item) :
      HasBytes (.list items)
  | map {entries : List (String × Value)} {entry : String × Value} (hentry : entry ∈ entries)
      (hbytes : HasBytes entry.2) : HasBytes (.map entries)

theorem hasBytes_map_iff {entries : List (String × Value)} :
    HasBytes (.map entries) ↔ ∃ entry ∈ entries, entry.2.HasBytes := by
  constructor
  · rintro (_ | _ | ⟨hentry, hbytes⟩)
    exact ⟨_, hentry, hbytes⟩
  · rintro ⟨_, hentry, hbytes⟩
    exact .map hentry hbytes

/-- The value is one that a document without the mark of bytes describes. -/
inductive Described : Value → Prop where
  | null : Described .null
  | bool (b : Bool) : Described (.bool b)
  | int (n : Int64) : Described (.int n)
  | float {x : Binary64} (hfinite : x.isFinite) : Described (.float x)
  | text (s : String) : Described (.text s)
  | list {items : List Value} (hitems : ∀ item ∈ items, Described item) : Described (.list items)
  | map {entries : List (String × Value)} (hascending : Entries.Ascending entries)
      (hunmarked : markedBytes? entries = none) (hentries : ∀ entry ∈ entries, Described entry.2) :
      Described (.map entries)

theorem ofItems_eq_map (items : List Json) : ofItems items = items.map ofJson := by
  induction items with
  | nil => rfl
  | cons item rest ih => exact congrArg (_ :: ·) ih

theorem ofEntryList_eq_map (members : List (String × Json)) :
    ofEntryList members = members.map (Prod.map id ofJson) := by
  induction members with
  | nil => rfl
  | cons member rest ih => exact congrArg (_ :: ·) ih

theorem toItems_eq_map (items : List Value) : toItems items = items.map toJson := by
  induction items with
  | nil => rfl
  | cons item rest ih => exact congrArg (_ :: ·) ih

theorem toMembers_eq_map (entries : List (String × Value)) :
    toMembers entries = entries.map (Prod.map id toJson) := by
  induction entries with
  | nil => rfl
  | cons entry rest ih => exact congrArg (_ :: ·) ih

/-! ## What a document is read as -/

theorem ofJson_object (members : List (String × Json)) :
    ofJson (.object members) =
      (markedBytes? ((Json.fields members).map (Prod.map id ofJson))).elim
        (.map ((Json.fields members).map (Prod.map id ofJson))) .bytes := by
  rw [ofJson, ofMembers, ofEntryList_eq_map, Entries.ofList_map, Json.fields]
  cases markedBytes? _ <;> rfl

/-- Without bytes an object is a map of its last member under each key. -/
theorem ofJson_object_of_not_bytes {members : List (String × Json)}
    (hbytes : ¬ (ofJson (.object members)).HasBytes) :
    markedBytes? ((Json.fields members).map (Prod.map id ofJson)) = none ∧
      ofJson (.object members) = .map ((Json.fields members).map (Prod.map id ofJson)) := by
  rw [ofJson_object] at hbytes ⊢
  cases hmarked : markedBytes? ((Json.fields members).map (Prod.map id ofJson)) with
  | none => exact ⟨rfl, rfl⟩
  | some raw =>
      rw [hmarked] at hbytes
      exact absurd (.bytes raw) hbytes

theorem ofJson_eq_int_iff {json : Json} {n : Int64} :
    ofJson json = .int n ↔ json.int64? = some n := by
  cases json with
  | integer k =>
      rw [ofJson, Json.int64?]
      cases Numeral.toInt64? k <;> simp
  | object members =>
      rw [ofJson_object]
      cases markedBytes? _ <;> exact ⟨nofun, nofun⟩
  | _ => exact ⟨nofun, nofun⟩

theorem ofJson_eq_null_iff {json : Json} : ofJson json = .null ↔ json = .null := by
  cases json with
  | null => exact ⟨fun _ => rfl, fun _ => rfl⟩
  | integer k =>
      rw [ofJson]
      cases Numeral.toInt64? k <;> exact ⟨nofun, nofun⟩
  | object members =>
      rw [ofJson_object]
      cases markedBytes? _ <;> exact ⟨nofun, nofun⟩
  | _ => exact ⟨nofun, nofun⟩

theorem ofJson_eq_text_iff {json : Json} {s : String} : ofJson json = .text s ↔ json = .text s := by
  cases json with
  | text t => simp [ofJson]
  | integer k =>
      rw [ofJson]
      cases Numeral.toInt64? k <;> exact ⟨nofun, nofun⟩
  | object members =>
      rw [ofJson_object]
      cases markedBytes? _ <;> exact ⟨nofun, nofun⟩
  | _ => exact ⟨nofun, nofun⟩

/-! ## There and back -/

/-- What is read from a document is described by it, unless it holds bytes. -/
theorem described_ofJson {json : Json} (hjson : json.Representable)
    (hbytes : ¬ (ofJson json).HasBytes) : (ofJson json).Described := by
  induction hjson with
  | null => exact .null
  | bool b => exact .bool b
  | @integer n hlow hhigh =>
      -- Beyond the signed words it is rounded, to a number that is still written as such.
      have hbelow : (Binary64.ofInt n).Below 64 := Binary64.below_ofInt (by omega)
      rw [ofJson]
      cases Numeral.toInt64? n with
      | some word => exact .int word
      | none => exact .float (hbelow.isFinite (by decide))
  | float hfinite => exact .float hfinite
  | text s => exact .text s
  | @array items _ ih =>
      rw [ofJson, ofItems_eq_map] at hbytes ⊢
      refine .list fun value hvalue => ?_
      obtain ⟨item, hitem, rfl⟩ := List.mem_map.mp hvalue
      exact ih item hitem fun hitem => hbytes (.list hvalue hitem)
  | @object members _ ih =>
      obtain ⟨hunmarked, hmap⟩ := ofJson_object_of_not_bytes hbytes
      rw [hmap] at hbytes ⊢
      refine .map ?_ hunmarked fun entry hentry => ?_
      · rw [Json.fields, ← Entries.ofList_map]
        exact Entries.ascending_ofList _
      · obtain ⟨member, hmember, rfl⟩ := List.mem_map.mp hentry
        exact ih member (Entries.mem_of_mem_ofList hmember) fun h => hbytes (.map hentry h)

theorem map_ofJson_toItems {items : List Value}
    (hitems : ∀ item ∈ items, ofJson item.toJson = item) :
    (toItems items).map ofJson = items := by
  rw [toItems_eq_map, List.map_map]
  exact (List.map_congr_left hitems).trans (List.map_id _)

theorem map_ofJson_toMembers {entries : List (String × Value)}
    (hentries : ∀ entry ∈ entries, ofJson entry.2.toJson = entry.2) :
    (toMembers entries).map (Prod.map id ofJson) = entries := by
  rw [toMembers_eq_map, List.map_map]
  refine (List.map_congr_left fun entry hentry => ?_).trans (List.map_id _)
  exact Prod.ext rfl (hentries entry hentry)

/-- A described value is read from the document that it is written as. -/
theorem Described.ofJson_toJson {value : Value} (hvalue : value.Described) :
    ofJson value.toJson = value := by
  induction hvalue with
  | null => rfl
  | bool b => rfl
  | int n => rw [toJson, ofJson, Numeral.toInt64?_toInt]
  | float hfinite => rw [toJson, if_pos hfinite, ofJson]
  | text s => rfl
  | list _ ih => rw [toJson, ofJson, ofItems_eq_map, map_ofJson_toItems ih]
  | map hascending hunmarked _ ih =>
      rw [toJson, ofJson, ofEntryList_eq_map, map_ofJson_toMembers ih, ofMembers,
        Entries.ofList_of_ascending hascending, hunmarked]

end Value

end OperationChain
