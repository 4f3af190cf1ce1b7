import OperationChain.Operation.Wire
import OperationChain.Proofs.Text.Numeral

/-! # Which documents are literals

A document without the key of a reference or of a bind marker is data, unless it is
an array that a reference can be read from by position: of an index alone, or of an
index and a field. No such document is a bind marker.
-/

namespace OperationChain

/-- The keys of an object. -/
def Json.keys : Json → List String
  | .object members => members.map (·.1)
  | _ => []

/-- The array holds the parts of a reference by position. A field that is left out or
null is absent. -/
inductive Reference.Positional : Reference → Json → Prop where
  | index (n : Int64) : Positional ⟨n, none⟩ (.array [.integer n.toInt])
  | null (n : Int64) : Positional ⟨n, none⟩ (.array [.integer n.toInt, .null])
  | field (n : Int64) (name : String) :
      Positional ⟨n, some name⟩ (.array [.integer n.toInt, .text name])

theorem Json.int64?_eq_some_iff {json : Json} {n : Int64} :
    json.int64? = some n ↔ json = .integer n.toInt := by
  constructor
  · intro hread
    cases json with
    | integer value =>
        exact congrArg Json.integer (Numeral.toInt64?_eq_some_iff.mp hread).symm
    | _ => cases hread
  · rintro rfl
    exact Numeral.toInt64?_toInt n

theorem Json.field_eq_absent {members : List (String × Json)} {key : String}
    (hkey : key ∉ (Json.object members).keys) : Json.field members [key] = .absent := by
  have hnone : members.filter (fun member => [key].contains member.1) = [] := by
    simp only [List.filter_eq_nil_iff]
    intro member hmember hcontains
    apply hkey
    have heq : member.1 = key := by simpa using hcontains
    exact List.mem_map.mpr ⟨member, hmember, heq⟩
  rw [Json.field, hnone]

namespace Reference

variable {target : Reference} {json : Json} {items : List Json}

theorem ofJson?_pair_eq_some_iff {index field : Json} :
    ofJson? (.array [index, field]) = some target ↔
      index = .integer target.index.toInt ∧ field? (.present field) = some target.field := by
  rw [ofJson?, ← Json.int64?_eq_some_iff]
  constructor
  · intro hread
    split at hread
    next n name hn hname =>
      cases hread
      exact ⟨hn, hname⟩
    · cases hread
  · rintro ⟨hindex, hfield⟩
    rw [hindex, hfield]

/-- An array is read as a reference exactly where it holds the parts of one. -/
theorem ofJson?_array_eq_some_iff :
    ofJson? (.array items) = some target ↔ target.Positional (.array items) := by
  constructor
  · intro hread
    rcases items with _ | ⟨index, _ | ⟨field, _ | ⟨third, rest⟩⟩⟩
    · cases hread
    · obtain ⟨n, hn, rfl⟩ := Option.map_eq_some_iff.mp hread
      rw [Json.int64?_eq_some_iff.mp hn]
      exact .index n
    · obtain ⟨n, name⟩ := target
      obtain ⟨rfl, hfield⟩ := ofJson?_pair_eq_some_iff.mp hread
      cases field with
      | null =>
          cases hfield
          exact .null n
      | text s =>
          cases hfield
          exact .field n s
      | _ => cases hfield
    · cases hread
  · intro hpositional
    cases hpositional with
    | index n => exact congrArg (Option.map _) (Numeral.toInt64?_toInt n)
    | null n => exact ofJson?_pair_eq_some_iff.mpr ⟨rfl, rfl⟩
    | field n name => exact ofJson?_pair_eq_some_iff.mpr ⟨rfl, rfl⟩

theorem ofJson?_eq_some_iff (hkey : refKey ∉ json.keys) :
    ofJson? json = some target ↔ target.Positional json := by
  cases json with
  | array items => exact ofJson?_array_eq_some_iff
  | object members =>
      constructor
      · intro hread
        rw [ofJson?, Json.field_eq_absent hkey] at hread
        split at hread <;> cases hread
      · intro hpositional
        cases hpositional
  | _ => exact ⟨nofun, nofun⟩

end Reference

namespace Param

variable {json : Json}

theorem position?_eq_none (hkey : bindKey ∉ json.keys) : position? json = none := by
  cases json with
  | object members =>
      rcases members with _ | ⟨⟨key, value⟩, _ | ⟨second, rest⟩⟩
      · rfl
      · have hne : key ≠ bindKey := by
          intro heq
          simp [Json.keys, heq] at hkey
        rw [position?, if_neg hne]
      · rfl
  | _ => rfl

/-- What a document without the key of a reference or of a bind marker becomes: a
reference where it is an array that holds the parts of one, and else a literal. -/
theorem ofJson_of_no_key (href : refKey ∉ json.keys) (hbind : bindKey ∉ json.keys) :
    (∀ target, ofJson json = .reference target ↔ target.Positional json) ∧
      (∀ position, ofJson json ≠ .bind position) ∧
      ((∀ target : Reference, ¬ target.Positional json) ↔
        ofJson json = .literal (Value.ofJson json)) := by
  simp only [← Reference.ofJson?_eq_some_iff href]
  unfold ofJson
  rw [position?_eq_none hbind]
  cases Reference.ofJson? json with
  | some target => simp
  | none => simp

/-- The same two parts are data in one order and a reference in the other. -/
theorem ofJson_of_no_key_pair :
    ofJson (.array [.text "rows", .integer 5]) = .literal (.list [.text "rows", .int 5]) ∧
      ofJson (.array [.integer 5, .text "rows"]) = .reference ⟨5, some "rows"⟩ := by
  have hkeys (key : String) (items : List Json) : key ∉ (Json.array items).keys :=
    List.not_mem_nil
  obtain ⟨_, _, hliteral⟩ :=
    ofJson_of_no_key (hkeys refKey [.text "rows", .integer 5]) (hkeys bindKey _)
  obtain ⟨hreference, _, _⟩ :=
    ofJson_of_no_key (hkeys refKey [.integer 5, .text "rows"]) (hkeys bindKey _)
  refine ⟨hliteral.mp fun target hpositional => ?_, ?_⟩
  · cases hpositional
  · exact (hreference ⟨5, some "rows"⟩).mpr (.field 5 "rows")

/-- A list of one number is read as a reference. -/
theorem not_literal_of_no_key :
    ¬ ∀ json : Json, refKey ∉ json.keys → bindKey ∉ json.keys →
      ofJson json = .literal (Value.ofJson json) := by
  intro hliteral
  have hlist := hliteral (.array [.integer 5]) (by simp [Json.keys]) (by simp [Json.keys])
  cases hlist

end Param

end OperationChain
