import OperationChain.Operation.Reader
import OperationChain.Proofs.Value.Document

/-! # Operations that are written and read

An operation that was read is written as a document that is read as the same operation.
Nothing in it is taken for something else: data that was no marker when it was read is none
when it is read again, but for an object that only repeated keys kept from being one.
-/

namespace OperationChain

theorem Numeral.toUInt64?_toNat (n : UInt64) : toUInt64? n.toNat = some n := by
  have hlt := n.toNat_lt
  rw [toUInt64?, if_pos (by omega), Int.toNat_natCast, UInt64.ofNat_toNat]

theorem Numeral.toUInt32?_toNat (n : UInt32) : toUInt32? n.toNat = some n := by
  have hlt := n.toNat_lt
  rw [toUInt32?, if_pos (by omega), Int.toNat_natCast, UInt32.ofNat_toNat]

/-! ## Documents with the same values -/

namespace Json

/-- The objects have the same keys, equally often, with the same values under them. -/
def Alike (a b : List (String × Json)) : Prop :=
  (a.map (Prod.map id Value.ofJson)).Perm (b.map (Prod.map id Value.ofJson))

/-- A reader of fixed keys finds the same value in both. -/
inductive Field.Alike : Field → Field → Prop where
  | absent : Alike .absent .absent
  | present {a b : Json} (hsame : Value.ofJson a = Value.ofJson b) : Alike (.present a) (.present b)
  | repeated : Alike .repeated .repeated

variable {a b : List (String × Json)}

theorem Alike.filter (halike : Alike a b) (wanted : String → Bool) :
    Alike (a.filter fun member => wanted member.1) (b.filter fun member => wanted member.1) := by
  have hfilter := List.Perm.filter (fun entry : String × Value => wanted entry.1) halike
  rw [List.filter_map, List.filter_map] at hfilter
  exact hfilter

theorem Alike.field (halike : Alike a b) (names : List String) :
    (field a names).Alike (field b names) := by
  have hfilter := halike.filter names.contains
  have hlength := hfilter.length_eq
  unfold Json.field
  generalize (a.filter fun member => names.contains member.1) = found at hfilter hlength
  generalize (b.filter fun member => names.contains member.1) = others at hfilter hlength
  rcases found with _ | ⟨first, _ | ⟨second, rest⟩⟩ <;>
    rcases others with _ | ⟨other, _ | ⟨next, later⟩⟩ <;> simp at hlength
  · exact .absent
  · exact .present (congrArg Prod.snd (List.singleton_perm_singleton.mp hfilter))
  · exact .repeated

theorem int64?_congr {a b : Json} (hsame : Value.ofJson a = Value.ofJson b) :
    a.int64? = b.int64? := by
  refine Option.ext fun n => ?_
  rw [← Value.ofJson_eq_int_iff, ← Value.ofJson_eq_int_iff, hsame]

theorem uint32?_eq (json : Json) :
    json.uint32? = json.int64?.bind fun n => Numeral.toUInt32? n.toInt := by
  cases json with
  | integer k =>
      rw [uint32?, int64?, Numeral.toInt64?]
      split
      next hrange => rw [Option.bind_some, Int64.toInt_ofInt_of_le hrange.1 hrange.2]
      next hrange => exact if_neg (by omega)
  | _ => rfl

theorem uint32?_congr {a b : Json} (hsame : Value.ofJson a = Value.ofJson b) :
    a.uint32? = b.uint32? := by
  rw [uint32?_eq, uint32?_eq, int64?_congr hsame]

end Json

/-! ## Markers and data -/

namespace Reference

theorem field?_eq_some_iff {json : Json} {name : Option String} :
    field? (.present json) = some name ↔
      Value.ofJson json = .null ∧ name = none ∨
        ∃ s, Value.ofJson json = .text s ∧ name = some s := by
  simp only [Value.ofJson_eq_null_iff, Value.ofJson_eq_text_iff]
  cases json <;> simp [field?, eq_comm]

theorem field?_congr {a b : Json.Field} (halike : a.Alike b) : field? a = field? b := by
  cases halike with
  | absent => rfl
  | present hsame =>
      refine Option.ext fun name => ?_
      rw [field?_eq_some_iff, field?_eq_some_iff, hsame]
  | repeated => rfl

theorem ofJson?_object_congr {a b : List (String × Json)} (halike : Json.Alike a b) :
    ofJson? (.object a) = ofJson? (.object b) := by
  have hkeys : (a.all fun member => member.1 == refKey || member.1 == "field") =
      b.all fun member => member.1 == refKey || member.1 == "field" := by
    have hall := halike.all_eq (f := fun entry => entry.1 == refKey || entry.1 == "field")
    rw [List.all_map, List.all_map] at hall
    exact hall
  have hfield := field?_congr (halike.field ["field"])
  have hindex := halike.field [refKey]
  rw [ofJson?, ofJson?, hkeys, hfield]
  generalize Json.field a [refKey] = index at hindex
  generalize Json.field b [refKey] = index' at hindex
  cases hindex with
  | absent => rfl
  | present hsame =>
      cases field? (Json.field b ["field"]) with
      | none => rfl
      | some field => simp only [Json.int64?_congr hsame]
  | repeated => rfl

theorem ofJson?_array_congr {a b : List Json} (hsame : a.map Value.ofJson = b.map Value.ofJson) :
    ofJson? (.array a) = ofJson? (.array b) := by
  rcases a with _ | ⟨index, _ | ⟨field, _ | ⟨third, rest⟩⟩⟩ <;>
    rcases b with _ | ⟨index', _ | ⟨field', _ | ⟨third', rest'⟩⟩⟩ <;> simp at hsame
  · rfl
  · rw [ofJson?, ofJson?, Json.int64?_congr hsame]
  · rw [ofJson?, ofJson?, Json.int64?_congr hsame.1, field?_congr (.present hsame.2)]
  · rfl

theorem ofJson?_toJson (target : Reference) : ofJson? target.toJson = some target := by
  obtain ⟨index, _ | field⟩ := target
  · simp [toJson, ofJson?, Json.field, Json.int64?, Numeral.toInt64?_toInt, refKey, field?]
  · simp [toJson, ofJson?, Json.field, Json.int64?, Numeral.toInt64?_toInt, refKey, field?]

end Reference

namespace Param

variable {json : Json}

theorem position?_congr {a b : List (String × Json)} (halike : Json.Alike a b) :
    position? (.object a) = position? (.object b) := by
  have hlength := halike.length_eq
  rcases a with _ | ⟨first, _ | ⟨second, rest⟩⟩ <;>
    rcases b with _ | ⟨other, _ | ⟨next, later⟩⟩ <;> simp at hlength
  · rfl
  · obtain ⟨key, x⟩ := first
    obtain ⟨key', y⟩ := other
    obtain ⟨rfl, hsame⟩ := Prod.mk.inj (List.singleton_perm_singleton.mp halike)
    rw [position?, position?, Json.uint32?_congr hsame]
    rfl
  · rfl

/-- The document is neither a reference nor a bind marker. -/
def IsData (json : Json) : Prop := Reference.ofJson? json = none ∧ position? json = none

theorem ofJson_eq_literal_iff {value : Value} :
    ofJson json = .literal value ↔ IsData json ∧ value = Value.ofJson json := by
  unfold ofJson IsData
  cases Reference.ofJson? json with
  | some target => simp
  | none => cases position? json <;> simp [eq_comm]

/-- The object repeats a key, and is a marker with only the last member under each key. -/
def HidesMarker (members : List (String × Json)) : Prop :=
  ¬ (members.map Prod.fst).Nodup ∧ ¬ IsData (.object (Json.fields members))

theorem isData_object_congr {a b : List (String × Json)} (halike : Json.Alike a b) :
    IsData (.object a) ↔ IsData (.object b) := by
  rw [IsData, IsData, Reference.ofJson?_object_congr halike, position?_congr halike]

/-- Data is data with only the last member under each key, unless it hides a marker. -/
theorem isData_fields {members : List (String × Json)} (hdata : IsData (.object members))
    (hhides : ¬ HidesMarker members) : IsData (.object (Json.fields members)) := by
  by_cases hnodup : (members.map Prod.fst).Nodup
  · have halike : Json.Alike (Json.fields members) members :=
      (Entries.ofList_perm hnodup).map _
    exact (isData_object_congr halike).mpr hdata
  · by_contra hmarker
    exact hhides ⟨hnodup, hmarker⟩

theorem isData_float (x : Binary64) : IsData (Value.float x).toJson := by
  rw [Value.toJson]
  split <;> exact ⟨rfl, rfl⟩

/-- Data that was read is written as data. -/
theorem isData_toJson (hdata : IsData json) (hdescribed : (Value.ofJson json).Described)
    (hhides : ∀ members, json = .object members → ¬ HidesMarker members) :
    IsData (Value.ofJson json).toJson := by
  cases json with
  | object members =>
      rw [Value.ofJson_object] at hdescribed ⊢
      cases hmarked : Value.markedBytes? ((Json.fields members).map (Prod.map id Value.ofJson)) with
      | some raw =>
          rw [hmarked] at hdescribed
          cases hdescribed
      | none =>
          rw [hmarked] at hdescribed
          cases hdescribed with
          | map _ _ hentries =>
              -- What is written has the last member under each key, with its value.
              have hwritten := Value.map_ofJson_toMembers fun entry hentry =>
                (hentries entry hentry).ofJson_toJson
              have halike : Json.Alike _ (Json.fields members) := .of_eq hwritten
              exact (isData_object_congr halike).mpr (isData_fields hdata (hhides members rfl))
  | array items =>
      cases hdescribed with
      | list hitems =>
          have hwritten := Value.map_ofJson_toItems fun item hitem =>
            (hitems item hitem).ofJson_toJson
          rw [Value.ofItems_eq_map] at hwritten
          -- A reference by position depends on the values of the items alone.
          refine ⟨(Reference.ofJson?_array_congr ?_).trans hdata.1, rfl⟩
          rw [Value.ofItems_eq_map]
          exact hwritten
  | integer n =>
      rw [Value.ofJson]
      cases Numeral.toInt64? n with
      | some word => exact ⟨rfl, rfl⟩
      | none => exact isData_float _
  | float x => exact isData_float x
  | _ => exact hdata

/-- A parameter that was read is written as a document that is read as the same parameter. -/
theorem ofJson_toJson_of_read (hjson : json.Representable)
    (hbytes : ∀ value, ofJson json = .literal value → ¬ value.HasBytes)
    (hhides : ∀ members, json = .object members → ¬ HidesMarker members) :
    ofJson (ofJson json).toJson = ofJson json := by
  cases hread : ofJson json with
  | reference target =>
      simp only [toJson, ofJson, Reference.ofJson?_toJson]
  | bind position =>
      have hnone : Reference.ofJson? (toJson (.bind position)) = none := rfl
      have hposition : position? (toJson (.bind position)) = some position := by
        rw [toJson, position?, if_pos rfl, Json.uint32?, Numeral.toUInt32?_toNat]
      rw [ofJson, hnone, hposition]
  | literal value =>
      obtain ⟨hdata, rfl⟩ := ofJson_eq_literal_iff.mp hread
      have hdescribed := Value.described_ofJson hjson (hbytes _ hread)
      rw [toJson, ofJson_eq_literal_iff, hdescribed.ofJson_toJson]
      exact ⟨isData_toJson hdata hdescribed hhides, rfl⟩

end Param

/-! ## Operations -/

theorem OperationKind.ofName_name_of_mem {entry : OperationKind × List String}
    (hentry : entry ∈ spellings) : ofName entry.1.name = entry.1 := by
  have hall : ∀ entry ∈ spellings, ofName entry.1.name = entry.1 := by decide +kernel
  exact hall entry hentry

/-- The name of a kind that was read means this kind. -/
theorem OperationKind.ofName_name_ofName (spelling : String) :
    ofName (ofName spelling).name = ofName spelling := by
  cases hfound : spellings.find? fun entry =>
      entry.1.name == normalize spelling || entry.2.contains (normalize spelling) with
  | some entry =>
      have hname : ofName spelling = entry.1 := by
        rw [ofName, hfound]
      rw [hname, ofName_name_of_mem (List.mem_of_find?_eq_some hfound)]
  | none =>
      -- A kind of its own keeps the spelling as it is, which is no name of another.
      have hname : ofName spelling = .unknown spelling := by
        rw [ofName, hfound]
      rw [hname, name, hname]

theorem Consistency.parse_name (level : Consistency) : parse level.name = .ok level := by
  cases level <;> rfl

namespace Json

/-- What is written under a key, if there is anything to write. -/
def under (key : String) (json? : Option Json) : List (String × Json) :=
  (json?.map (Prod.mk key)).toList

theorem filter_under (names : List String) (key : String) (json? : Option Json) :
    ((under key json?).filter fun member => names.contains member.1) =
      if names.contains key then under key json? else [] := by
  cases json? with
  | none => simp [under]
  | some json =>
      rw [under, Option.map_some, Option.toList_some, List.filter_cons, List.filter_nil]

theorem field_of_filter {members : List (String × Json)} {names : List String} {key : String}
    {json? : Option Json}
    (hfilter : (members.filter fun member => names.contains member.1) = under key json?) :
    field members names = json?.elim .absent .present := by
  rw [field, hfilter]
  cases json? <;> rfl

end Json

namespace Operation

/-- The parameters as they are written, if there are any. -/
def writtenParams? (operation : Operation) : Option Json :=
  if operation.params.entries.isEmpty then none
  else some (.object (operation.params.entries.map (Prod.map id Param.toJson)))

theorem toMembers_eq (operation : Operation) : operation.toMembers =
    Json.under "type" (some (.text operation.kind.name)) ++
      Json.under "params" operation.writtenParams? ++
      Json.under "keyspace" (operation.overrides.keyspace.map .text) ++
      Json.under "table" (operation.overrides.table.map .text) ++
      Json.under "consistency" (operation.overrides.consistency.map fun c => .text c.name) ++
      Json.under "timeout" (operation.overrides.timeout.map fun n => .integer n.toNat) ++
      Json.under "ttl" (operation.overrides.ttl.map fun n => .integer n.toNat) := by
  simp only [toMembers, writtenParams?, List.isEmpty_map, Json.under, Option.map_map]
  split <;> rfl

/-- Each member that is written is found under its key, and none under another. -/
theorem ofJson?_toJson (operation : Operation) : ofJson? operation.toJson =
    ofFields? (.present (.text operation.kind.name))
      (operation.writtenParams?.elim .absent .present)
      ((operation.overrides.keyspace.map Json.text).elim .absent .present)
      ((operation.overrides.table.map Json.text).elim .absent .present)
      ((operation.overrides.consistency.map fun c => Json.text c.name).elim .absent .present)
      ((operation.overrides.timeout.map fun n => Json.integer n.toNat).elim .absent .present)
      ((operation.overrides.ttl.map fun n => Json.integer n.toNat).elim .absent .present) := by
  -- The keys are seven different ones, so the filter of a field leaves what is under its own.
  have hfield (names : List String) (key : String) (json? : Option Json)
      (hfilter : (operation.toMembers.filter fun member => names.contains member.1) =
        Json.under key json?) := Json.field_of_filter hfilter
  simp only [toMembers_eq, List.filter_append, Json.filter_under] at hfield
  simp only [toJson, ofJson?, toMembers_eq]
  rw [hfield ["type"] "type" (some (.text operation.kind.name)) (by simp),
    hfield ["params"] "params" operation.writtenParams? (by simp),
    hfield ["keyspace"] "keyspace" (operation.overrides.keyspace.map .text) (by simp),
    hfield ["table", "columnfamily"] "table" (operation.overrides.table.map .text) (by simp),
    hfield ["consistency"] "consistency" (operation.overrides.consistency.map fun c => .text c.name)
      (by simp),
    hfield ["timeout"] "timeout" (operation.overrides.timeout.map fun n => .integer n.toNat)
      (by simp),
    hfield ["ttl"] "ttl" (operation.overrides.ttl.map fun n => .integer n.toNat) (by simp)]
  rfl

/-- An override that is written is read again, if the reader takes what the writer makes. -/
theorem override?_map {α : Type} (read : Json → Option α) (write : α → Json)
    (hnull : ∀ a, write a ≠ .null) (hread : ∀ a, read (write a) = some a) (given : Option α) :
    override? read ((given.map write).elim .absent .present) = some given := by
  cases given with
  | none => rfl
  | some a =>
      rw [Option.map_some, Option.elim_some, override?, hread, Option.map_some]
      exact hnull a

theorem params?_written {operation : Operation}
    (hparams : ∀ entry ∈ operation.params.entries, Param.ofJson entry.2.toJson = entry.2) :
    params? (operation.writtenParams?.elim .absent .present) = some operation.params := by
  have hsame : (operation.params.entries.map (Prod.map id Param.toJson)).map
      (Prod.map id Param.ofJson) = operation.params.entries := by
    rw [List.map_map]
    refine (List.map_congr_left fun entry hentry => ?_).trans (List.map_id _)
    exact Prod.ext rfl (hparams entry hentry)
  have hread : Param.ofMembers (operation.params.entries.map (Prod.map id Param.toJson)) =
      operation.params := (congrArg Map.ofList hsame).trans operation.params.ofList_entries
  unfold writtenParams?
  split
  next hempty =>
    have hparams : operation.params = ∅ := Map.ext_entries (List.isEmpty_iff.mp hempty)
    rw [Option.elim_none, params?, hparams]
  · rw [Option.elim_some, params?, hread]

/-- An operation is read again if its kind and each of its parameters is. -/
theorem ofJson?_toJson_of_params {operation : Operation}
    (hkind : OperationKind.ofName operation.kind.name = operation.kind)
    (hparams : ∀ entry ∈ operation.params.entries, Param.ofJson entry.2.toJson = entry.2) :
    ofJson? operation.toJson = some operation := by
  have htexts := override?_map Json.text? .text (fun _ => nofun) fun _ => rfl
  have hlevels := override?_map consistency? (fun level => .text level.name) (fun _ => nofun)
    fun level => by rw [consistency?, Consistency.parse_name]; rfl
  have htimeouts := override?_map Json.uint64? (fun n => .integer n.toNat) (fun _ => nofun)
    Numeral.toUInt64?_toNat
  have httls := override?_map Json.uint32? (fun n => .integer n.toNat) (fun _ => nofun)
    Numeral.toUInt32?_toNat
  rw [ofJson?_toJson, ofFields?, params?_written hparams, htexts, htexts, hlevels, htimeouts, httls,
    hkind]
  rfl

/-! ## What was read before -/

/-- What stands in the place of the parameters. -/
def paramsField : Json → Json.Field
  | .object members => Json.field members ["params"]
  | .array items => (items[1]?).elim .absent .present
  | _ => .absent

/-- The documents of the parameters that an operation is read with, by key. -/
def givenParams (json : Json) : List (String × Json) :=
  match paramsField json with
  | .present (.object members) => members
  | _ => []

theorem params?_eq_some {field : Json.Field} {params : Map String Param}
    (hread : params? field = some params) :
    (field = .absent ∧ params = ∅) ∨
      ∃ members, field = .present (.object members) ∧ params = Param.ofMembers members := by
  unfold params? at hread
  split at hread
  · exact .inl ⟨rfl, (Option.some.inj hread).symm⟩
  · exact .inr ⟨_, rfl, (Option.some.inj hread).symm⟩
  · cases hread

theorem ofFields?_eq_some {type params keyspace table consistency timeout ttl : Json.Field}
    {operation : Operation}
    (hread : ofFields? type params keyspace table consistency timeout ttl = some operation) :
    (∃ spelling, operation.kind = OperationKind.ofName spelling) ∧
      params? params = some operation.params := by
  unfold ofFields? at hread
  split at hread
  next spelling =>
    simp only [Option.bind_eq_bind, Option.bind_eq_some_iff] at hread
    obtain ⟨found, hfound, _, _, _, _, _, _, _, _, _, _, hoperation⟩ := hread
    cases hoperation
    exact ⟨⟨spelling, rfl⟩, hfound⟩
  · cases hread

/-- The kind of an operation that was read has a spelling, and its parameters have documents. -/
theorem ofJson?_eq_some {json : Json} {operation : Operation}
    (hread : ofJson? json = some operation) :
    (∃ spelling, operation.kind = OperationKind.ofName spelling) ∧
      operation.params = Param.ofMembers (givenParams json) := by
  have hparams (hfound : params? (paramsField json) = some operation.params) :
      operation.params = Param.ofMembers (givenParams json) := by
    rcases params?_eq_some hfound with ⟨hfield, hempty⟩ | ⟨members, hfield, hmembers⟩
    · rw [hempty, givenParams, hfield]
      rfl
    · rw [hmembers, givenParams, hfield]
  cases json with
  | object members =>
      obtain ⟨hkind, hfound⟩ := ofFields?_eq_some hread
      exact ⟨hkind, hparams hfound⟩
  | array items =>
      rw [ofJson?, Option.ite_none_right_eq_some] at hread
      obtain ⟨hkind, hfound⟩ := ofFields?_eq_some hread.2
      exact ⟨hkind, hparams hfound⟩
  | _ => cases hread

theorem representable_of_field {members : List (String × Json)} {names : List String}
    {found : Json} (hmembers : (Json.object members).Representable)
    (hfield : Json.field members names = .present found) : found.Representable := by
  cases hmembers with
  | object hall =>
      unfold Json.field at hfield
      split at hfield
      · cases hfield
      next key _ hfilter =>
        cases hfield
        have hmem : (key, found) ∈ members :=
          (List.mem_filter.mp (hfilter ▸ List.mem_singleton_self _)).1
        exact hall _ hmem
      · cases hfield

theorem representable_of_mem_givenParams {json : Json} (hjson : json.Representable)
    {member : String × Json} (hmember : member ∈ givenParams json) : member.2.Representable := by
  unfold givenParams at hmember
  split at hmember
  next members hfield =>
    have hmembers : (Json.object members).Representable := by
      cases json with
      | object all => exact representable_of_field hjson hfield
      | array items =>
          cases hjson with
          | array hall =>
              cases hitem : items[1]? with
              | none =>
                  rw [paramsField, hitem] at hfield
                  cases hfield
              | some item =>
                  rw [paramsField, hitem] at hfield
                  cases hfield
                  exact hall _ (List.mem_of_getElem? hitem)
      | _ => cases hfield
    cases hmembers with
    | object hall => exact hall member hmember
  · cases hmember

/-! ## There and back -/

/-- An operation that was read from a document, and holds no bytes, is written as a document
that is read as the same operation, unless a parameter in the document hides a marker. -/
theorem ofJson?_toJson_of_ofJson? {json : Json} {operation : Operation}
    (hread : ofJson? json = some operation) (hjson : json.Representable)
    (hbytes : ∀ entry ∈ operation.params.entries, ∀ value, entry.2 = .literal value →
      ¬ value.HasBytes)
    (hhides : ∀ member ∈ givenParams json, ∀ members, member.2 = .object members →
      ¬ Param.HidesMarker members) :
    ofJson? operation.toJson = some operation := by
  obtain ⟨⟨spelling, hkind⟩, hparams⟩ := ofJson?_eq_some hread
  refine ofJson?_toJson_of_params ?_ fun entry hentry => ?_
  · rw [hkind, OperationKind.ofName_name_ofName]
  · have hnone := hbytes entry hentry
    rw [hparams, Param.ofMembers, Map.entries_ofList] at hentry
    obtain ⟨member, hmember, rfl⟩ := List.mem_map.mp (Entries.mem_of_mem_ofList hentry)
    exact Param.ofJson_toJson_of_read (representable_of_mem_givenParams hjson hmember) hnone
      (hhides member hmember)

/-- An operation by position under an older spelling, with one parameter of each sort. -/
theorem ofJson?_toJson_of_ofJson?_positional :
    let given : List (String × Json) := [("n", .array [.integer 3]),
      ("m", .object [("$bind", .integer 0)]), ("data", .object [("$ref", .text "x")])]
    let json : Json := .array [.text "Create-Column-Family", .object given, .null, .text "cf",
      .text "quorum", .integer 5]
    let params : List (String × Param) := [("data", .literal (.map [("$ref", .text "x")])),
      ("m", .bind 0), ("n", .reference ⟨3, none⟩)]
    let overrides : Overrides := { table := "cf", consistency := some .quorum, timeout := some 5 }
    let operation : Operation := ⟨.createTable, Map.ofList params, overrides⟩
    ofJson? json = some operation ∧ ofJson? operation.toJson = some operation := by
  intro given json params overrides operation
  have hread : ofJson? json = some operation := rfl
  have hgiven : (Json.object given).Representable := by
    refine .object fun member hmember => ?_
    simp only [given, List.mem_cons, List.not_mem_nil, or_false] at hmember
    rcases hmember with rfl | rfl | rfl
    · exact .array (List.forall_mem_singleton.mpr (.integer (by decide) (by decide)))
    · exact .object (List.forall_mem_singleton.mpr (.integer (by decide) (by decide)))
    · exact .object (List.forall_mem_singleton.mpr (.text "x"))
  have hjson : json.Representable := by
    refine .array fun item hitem => ?_
    simp only [List.mem_cons, List.not_mem_nil, or_false] at hitem
    rcases hitem with rfl | rfl | rfl | rfl | rfl | rfl
    · exact .text _
    · exact hgiven
    · exact .null
    · exact .text _
    · exact .text _
    · exact .integer (by decide) (by decide)
  have hbytes : ∀ entry ∈ params, ∀ value, entry.2 = .literal value → ¬ value.HasBytes := by
    intro entry hentry value hvalue hhas
    simp only [params, List.mem_cons, List.not_mem_nil, or_false] at hentry
    rcases hentry with rfl | rfl | rfl
    · cases hvalue
      obtain ⟨entry, hentry, hdeeper⟩ := Value.hasBytes_map_iff.mp hhas
      rw [List.mem_singleton.mp hentry] at hdeeper
      cases hdeeper
    · cases hvalue
    · cases hvalue
  have hhides : ∀ member ∈ given, ∀ members, member.2 = .object members →
      ¬ Param.HidesMarker members := by
    rintro member hmember members hmembers ⟨hrepeats, _⟩
    apply hrepeats
    simp only [given, List.mem_cons, List.not_mem_nil, or_false] at hmember
    rcases hmember with rfl | rfl | rfl
    · cases hmembers
    · cases hmembers
      exact List.nodup_cons.mpr ⟨List.not_mem_nil, .nil⟩
    · cases hmembers
      exact List.nodup_cons.mpr ⟨List.not_mem_nil, .nil⟩
  exact ⟨hread, ofJson?_toJson_of_ofJson? hread hjson hbytes hhides⟩

/-- A repeated key keeps an object from being a reference, and is lost when it is written. -/
theorem not_ofJson?_toJson_of_ofJson? :
    let hidden : Json := .object [("$ref", .integer 1), ("$ref", .integer 2)]
    let json : Json := .object [("type", .text "get"), ("params", .object [("p", hidden)])]
    let literal : Value := .map [("$ref", .int 2)]
    let operation : Operation := ⟨.get, Map.ofList [("p", .literal literal)], {}⟩
    let again : Operation := ⟨.get, Map.ofList [("p", .reference ⟨2, none⟩)], {}⟩
    json.Representable ∧ ¬ literal.HasBytes ∧ ofJson? json = some operation ∧
      ofJson? operation.toJson = some again ∧ operation ≠ again := by
  intro hidden json literal operation again
  have hhidden : hidden.Representable := by
    refine .object (List.forall_mem_cons.mpr ⟨?_, List.forall_mem_singleton.mpr ?_⟩)
    · exact .integer (by decide) (by decide)
    · exact .integer (by decide) (by decide)
  have hjson : json.Representable :=
    .object (List.forall_mem_cons.mpr ⟨.text "get", List.forall_mem_singleton.mpr
      (.object (List.forall_mem_singleton.mpr hhidden))⟩)
  have hbytes : ¬ literal.HasBytes := by
    intro hhas
    obtain ⟨entry, hentry, hdeeper⟩ := Value.hasBytes_map_iff.mp hhas
    rw [List.mem_singleton.mp hentry] at hdeeper
    cases hdeeper
  have hread : ofJson? json = some operation := rfl
  have hwritten : operation.toJson = .object [("type", .text "get"),
    ("params", .object [("p", .object [("$ref", .integer 2)])])] := rfl
  have hagain : ofJson? operation.toJson = some again := by
    rw [hwritten]
    rfl
  refine ⟨hjson, hbytes, hread, hagain, fun hsame => ?_⟩
  have hentries : [("p", Param.literal literal)] = [("p", Param.reference ⟨2, none⟩)] :=
    congrArg (fun operation => operation.params.entries) hsame
  cases hentries

end Operation

end OperationChain
