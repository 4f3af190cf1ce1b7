import Mathlib.Data.List.Induction
import OperationChain.Ordered.Map

/-! # Looking up and inserting

What a map finds after an insertion and after an erasure, the entries as the pairs
that it finds, and walks over the entries that do not notice an insertion. Then the
entries that come out of any list: all of them where no key is repeated.
-/

namespace OperationChain

variable {κ ν β : Type} [Ord κ]

namespace Entries

variable {key other : κ} {value : ν} {entries : List (κ × ν)}

theorem find?_eq_none_of_lt (hlt : ∀ entry ∈ entries, compare key entry.1 = .lt) :
    find? key entries = none := by
  induction entries with
  | nil => rfl
  | cons head rest ih =>
      rw [find?, hlt head List.mem_cons_self, if_neg (by decide)]
      exact ih fun entry hentry => hlt entry (List.mem_cons_of_mem _ hentry)

theorem exists_mem_of_find? (hfound : find? key entries = some value) :
    ∃ entry ∈ entries, entry.2 = value := by
  induction entries with
  | nil => cases hfound
  | cons head rest ih =>
      rw [find?] at hfound
      split at hfound
      · exact ⟨head, List.mem_cons_self, Option.some.inj hfound⟩
      · obtain ⟨entry, hentry, hvalue⟩ := ih hfound
        exact ⟨entry, List.mem_cons_of_mem _ hentry, hvalue⟩

theorem length_erase (hfound : find? key entries = some value) :
    (erase key entries).length + 1 = entries.length := by
  induction entries with
  | nil => cases hfound
  | cons head rest ih =>
      rw [find?] at hfound
      rw [erase]
      split at hfound
      next heq => rw [if_pos heq, List.length_cons]
      next hne => rw [if_neg hne, List.length_cons, List.length_cons, ih hfound]

section Lawful

variable [Std.LawfulEqOrd κ]

theorem find?_filter (keep : κ → Bool) (hkeep : keep key = true) (entries : List (κ × ν)) :
    find? key (entries.filter fun entry => keep entry.1) = find? key entries := by
  induction entries with
  | nil => rfl
  | cons head rest ih =>
      rw [List.filter_cons]
      split
      · rw [find?, find?, ih]
      next hhead =>
        have hne : compare key head.1 ≠ .eq := by
          intro heq
          rw [← Std.LawfulEqCmp.eq_of_compare heq] at hhead
          exact hhead hkeep
        rw [find?, if_neg hne, ih]

theorem compare_self (key : κ) : compare key key = .eq := Std.ReflCmp.compare_self

theorem compare_ne_eq (hne : other ≠ key) : compare other key ≠ .eq :=
  fun heq => hne (Std.LawfulEqCmp.eq_of_compare heq)

theorem ne_of_lt (hlt : compare key other = .lt) : key ≠ other := by
  rintro rfl
  rw [compare_self] at hlt
  cases hlt

theorem find?_insert_self : find? key (insert key value entries) = some value := by
  induction entries with
  | nil => simp [insert, find?]
  | cons head rest ih =>
      obtain ⟨k, v⟩ := head
      rw [insert]
      split
      · simp [find?]
      · simp [find?]
      next hgt =>
        rw [find?, hgt, if_neg (by decide)]
        exact ih

theorem find?_insert_of_ne (hne : other ≠ key) :
    find? other (insert key value entries) = find? other entries := by
  have hkey := compare_ne_eq hne
  induction entries with
  | nil => simp [insert, find?, hkey]
  | cons head rest ih =>
      obtain ⟨k, v⟩ := head
      rw [insert]
      split
      · rw [find?, if_neg hkey]
      next heq =>
        have hsame : key = k := Std.LawfulEqCmp.eq_of_compare heq
        rw [find?, find?, ← hsame, if_neg hkey, if_neg hkey]
      · rw [find?, find?, ih]

theorem find?_erase_of_ne (hne : other ≠ key) :
    find? other (erase key entries) = find? other entries := by
  induction entries with
  | nil => rfl
  | cons head rest ih =>
      obtain ⟨k, v⟩ := head
      rw [erase]
      split
      next heq =>
        have hsame : key = k := Std.LawfulEqCmp.eq_of_compare heq
        rw [find?, ← hsame, if_neg (compare_ne_eq hne)]
      · rw [find?, find?, ih]

theorem find?_erase_self (hascending : Ascending entries) :
    find? key (erase key entries) = none := by
  induction entries with
  | nil => rfl
  | cons head rest ih =>
      obtain ⟨k, v⟩ := head
      obtain ⟨hhead, hrest⟩ := List.pairwise_cons.mp hascending
      rw [erase]
      split
      next heq =>
        -- The keys behind an entry are greater than its own.
        have hsame : key = k := Std.LawfulEqCmp.eq_of_compare heq
        exact find?_eq_none_of_lt (hsame ▸ hhead)
      next hne => rw [find?, if_neg hne, ih hrest]

/-- The entries are the pairs of a key and what is found under it. -/
theorem mem_iff_find? (hascending : Ascending entries) :
    (key, value) ∈ entries ↔ find? key entries = some value := by
  induction entries with
  | nil => simp [find?]
  | cons head rest ih =>
      obtain ⟨k, v⟩ := head
      obtain ⟨hhead, hrest⟩ := List.pairwise_cons.mp hascending
      rw [List.mem_cons, find?]
      by_cases hkey : key = k
      · subst hkey
        have hnot : (key, value) ∉ rest := fun hmem => ne_of_lt (hhead _ hmem) rfl
        rw [compare_self, if_pos rfl, Option.some.injEq]
        constructor
        · rintro (heq | hmem)
          · cases heq
            rfl
          · exact absurd hmem hnot
        · rintro rfl
          exact .inl rfl
      · rw [if_neg (compare_ne_eq hkey), ← ih hrest]
        constructor
        · rintro (heq | hmem)
          · cases heq
            exact absurd rfl hkey
          · exact hmem
        · exact .inr

variable [Std.TransOrd κ]

/-- Entries in key order are determined by which they are. -/
theorem eq_of_mem_iff {others : List (κ × ν)} (hentries : Ascending entries)
    (hothers : Ascending others) (hmem : ∀ entry, entry ∈ entries ↔ entry ∈ others) :
    entries = others := by
  have hnodup {list : List (κ × ν)} (hlist : Ascending list) : list.Nodup :=
    hlist.imp fun hlt heq => ne_of_lt hlt (congrArg Prod.fst heq)
  have hperm := (List.perm_ext_iff_of_nodup (hnodup hentries) (hnodup hothers)).mpr hmem
  refine hperm.eq_of_pairwise (fun a b _ _ hab hba => ?_) hentries hothers
  exact absurd (Std.OrientedCmp.gt_of_lt hab) (by rw [hba]; decide)

/-- A walk does not notice an insertion if what stands under the key afterwards
makes as much of the walk as what stood there before. -/
theorem flatMap_insert (hascending : Ascending entries) (walk : κ × ν → List β)
    (hsame : walk (key, value) = (find? key entries).elim [] fun before => walk (key, before)) :
    (insert key value entries).flatMap walk = entries.flatMap walk := by
  induction entries with
  | nil =>
      simp only [find?, Option.elim_none] at hsame
      simp [insert, hsame]
  | cons head rest ih =>
      obtain ⟨k, v⟩ := head
      obtain ⟨hhead, hrest⟩ := List.pairwise_cons.mp hascending
      rw [insert]
      split
      next hlt =>
        have hnone : find? key ((k, v) :: rest) = none := by
          refine find?_eq_none_of_lt fun entry hentry => ?_
          rcases List.mem_cons.mp hentry with rfl | hentry
          · exact hlt
          · exact Std.TransCmp.lt_trans hlt (hhead entry hentry)
        rw [hnone, Option.elim_none] at hsame
        rw [List.flatMap_cons, hsame, List.nil_append]
      next heq =>
        obtain rfl : key = k := Std.LawfulEqCmp.eq_of_compare heq
        rw [find?, heq, if_pos rfl, Option.elim_some] at hsame
        rw [List.flatMap_cons, List.flatMap_cons, hsame]
      next hgt =>
        rw [find?, hgt, if_neg (by decide)] at hsame
        rw [List.flatMap_cons, List.flatMap_cons, ih hrest hsame]

end Lawful

/-! ## Entries out of a list -/

section Lists

variable {list : List (κ × ν)}

theorem ofList_concat (list : List (κ × ν)) (entry : κ × ν) :
    ofList (list ++ [entry]) = insert entry.1 entry.2 (ofList list) := by
  rw [ofList, List.foldl_append]
  rfl

theorem mem_of_mem_ofList {entry : κ × ν} (hentry : entry ∈ ofList list) : entry ∈ list := by
  induction list using List.reverseRecOn with
  | nil => exact hentry
  | append_singleton earlier last ih =>
      rw [ofList_concat] at hentry
      rw [List.mem_append, List.mem_singleton]
      exact (mem_insert hentry).symm.imp_left ih

theorem insert_map {μ : Type} (f : ν → μ) :
    insert key (f value) (entries.map (Prod.map id f)) =
      (insert key value entries).map (Prod.map id f) := by
  induction entries with
  | nil => rfl
  | cons head rest ih =>
      obtain ⟨k, v⟩ := head
      rw [List.map_cons, Prod.map_apply, insert, insert, id, ih]
      cases compare key k <;> rfl

/-- What is done to the values alone can be done before or after. -/
theorem ofList_map {μ : Type} (f : ν → μ) :
    ofList (list.map (Prod.map id f)) = (ofList list).map (Prod.map id f) := by
  induction list using List.reverseRecOn with
  | nil => rfl
  | append_singleton earlier last ih =>
      rw [List.map_append, List.map_singleton, ofList_concat, ofList_concat, ih]
      exact insert_map f

theorem insert_perm [Std.LawfulEqOrd κ] (hkey : ∀ entry ∈ entries, entry.1 ≠ key) :
    (insert key value entries).Perm ((key, value) :: entries) := by
  induction entries with
  | nil => exact .refl _
  | cons head rest ih =>
      obtain ⟨hhead, hrest⟩ := List.forall_mem_cons.mp hkey
      rw [insert]
      split
      · exact .refl _
      next heq => exact absurd (Std.LawfulEqCmp.eq_of_compare heq).symm hhead
      · exact ((ih hrest).cons _).trans (.swap _ _ _)

/-- Where no key is repeated no entry is lost. -/
theorem ofList_perm [Std.LawfulEqOrd κ] (hnodup : (list.map Prod.fst).Nodup) :
    (ofList list).Perm list := by
  induction list using List.reverseRecOn with
  | nil => exact .refl _
  | append_singleton earlier last ih =>
      rw [List.map_append, List.map_singleton, List.nodup_append] at hnodup
      obtain ⟨hearlier, _, hlast⟩ := hnodup
      have hkey : ∀ entry ∈ ofList earlier, entry.1 ≠ last.1 := fun entry hentry =>
        hlast _ (List.mem_map_of_mem (mem_of_mem_ofList hentry)) _ List.mem_cons_self
      rw [ofList_concat]
      have hsame : (last :: ofList earlier).Perm (earlier ++ [last]) :=
        ((ih hearlier).cons last).trans (List.perm_append_singleton last earlier).symm
      exact (insert_perm hkey).trans hsame

variable [Std.TransOrd κ]

theorem insert_of_forall_lt (hlt : ∀ entry ∈ entries, compare entry.1 key = .lt) :
    insert key value entries = entries ++ [(key, value)] := by
  induction entries with
  | nil => rfl
  | cons head rest ih =>
      obtain ⟨hhead, hrest⟩ := List.forall_mem_cons.mp hlt
      rw [insert, Std.OrientedCmp.gt_of_lt hhead, ih hrest]
      rfl

/-- Entries in key order stay as they are. -/
theorem ofList_of_ascending (hascending : Ascending list) : ofList list = list := by
  induction list using List.reverseRecOn with
  | nil => rfl
  | append_singleton earlier last ih =>
      obtain ⟨hearlier, _, hlast⟩ := List.pairwise_append.mp hascending
      rw [ofList_concat, ih hearlier]
      exact insert_of_forall_lt fun entry hentry => hlast entry hentry last List.mem_cons_self

theorem ascending_ofList [Std.LawfulEqOrd κ] (list : List (κ × ν)) : Ascending (ofList list) := by
  induction list using List.reverseRecOn with
  | nil => exact .nil
  | append_singleton earlier last ih =>
      rw [ofList_concat]
      exact ih.insert

end Lists

end Entries

namespace Map

theorem find?_empty (key : κ) : (∅ : Map κ ν).find? key = none := rfl

theorem pairwise_keys (map : Map κ ν) : map.keys.Pairwise fun a b => compare a b = .lt :=
  List.pairwise_map.mpr map.ascending

variable {map : Map κ ν} {key other : κ} {value : ν}

theorem size_erase (hfound : map.find? key = some value) : (map.erase key).size + 1 = map.size :=
  Entries.length_erase hfound

variable [Std.LawfulEqOrd κ]

theorem mem_entries_iff : (key, value) ∈ map.entries ↔ map.find? key = some value :=
  Entries.mem_iff_find? map.ascending

theorem mem_keys_iff : key ∈ map.keys ↔ (map.find? key).isSome := by
  rw [keys, List.mem_map, Option.isSome_iff_exists]
  constructor
  · rintro ⟨⟨_, value⟩, hentry, rfl⟩
    exact ⟨value, mem_entries_iff.mp hentry⟩
  · rintro ⟨value, hvalue⟩
    exact ⟨(key, value), mem_entries_iff.mpr hvalue, rfl⟩

theorem nodup_keys (map : Map κ ν) : map.keys.Nodup := map.pairwise_keys.imp Entries.ne_of_lt

theorem find?_erase_self : (map.erase key).find? key = none :=
  Entries.find?_erase_self map.ascending

theorem find?_erase_of_ne (hne : other ≠ key) :
    (map.erase key).find? other = map.find? other :=
  Entries.find?_erase_of_ne hne

variable [Std.TransOrd κ]

theorem find?_insert_self : (map.insert key value).find? key = some value :=
  Entries.find?_insert_self

theorem find?_insert_of_ne (hne : other ≠ key) :
    (map.insert key value).find? other = map.find? other :=
  Entries.find?_insert_of_ne hne

theorem size_insert (hnone : map.find? key = none) :
    (map.insert key value).size = map.size + 1 := by
  refine (Entries.insert_perm ?_).length_eq
  rintro ⟨_, found⟩ hentry rfl
  rw [mem_entries_iff, hnone] at hentry
  cases hentry

theorem flatMap_entries_insert (walk : κ × ν → List β)
    (hsame : walk (key, value) = (map.find? key).elim [] fun before => walk (key, before)) :
    (map.insert key value).entries.flatMap walk = map.entries.flatMap walk :=
  Entries.flatMap_insert map.ascending walk hsame

theorem entries_ofList (list : List (κ × ν)) : (ofList list).entries = Entries.ofList list := by
  induction list using List.reverseRecOn with
  | nil => rfl
  | append_singleton earlier last ih =>
      rw [Entries.ofList_concat, ← ih, ofList, List.foldl_append]
      rfl

theorem ofList_entries (map : Map κ ν) : ofList map.entries = map :=
  ext_entries (by rw [entries_ofList, Entries.ofList_of_ascending map.ascending])

end Map

end OperationChain
