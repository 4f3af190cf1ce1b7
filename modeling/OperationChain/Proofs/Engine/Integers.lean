import OperationChain.Proofs.Engine.Batches
import OperationChain.Proofs.Text.Numeral
import OperationChain.Proofs.Text.Stretches
import OperationChain.Proofs.Value.Whole

/-! # Whole numbers in operations

What the arguments of an operation and the fields of a batch mean where a whole number is
wanted. They mean the number that they denote, or are refused, but for whole floating point
numbers that no word can hold: these become the nearest word.
-/

namespace OperationChain

/-! ## Denoted numbers -/

namespace Value

variable {v : Value} {m : Int64}

/-- The whole number that an argument denotes: one that it is, one whose numeral it is between
blanks, or the one that its eight bytes hold in two's complement. -/
inductive Denotes : Value → Int → Prop where
  | whole {v : Value} {n : Int} (hwhole : v.IsWhole n) : Denotes v n
  | text {s : String} {lead numeral trail : List Char} {n : Int}
    (hlead : ∀ c ∈ lead, Text.isBlank c = true) (htrail : ∀ c ∈ trail, Text.isBlank c = true)
    (hchars : lead ++ numeral ++ trail = s.toList) (hnumeral : Numeral.Denotes numeral n) :
    Denotes (.text s) n
  | bytes {raw : Bytes} (hlength : raw.length = 8) : Denotes (.bytes raw) raw.twosComplement

/-- A whole floating point number out of range is held to the nearest word. -/
inductive HeldTo : Value → Int64 → Prop where
  | least {x : Binary64} {n : Int} (hwhole : IsWhole (.float x) n)
    (hbelow : n < -0x8000000000000000) : HeldTo (.float x) Int64.minValue
  | greatest {x : Binary64} {n : Int} (hwhole : IsWhole (.float x) n)
    (habove : 0x8000000000000000 ≤ n) : HeldTo (.float x) Int64.maxValue

theorem denotes_text_iff {s : String} {n : Int} :
    Denotes (.text s) n ↔ Numeral.Denotes (Text.trim s).toList n := by
  rw [Text.trim, String.toList_ofList]
  constructor
  · rintro (⟨⟨⟩⟩ | ⟨hlead, htrail, hchars, hnumeral⟩)
    rw [← hchars, Text.trimChars_of_blanks hlead htrail hnumeral.not_blank hnumeral.ne_nil]
    exact hnumeral
  · intro hnumeral
    obtain ⟨lead, trail, hlead, htrail, hchars⟩ := Text.exists_trimChars s.toList
    exact .text hlead htrail hchars hnumeral

theorem denotes_bytes_iff {raw : Bytes} {n : Int} :
    Denotes (.bytes raw) n ↔ raw.length = 8 ∧ raw.twosComplement = n := by
  constructor
  · rintro (⟨⟨⟩⟩ | _ | hlength)
    exact ⟨hlength, rfl⟩
  · rintro ⟨hlength, rfl⟩
    exact .bytes hlength

/-- Other values denote the number that they are. -/
theorem denotes_iff_isWhole {n : Int} (htext : ∀ s, v ≠ .text s) (hbytes : ∀ raw, v ≠ .bytes raw) :
    v.Denotes n ↔ v.IsWhole n := by
  refine ⟨?_, .whole⟩
  rintro (hwhole | _ | _)
  · exact hwhole
  · exact absurd rfl (htext _)
  · exact absurd rfl (hbytes _)

theorem IsWhole.unique {n k : Int} (hn : v.IsWhole n) (hk : v.IsWhole k) : n = k := by
  cases hn with
  | int n =>
      cases hk
      rfl
  | float _ hvalue =>
      cases hk with
      | float _ hother => exact_mod_cast hvalue.symm.trans hother

/-- A value denotes one number at most. -/
theorem Denotes.unique {n k : Int} (hn : v.Denotes n) (hk : v.Denotes k) : n = k := by
  cases v with
  | text s =>
      rw [denotes_text_iff, ← Numeral.int?_eq_some_iff] at hn hk
      exact Option.some.inj (hn.symm.trans hk)
  | bytes raw => exact (denotes_bytes_iff.mp hn).2.symm.trans (denotes_bytes_iff.mp hk).2
  | _ =>
      rw [denotes_iff_isWhole (by rintro _ ⟨⟩) (by rintro _ ⟨⟩)] at hn hk
      exact hn.unique hk

end Value

/-! ## Reading arguments -/

/-- How a whole number is read where a value may stand that denotes it: absent values are none,
and given ones are the number that they denote, or else are refused, or held to a word. -/
structure ReadsIntegers (given? : Option Value) (denotes : Value → Int → Prop)
    (result : Except Error (Option Int64)) : Prop where
  absent : result = .ok none ↔ given? = none
  given : ∀ m, result = .ok (some m) ↔
    ∃ v, given? = some v ∧ (denotes v m.toInt ∨ v.HeldTo m)
  refused : ∀ v, given? = some v → (∀ m : Int64, ¬ denotes v m.toInt ∧ ¬ v.HeldTo m) →
    ∃ e, result = .error e ∧ e.kind = .validation

namespace Arguments

variable {args : Arguments} {key : String} {v : Value} {m : Int64} {e : Error}

end Arguments

theorem Value.HeldTo.bound {v : Value} {m : Int64} (hheld : v.HeldTo m) :
    m.toInt = -0x8000000000000000 ∨ m.toInt = 0x7FFFFFFFFFFFFFFF := by
  cases hheld with
  | least => exact .inl rfl
  | greatest => exact .inr rfl

/-- A time to live is used as it is given, or refused. -/
theorem Context.toNat_of_ttlOf {ctx : Context} {given : Int64} {ttl : Option UInt32}
    (httl : ctx.ttlOf (some given) = .ok ttl) :
    ∃ seconds, ttl = some seconds ∧ (seconds.toNat : Int) = given.toInt := by
  unfold ttlOf at httl
  dsimp only at httl
  split at httl
  next seconds hseconds =>
    cases httl
    unfold Numeral.toUInt32? at hseconds
    split at hseconds
    next hrange =>
      cases hseconds
      exact ⟨_, rfl, Value.toNat_ofNat_seconds hrange⟩
    next => cases hseconds
  next => cases httl

namespace ReadsIntegers

variable {given? : Option Value} {denotes : Value → Int → Prop}
  {result : Except Error (Option Int64)} {given : Option Int64} {v : Value}

theorem exists_of_ok (hreads : ReadsIntegers given? denotes result) (hgiven : result = .ok given)
    (hv : given? = some v) : ∃ m, given = some m ∧ (denotes v m.toInt ∨ v.HeldTo m) := by
  cases given with
  | none =>
      rw [hreads.absent.mp hgiven] at hv
      cases hv
  | some m =>
      obtain ⟨found, hfound, hm⟩ := (hreads.given m).mp hgiven
      obtain rfl := Option.some.inj (hfound.symm.trans hv)
      exact ⟨m, rfl, hm⟩

theorem timestamp {session : Session} {now timestamp : Timestamp}
    (hreads : ReadsIntegers given? denotes result) (hgiven : result = .ok given)
    (htimestamp : session.timestamp given now = .ok timestamp) (hv : given? = some v) :
    denotes v timestamp.toInt ∨ v.HeldTo timestamp := by
  obtain ⟨m, rfl, hm⟩ := hreads.exists_of_ok hgiven hv
  cases htimestamp
  exact hm

theorem ttl {ctx : Context} {ttl : Option UInt32} (hreads : ReadsIntegers given? denotes result)
    (hgiven : result = .ok given) (httl : ctx.ttlOf given = .ok ttl) (hv : given? = some v) :
    ∃ seconds, ttl = some seconds ∧ denotes v seconds.toNat := by
  obtain ⟨m, rfl, hm⟩ := hreads.exists_of_ok hgiven hv
  obtain ⟨seconds, rfl, hseconds⟩ := Context.toNat_of_ttlOf httl
  refine ⟨seconds, rfl, ?_⟩
  rw [hseconds]
  refine hm.resolve_right fun hheld => ?_
  have := seconds.toNat_lt
  have := hheld.bound
  omega

end ReadsIntegers

namespace Arguments

variable {ctx : Context} {args : Arguments} {session : Session} {key : String}

end Arguments

end OperationChain
