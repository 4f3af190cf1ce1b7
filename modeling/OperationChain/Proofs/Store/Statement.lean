import OperationChain.Proofs.Text.Numeral
import OperationChain.Proofs.Text.Stretches
import OperationChain.Store.Statement
import Mathlib.Data.List.Forall2

/-! # The grammar of query statements

What a statement is made of, as a structure with one field for each part. Statements are read
just as far as they are made in this way, and a text is made so in one way at most: every part
ends where no character follows that it could go on with.
-/

namespace OperationChain.Select

open Text (Stops isBlank isDecimalDigit append_inj_of_stops blankCodes mem_blankCodes)

/-! ## Parts of a statement -/

/-- A character is a small letter in one of its cases. Besides the capital letter, the long s is a
case of s, and the sign of the kelvin a case of k. -/
def IsCaseOf (small c : Char) : Prop :=
  c.toLower = small ∨ (small = 's' ∧ c = 'ſ') ∨ (small = 'k' ∧ c = '\u212a')

/-- A word that is spelled in letters of any case. -/
def Spelled (word cs : List Char) : Prop := List.Forall₂ IsCaseOf word cs

/-- A small letter or an underscore. -/
def IsNameStart (c : Char) : Prop := ('a' ≤ c ∧ c ≤ 'z') ∨ c = '_'

/-- Small letters, digits and underscores, without a digit in front. -/
def IsName (word : List Char) : Prop :=
  ∃ first rest, word = first :: rest ∧ IsNameStart first ∧
    ∀ c ∈ rest, IsNameStart c ∨ ('0' ≤ c ∧ c ≤ '9')

/-- Any number of blanks. -/
abbrev Blanks : Type := { cs : List Char // ∀ c ∈ cs, isBlank c = true }

/-- One or more blanks. -/
abbrev Gap : Type := { cs : List Char // cs ≠ [] ∧ ∀ c ∈ cs, isBlank c = true }

/-- A spelling of a keyword. -/
abbrev Keyword (word : List Char) : Type := { cs : List Char // Spelled word cs }

/-- A name in letters of any case. -/
abbrev Name : Type := { cs : List Char // ∃ word, IsName word ∧ Spelled word cs }

/-- Digits whose number is a word of 64 bits. -/
abbrev Count : Type :=
  { digits : List Char // Numeral.IsDigits digits ∧ Nat.ofDigitChars 10 digits 0 < UInt64.size }

/-- What is selected from: a table, perhaps after its keyspace and a point. -/
structure Target where
  keyspace : Option Name
  table : Name

/-- How many rows are selected at most. -/
structure Limit where
  before : Gap
  keyword : Keyword ['l', 'i', 'm', 'i', 't']
  after : Gap
  count : Count

/-- The end of a statement: blanks, and perhaps a semicolon with blanks after it. -/
structure Ending where
  blanks : Blanks
  closing : Option Blanks

/-- A statement. -/
@[ext] structure Phrase where
  lead : Blanks
  select : Keyword ['s', 'e', 'l', 'e', 'c', 't']
  beforeStar : Gap
  afterStar : Gap
  source : Keyword ['f', 'r', 'o', 'm']
  beforeTarget : Gap
  target : Target
  limit : Option Limit
  ending : Ending

def Target.chars (target : Target) : List Char :=
  target.keyspace.elim [] (fun keyspace => keyspace.1 ++ ['.']) ++ target.table.1

def Limit.chars (limit : Limit) : List Char :=
  limit.before.1 ++ limit.keyword.1 ++ limit.after.1 ++ limit.count.1

def Ending.chars (ending : Ending) : List Char :=
  ending.blanks.1 ++ ending.closing.elim [] fun blanks => ';' :: blanks.1

/-- The characters of a statement. -/
def Phrase.chars (phrase : Phrase) : List Char :=
  phrase.lead.1 ++ phrase.select.1 ++ phrase.beforeStar.1 ++ ['*'] ++ phrase.afterStar.1 ++
    phrase.source.1 ++ phrase.beforeTarget.1 ++ phrase.target.chars ++
    phrase.limit.elim [] Limit.chars ++ phrase.ending.chars

/-- What a statement asks for: the names as they are spelled, and the number of its digits. -/
def Phrase.asked (phrase : Phrase) : Select where
  keyspace := phrase.target.keyspace.map fun keyspace => String.ofList keyspace.1
  table := String.ofList phrase.target.table.1
  limit := phrase.limit.map fun limit => Nat.ofDigitChars 10 limit.count.1 0

/-! ## Characters -/

section Characters

variable {small c : Char}

/-- Only capital letters change in lower case. -/
theorem toNat_toLower (c : Char) :
    (65 ≤ c.toNat ∧ c.toNat ≤ 90) ∧ c.toLower.toNat = c.toNat + 32 ∨
      ¬ (65 ≤ c.toNat ∧ c.toNat ≤ 90) ∧ c.toLower.toNat = c.toNat := by
  by_cases hupper : c.val ≥ 'A'.val ∧ c.val ≤ 'Z'.val
  · have hbound : c.val.toNat ≤ 90 := hupper.2
    have hlower : c.toLower.toNat = (c.val + 32).toNat := congrArg Char.toNat (dif_pos hupper)
    refine .inl ⟨hupper, ?_⟩
    rw [hlower, UInt32.toNat_add]
    exact Nat.mod_eq_of_lt (Nat.lt_of_le_of_lt (Nat.add_le_add_right hbound 32) (by decide))
  · exact .inr ⟨hupper, congrArg Char.toNat (dif_neg hupper)⟩

theorem isSameLetter_iff : isSameLetter small c = true ↔ IsCaseOf small c := by
  simp only [isSameLetter, IsCaseOf, Bool.or_eq_true, Bool.and_eq_true, beq_iff_eq, or_assoc,
    ← Char.toNat_inj]
  rfl

theorem isCaseOf_iff : IsCaseOf small c ↔
    c.toLower.toNat = small.toNat ∨ (small.toNat = 115 ∧ c.toNat = 0x17F) ∨
      (small.toNat = 107 ∧ c.toNat = 0x212A) := by
  simp only [IsCaseOf, ← Char.toNat_inj]
  rfl

theorem startsName_iff_toNat : startsName c = true ↔
    (97 ≤ c.toNat ∧ c.toNat ≤ 122) ∨ (65 ≤ c.toNat ∧ c.toNat ≤ 90) ∨ c.toNat = 0x17F ∨
      c.toNat = 0x212A ∨ c.toNat = 95 := by
  simp only [startsName, isLetter, Bool.or_eq_true, Bool.and_eq_true, decide_eq_true_eq, beq_iff_eq,
    or_assoc, ← Char.toNat_inj (d := '_')]
  rfl

theorem continuesName_iff_toNat :
    continuesName c = true ↔ startsName c = true ∨ (48 ≤ c.toNat ∧ c.toNat ≤ 57) := by
  simp only [continuesName, Bool.or_eq_true, Bool.and_eq_true, decide_eq_true_eq]
  rfl

theorem isNameStart_iff : IsNameStart c ↔ (97 ≤ c.toNat ∧ c.toNat ≤ 122) ∨ c.toNat = 95 :=
  or_congr_right Char.toNat_inj.symm

/-- A name can start with the small letters and the underscore, in any case. -/
theorem startsName_iff :
    startsName c = true ↔ ∃ small, IsNameStart small ∧ IsCaseOf small c := by
  have hlower := toNat_toLower c
  simp only [startsName_iff_toNat, isNameStart_iff, isCaseOf_iff]
  constructor
  · intro hc
    by_cases hs : c.toNat = 0x17F
    · exact ⟨'s', by decide, .inr (.inl ⟨rfl, hs⟩)⟩
    by_cases hk : c.toNat = 0x212A
    · exact ⟨'k', by decide, .inr (.inr ⟨rfl, hk⟩)⟩
    · exact ⟨c.toLower, by omega, .inl rfl⟩
  · rintro ⟨small, hsmall, hsame⟩
    omega

theorem continuesName_iff : continuesName c = true ↔
    ∃ small, (IsNameStart small ∨ ('0' ≤ small ∧ small ≤ '9')) ∧ IsCaseOf small c := by
  have hlower := toNat_toLower c
  rw [continuesName_iff_toNat, startsName_iff]
  constructor
  · rintro (⟨small, hsmall, hsame⟩ | hdigit)
    · exact ⟨small, .inl hsmall, hsame⟩
    · exact ⟨c, .inr hdigit, isCaseOf_iff.mpr (.inl (by omega))⟩
  · rintro ⟨small, hsmall | hdigit, hsame⟩
    · exact .inl ⟨small, hsmall, hsame⟩
    · have hbounds : 48 ≤ small.toNat ∧ small.toNat ≤ 57 := hdigit
      rw [isCaseOf_iff] at hsame
      exact .inr (by omega)

theorem isBlank_of_isCaseOf (hsame : IsCaseOf small c)
    (hsmall : isBlank small = false) : isBlank c = false := by
  rw [Bool.eq_false_iff]
  intro hblank
  have hcodes : ∀ code ∈ blankCodes, ¬ (65 ≤ code ∧ code ≤ 90) ∧ code ≠ 0x17F ∧ code ≠ 0x212A := by
    decide
  obtain ⟨hupper, hs, hk⟩ := hcodes _ (mem_blankCodes hblank)
  have hlower := toNat_toLower c
  rw [isCaseOf_iff] at hsame
  obtain rfl : small = c := Char.toNat_inj.mp (by omega)
  rw [hsmall] at hblank
  cases hblank

theorem isBlank_of_continuesName (hname : continuesName c = true) : isBlank c = false := by
  rw [Bool.eq_false_iff]
  intro hblank
  have hcodes : ∀ code ∈ blankCodes, code < 48 ∨ 123 ≤ code ∧ code ≠ 0x17F ∧ code ≠ 0x212A := by
    decide
  have hcode := hcodes _ (mem_blankCodes hblank)
  rw [continuesName_iff_toNat, startsName_iff_toNat] at hname
  omega
end Characters

/-! ## What is read -/

section Readers

variable {cs rest : List Char}

theorem spelled_nil_iff : Spelled [] cs ↔ cs = [] := List.forall₂_nil_left_iff

theorem spelled_cons_iff {small : Char} {word : List Char} : Spelled (small :: word) cs ↔
    ∃ c rest, cs = c :: rest ∧ IsCaseOf small c ∧ Spelled word rest := by
  constructor
  · rintro (_ | ⟨hsame, hrest⟩)
    exact ⟨_, _, rfl, hsame, hrest⟩
  · rintro ⟨c, rest, rfl, hsame, hrest⟩
    exact .cons hsame hrest

theorem exists_spelled_iff {kind : Char → Prop} :
    (∃ word, (∀ small ∈ word, kind small) ∧ Spelled word cs) ↔
      ∀ c ∈ cs, ∃ small, kind small ∧ IsCaseOf small c := by
  induction cs with
  | nil => exact iff_of_true ⟨[], List.forall_mem_nil _, .nil⟩ (List.forall_mem_nil _)
  | cons c rest ih =>
      rw [List.forall_mem_cons, ← ih]
      constructor
      · rintro ⟨word, hword, _ | ⟨hsame, hrest⟩⟩
        obtain ⟨hsmall, hword⟩ := List.forall_mem_cons.mp hword
        exact ⟨⟨_, hsmall, hsame⟩, _, hword, hrest⟩
      · rintro ⟨⟨small, hsmall, hsame⟩, word, hword, hrest⟩
        exact ⟨small :: word, List.forall_mem_cons.mpr ⟨hsmall, hword⟩, .cons hsame hrest⟩

theorem exists_name_iff : (∃ word, IsName word ∧ Spelled word cs) ↔
    ∃ c rest, cs = c :: rest ∧ startsName c = true ∧ ∀ d ∈ rest, continuesName d = true := by
  simp only [startsName_iff, continuesName_iff, ← exists_spelled_iff]
  constructor
  · rintro ⟨_, ⟨small, word, rfl, hsmall, hword⟩, hspelled⟩
    obtain ⟨c, rest, rfl, hsame, hrest⟩ := spelled_cons_iff.mp hspelled
    exact ⟨c, rest, rfl, ⟨small, hsmall, hsame⟩, word, hword, hrest⟩
  · rintro ⟨c, rest, rfl, ⟨small, hsmall, hsame⟩, word, hword, hrest⟩
    exact ⟨small :: word, ⟨small, word, rfl, hsmall, hword⟩, .cons hsame hrest⟩

theorem afterWord?_eq_some_iff {word : List Char} :
    afterWord? word cs = some rest ↔ ∃ spelling, Spelled word spelling ∧ spelling ++ rest = cs := by
  induction word generalizing cs with
  | nil => simp [afterWord?, spelled_nil_iff, eq_comm]
  | cons small word ih =>
      simp only [spelled_cons_iff]
      cases cs with
      | nil =>
          refine iff_of_false (by rintro ⟨⟩) ?_
          rintro ⟨_, ⟨c, spelling, rfl, _⟩, ⟨⟩⟩
      | cons c cs =>
          rw [afterWord?]
          split
          next hsame =>
            rw [ih]
            constructor
            · rintro ⟨spelling, hspelled, rfl⟩
              exact ⟨c :: spelling, ⟨c, spelling, rfl, isSameLetter_iff.mp hsame, hspelled⟩, rfl⟩
            · rintro ⟨_, ⟨_, spelling, rfl, _, hspelled⟩, ⟨⟩⟩
              exact ⟨spelling, hspelled, rfl⟩
          next hother =>
            refine iff_of_false (by rintro ⟨⟩) ?_
            rintro ⟨_, ⟨_, spelling, rfl, hsame, _⟩, ⟨⟩⟩
            exact hother (isSameLetter_iff.mpr hsame)

theorem afterBlanks?_eq_some_iff : afterBlanks? cs = some rest ↔
    ∃ gap, (gap ≠ [] ∧ ∀ c ∈ gap, isBlank c = true) ∧ gap ++ rest = cs ∧ Stops isBlank rest := by
  cases cs with
  | nil =>
      refine iff_of_false (by rintro ⟨⟩) ?_
      rintro ⟨gap, ⟨hsome, _⟩, hnil, _⟩
      exact hsome (List.append_eq_nil_iff.mp hnil).1
  | cons c cs =>
      rw [afterBlanks?]
      split
      next hblank =>
        rw [Option.some.injEq, Text.trimLeft, Text.dropWhile_eq_iff]
        constructor
        · rintro ⟨gap, hgap, rfl, hrest⟩
          exact ⟨c :: gap, ⟨List.cons_ne_nil c gap, List.forall_mem_cons.mpr ⟨hblank, hgap⟩⟩, rfl,
            hrest⟩
        · rintro ⟨_ | ⟨first, gap⟩, ⟨hsome, hgap⟩, hsame, hrest⟩
          · exact absurd rfl hsome
          · obtain ⟨-, hsame⟩ := List.cons.inj hsame
            exact ⟨gap, (List.forall_mem_cons.mp hgap).2, hsame, hrest⟩
      next hother =>
        refine iff_of_false (by rintro ⟨⟩) ?_
        rintro ⟨_ | ⟨first, gap⟩, ⟨hsome, hgap⟩, hsame, _⟩
        · exact hsome rfl
        · obtain ⟨rfl, -⟩ := List.cons.inj hsame
          exact hother (hgap first List.mem_cons_self)

theorem name?_eq_some_iff {name : List Char} : name? cs = some (name, rest) ↔
    (∃ word, IsName word ∧ Spelled word name) ∧ name ++ rest = cs ∧ Stops continuesName rest := by
  rw [exists_name_iff]
  cases cs with
  | nil =>
      refine iff_of_false (by rintro ⟨⟩) ?_
      rintro ⟨⟨c, tail, rfl, _⟩, ⟨⟩, _⟩
  | cons c cs =>
      rw [name?]
      split
      next hstarts =>
        rw [Option.some.injEq, Prod.mk.injEq]
        constructor
        · rintro ⟨rfl, rfl⟩
          exact ⟨⟨c, _, rfl, hstarts, Text.forall_mem_takeWhile _ _⟩,
            congrArg _ List.takeWhile_append_dropWhile, Text.stops_dropWhile _ _⟩
        · rintro ⟨⟨_, tail, rfl, _, htail⟩, ⟨⟩, hrest⟩
          exact ⟨congrArg _ (Text.takeWhile_of_stops htail hrest),
            Text.dropWhile_of_stops htail hrest⟩
      next hother =>
        refine iff_of_false (by rintro ⟨⟩) ?_
        rintro ⟨⟨_, tail, rfl, hstarts, _⟩, ⟨⟩, _⟩
        exact hother hstarts

/-- The statement ends here, or goes on with a blank. -/
def Ends (rest : List Char) : Prop := ∀ c ∈ rest.head?, isBlank c = true ∨ c = ';'

theorem Ends.stops {p : Char → Bool} (hends : Ends rest)
    (hblank : ∀ c, isBlank c = true → p c = false) (hclose : p ';' = false) : Stops p rest := by
  intro c hc
  rcases hends c hc with hc | rfl
  · exact hblank c hc
  · exact hclose

theorem Ends.stops_name (hends : Ends rest) : Stops continuesName rest := by
  refine hends.stops (fun c hc => ?_) rfl
  rw [Bool.eq_false_iff]
  intro hname
  rw [isBlank_of_continuesName hname] at hc
  cases hc

theorem Ends.stops_digits (hends : Ends rest) : Stops isDecimalDigit rest :=
  hends.stops (fun _ => Text.isDecimalDigit_of_isBlank) (by decide)

theorem exists_of_target? {keyspace : Option (List Char)} {table : List Char}
    (htarget : target? cs = some (keyspace, table, rest)) :
    ∃ target : Target, target.chars ++ rest = cs ∧
      target.keyspace.map Subtype.val = keyspace ∧ target.table.1 = table := by
  obtain ⟨⟨first, after⟩, hfirst, hafter⟩ := Option.bind_eq_some_iff.mp htarget
  obtain ⟨hname, rfl, _⟩ := name?_eq_some_iff.mp hfirst
  dsimp only at hafter
  split at hafter
  next after =>
    obtain ⟨⟨second, last⟩, hsecond, hparts⟩ := Option.bind_eq_some_iff.mp hafter
    cases hparts
    obtain ⟨htable, rfl, _⟩ := name?_eq_some_iff.mp hsecond
    exact ⟨⟨some ⟨first, hname⟩, ⟨second, htable⟩⟩, by simp [Target.chars], rfl, rfl⟩
  next =>
    cases hafter
    exact ⟨⟨none, ⟨_, hname⟩⟩, rfl, rfl, rfl⟩

theorem target?_chars (target : Target) (hends : Ends rest) :
    target? (target.chars ++ rest) =
      some (target.keyspace.map Subtype.val, target.table.1, rest) := by
  obtain ⟨keyspace, table⟩ := target
  have htable : name? (table.1 ++ rest) = some (table.1, rest) :=
    name?_eq_some_iff.mpr ⟨table.2, rfl, hends.stops_name⟩
  cases keyspace with
  | none =>
      have hpoint : ∀ after, rest ≠ '.' :: after := by
        rintro after rfl
        rcases hends '.' rfl with hblank | hclose
        · cases hblank
        · cases hclose
      rw [target?, Target.chars, Option.elim_none, List.nil_append, htable, Option.bind_eq_bind,
        Option.bind_some]
      dsimp only
      split
      next after => exact absurd rfl (hpoint after)
      next => rfl
  | some keyspace =>
      have hkeyspace : name? (keyspace.1 ++ '.' :: (table.1 ++ rest)) =
          some (keyspace.1, '.' :: (table.1 ++ rest)) :=
        name?_eq_some_iff.mpr ⟨keyspace.2, rfl, .cons rfl⟩
      rw [target?, Target.chars, Option.elim_some, List.append_assoc, List.append_assoc,
        List.singleton_append, hkeyspace, Option.bind_eq_bind, Option.bind_some]
      change (name? (table.1 ++ rest)).bind _ = _
      rw [htable]
      rfl

theorem exists_of_limit? {digits : List Char} (hlimit : limit? cs = some (digits, rest))
    (hcount : Numeral.IsDigits digits ∧ Nat.ofDigitChars 10 digits 0 < UInt64.size) :
    ∃ limit : Limit, limit.chars ++ rest = cs ∧ limit.count.1 = digits := by
  obtain ⟨first, hgap, hfirst⟩ := Option.bind_eq_some_iff.mp hlimit
  obtain ⟨second, hword, hsecond⟩ := Option.bind_eq_some_iff.mp hfirst
  obtain ⟨third, hnext, hthird⟩ := Option.bind_eq_some_iff.mp hsecond
  obtain ⟨before, hbefore, rfl, _⟩ := afterBlanks?_eq_some_iff.mp hgap
  obtain ⟨keyword, hkeyword, rfl⟩ := afterWord?_eq_some_iff.mp hword
  obtain ⟨after, hafter, rfl, _⟩ := afterBlanks?_eq_some_iff.mp hnext
  split at hthird
  next => cases hthird
  next =>
    obtain ⟨hdigits, hrest⟩ := Prod.mk.inj (Option.some.inj hthird)
    refine ⟨⟨⟨before, hbefore⟩, ⟨keyword, hkeyword⟩, ⟨after, hafter⟩, ⟨digits, hcount⟩⟩, ?_, rfl⟩
    rw [← List.takeWhile_append_dropWhile (p := isDecimalDigit) (l := third), hdigits, hrest]
    simp [Limit.chars]

theorem Keyword.stops {small : Char} {word : List Char} (keyword : Keyword (small :: word))
    (hsmall : isBlank small = false) : Stops isBlank (keyword.1 ++ rest) := by
  obtain ⟨c, spelling, hspelling, hsame, _⟩ := spelled_cons_iff.mp keyword.2
  rw [hspelling]
  exact .cons (isBlank_of_isCaseOf hsame hsmall)

theorem Count.stops (count : Count) : Stops isBlank (count.1 ++ rest) := by
  obtain ⟨⟨hsome, hdigits⟩, _⟩ := count.2
  refine Stops.append (fun c hc => ?_) (absurd · hsome)
  exact Text.isBlank_of_digit (hdigits c (List.mem_of_mem_head? hc))

theorem afterBlanks?_gap (gap : Gap) (hrest : Stops isBlank rest) :
    afterBlanks? (gap.1 ++ rest) = some rest := afterBlanks?_eq_some_iff.mpr ⟨_, gap.2, rfl, hrest⟩

theorem afterWord?_keyword {word : List Char} (keyword : Keyword word) :
    afterWord? word (keyword.1 ++ rest) = some rest :=
  afterWord?_eq_some_iff.mpr ⟨_, keyword.2, rfl⟩

theorem isDecimalDigit_of_count (count : Count) : ∀ c ∈ count.1, isDecimalDigit c = true := by
  obtain ⟨⟨_, hdigits⟩, _⟩ := count.2
  intro c hc
  exact Text.isDecimalDigit_of_digit (hdigits c hc)

theorem limit?_chars (limit : Limit) (hends : Ends rest) :
    limit? (limit.chars ++ rest) = some (limit.count.1, rest) := by
  have hdigits := isDecimalDigit_of_count limit.count
  obtain ⟨⟨hsome, _⟩, _⟩ := limit.count.2
  simp only [limit?, Limit.chars, List.append_assoc, Option.bind_eq_bind, Option.bind_some,
    afterBlanks?_gap limit.before (limit.keyword.stops rfl), afterWord?_keyword,
    afterBlanks?_gap limit.after limit.count.stops,
    Text.takeWhile_of_stops hdigits hends.stops_digits,
    Text.dropWhile_of_stops hdigits hends.stops_digits]

theorem Ending.stops_closing (ending : Ending) :
    Stops isBlank (ending.closing.elim [] fun blanks => ';' :: blanks.1) := by
  cases ending.closing with
  | none => exact .nil
  | some blanks => exact .cons rfl

theorem Ending.ends (ending : Ending) : Ends ending.chars := by
  obtain ⟨⟨blanks, hblanks⟩, closing⟩ := ending
  cases blanks with
  | nil =>
      cases closing with
      | none => rintro c ⟨⟩
      | some after =>
          rintro c ⟨⟩
          exact .inr rfl
  | cons c blanks =>
      rintro _ ⟨⟩
      exact .inl (hblanks c List.mem_cons_self)

theorem isEnd_iff : isEnd cs = true ↔ ∃ ending : Ending, ending.chars = cs := by
  constructor
  · intro hend
    unfold isEnd at hend
    obtain ⟨front, hfront, hcs, _⟩ := Text.dropWhile_eq_iff.mp (rfl : Text.trimLeft cs = _)
    split at hend
    next hnone =>
      refine ⟨⟨⟨front, hfront⟩, none⟩, ?_⟩
      rw [← hcs, hnone]
      rfl
    next rest hsemicolon =>
      obtain ⟨back, hback, hrest, _⟩ := Text.dropWhile_eq_iff.mp (rfl : Text.trimLeft rest = _)
      rw [List.isEmpty_iff.mp hend, List.append_nil] at hrest
      refine ⟨⟨⟨front, hfront⟩, some ⟨back, hback⟩⟩, ?_⟩
      rw [← hcs, hsemicolon, ← hrest]
      rfl
    next => cases hend
  · rintro ⟨ending, rfl⟩
    rw [isEnd, Ending.chars, Text.trimLeft,
      Text.dropWhile_of_stops ending.blanks.2 ending.stops_closing]
    cases ending.closing with
    | none => rfl
    | some blanks =>
        have hnone := Text.dropWhile_of_stops blanks.2 .nil
        rw [List.append_nil] at hnone
        exact List.isEmpty_iff.mpr hnone

/-- No limit stands where a statement ends. -/
theorem limit?_ending (ending : Ending) : limit? ending.chars = none := by
  rw [Option.eq_none_iff_forall_ne_some]
  rintro ⟨digits, rest⟩ hlimit
  obtain ⟨first, hgap, hfirst⟩ := Option.bind_eq_some_iff.mp hlimit
  obtain ⟨second, hword, _⟩ := Option.bind_eq_some_iff.mp hfirst
  obtain ⟨before, hbefore, hsplit, hstops⟩ := afterBlanks?_eq_some_iff.mp hgap
  obtain ⟨_, rfl⟩ :=
    append_inj_of_stops hbefore.2 hstops ending.blanks.2 ending.stops_closing hsplit
  obtain ⟨keyword, hkeyword, hclosing⟩ := afterWord?_eq_some_iff.mp hword
  obtain ⟨c, spelling, rfl, hsame, _⟩ := spelled_cons_iff.mp hkeyword
  cases hending : ending.closing with
  | none =>
      rw [hending] at hclosing
      cases hclosing
  | some blanks =>
      rw [hending] at hclosing
      obtain ⟨rfl, _⟩ := List.cons.inj hclosing
      cases isSameLetter_iff.mpr hsame

end Readers

/-! ## Statements -/

section Phrases

variable {cs rest : List Char}

theorem Name.stops (name : Name) : Stops isBlank (name.1 ++ rest) := by
  obtain ⟨c, tail, hname, hstarts, _⟩ := exists_name_iff.mp name.2
  rw [hname]
  exact .cons (isBlank_of_continuesName (continuesName_iff_toNat.mpr (.inl hstarts)))

theorem Target.stops (target : Target) : Stops isBlank (target.chars ++ rest) := by
  obtain ⟨keyspace, table⟩ := target
  cases keyspace with
  | none => exact table.stops
  | some keyspace =>
      rw [Target.chars, Option.elim_some, List.append_assoc, List.append_assoc]
      exact keyspace.stops

/-- What comes after the target: perhaps a limit, and the end. -/
def Phrase.tail (phrase : Phrase) : List Char :=
  phrase.limit.elim [] Limit.chars ++ phrase.ending.chars

theorem Phrase.ends (phrase : Phrase) : Ends phrase.tail := by
  obtain ⟨_, _, _, _, _, _, _, limit, ending⟩ := phrase
  cases limit with
  | none => exact ending.ends
  | some limit =>
      obtain ⟨⟨before, hsome, hbefore⟩, _, _, _⟩ := limit
      cases before with
      | nil => exact absurd rfl hsome
      | cons c before =>
          rintro _ ⟨⟩
          exact .inl (hbefore c List.mem_cons_self)

theorem spelled_star_iff : Spelled ['*'] cs ↔ cs = ['*'] := by
  have hstar (c : Char) : IsCaseOf '*' c ↔ c = '*' := by
    have hlower := toNat_toLower c
    have hcode : ('*').toNat = 42 := rfl
    rw [isCaseOf_iff, ← Char.toNat_inj]
    omega
  simp [spelled_cons_iff, spelled_nil_iff, hstar]

theorem limit?_tail (phrase : Phrase) : limit? phrase.tail =
    phrase.limit.map fun limit => (limit.count.1, phrase.ending.chars) := by
  rw [Phrase.tail]
  cases phrase.limit with
  | none => exact limit?_ending phrase.ending
  | some limit => exact limit?_chars limit phrase.ending.ends

/-- The characters from the front, as they are read. -/
theorem Phrase.chars_eq (phrase : Phrase) :
    phrase.chars = phrase.lead.1 ++ (phrase.select.1 ++ (phrase.beforeStar.1 ++ ('*' ::
      (phrase.afterStar.1 ++ (phrase.source.1 ++ (phrase.beforeTarget.1 ++
        (phrase.target.chars ++ phrase.tail))))))) := by
  simp [Phrase.chars, Phrase.tail]

theorem stops_star : Stops isBlank ('*' :: rest) := .cons rfl

/-- All parts of a statement are read as they are. -/
theorem parts?_chars (phrase : Phrase) : parts? phrase.chars =
    some (phrase.target.keyspace.map Subtype.val, phrase.target.table.1,
      phrase.limit.map fun limit => limit.count.1) := by
  have hstar (rest : List Char) : afterWord? ['*'] ('*' :: rest) = some rest := rfl
  have hend : isEnd phrase.ending.chars = true := isEnd_iff.mpr ⟨phrase.ending, rfl⟩
  rw [parts?, phrase.chars_eq, Text.trimLeft,
    Text.dropWhile_of_stops phrase.lead.2 (phrase.select.stops rfl)]
  simp only [afterWord?_keyword, Option.bind_eq_bind, Option.bind_some,
    afterBlanks?_gap phrase.beforeStar stops_star, hstar,
    afterBlanks?_gap phrase.afterStar (phrase.source.stops rfl),
    afterBlanks?_gap phrase.beforeTarget phrase.target.stops, target?_chars _ phrase.ends,
    limit?_tail]
  cases hlimit : phrase.limit with
  | none =>
      rw [Phrase.tail, hlimit, Option.elim_none, List.nil_append]
      exact if_pos hend
  | some limit => exact if_pos hend

theorem exists_of_parts? {table : List Char} {keyspace digits : Option (List Char)}
    (hparts : parts? cs = some (keyspace, table, digits))
    (hcount : ∀ count ∈ digits,
      Numeral.IsDigits count ∧ Nat.ofDigitChars 10 count 0 < UInt64.size) :
    ∃ phrase : Phrase, phrase.chars = cs ∧ phrase.target.keyspace.map Subtype.val = keyspace ∧
      phrase.target.table.1 = table ∧ (phrase.limit.map fun limit => limit.count.1) = digits := by
  obtain ⟨first, hselect, hparts⟩ := Option.bind_eq_some_iff.mp hparts
  obtain ⟨second, hgap, hparts⟩ := Option.bind_eq_some_iff.mp hparts
  obtain ⟨third, hstar, hparts⟩ := Option.bind_eq_some_iff.mp hparts
  obtain ⟨fourth, hnext, hparts⟩ := Option.bind_eq_some_iff.mp hparts
  obtain ⟨fifth, hfrom, hparts⟩ := Option.bind_eq_some_iff.mp hparts
  obtain ⟨sixth, hlast, hparts⟩ := Option.bind_eq_some_iff.mp hparts
  obtain ⟨⟨space, name, rest⟩, htarget, hparts⟩ := Option.bind_eq_some_iff.mp hparts
  obtain ⟨lead, hlead, hcs, _⟩ := Text.dropWhile_eq_iff.mp (rfl : Text.trimLeft cs = _)
  obtain ⟨select, hselect, hfirst⟩ := afterWord?_eq_some_iff.mp hselect
  obtain ⟨beforeStar, hbeforeStar, hsecond, _⟩ := afterBlanks?_eq_some_iff.mp hgap
  obtain ⟨star, hstar, hthird⟩ := afterWord?_eq_some_iff.mp hstar
  obtain ⟨afterStar, hafterStar, hfourth, _⟩ := afterBlanks?_eq_some_iff.mp hnext
  obtain ⟨source, hsource, hfifth⟩ := afterWord?_eq_some_iff.mp hfrom
  obtain ⟨beforeTarget, hbeforeTarget, hsixth, _⟩ := afterBlanks?_eq_some_iff.mp hlast
  obtain ⟨target, hseventh, hkeyspace, htable⟩ := exists_of_target? htarget
  obtain rfl := spelled_star_iff.mp hstar
  -- What comes up to the target is the same with and without a limit.
  have hphrase (limit : Option Limit) (ending : Ending)
      (htail : limit.elim [] Limit.chars ++ ending.chars = rest) :
      ∃ phrase : Phrase, phrase.chars = cs ∧ phrase.target.keyspace.map Subtype.val = space ∧
        phrase.target.table.1 = name ∧ phrase.limit = limit := by
    refine ⟨⟨⟨lead, hlead⟩, ⟨select, hselect⟩, ⟨beforeStar, hbeforeStar⟩, ⟨afterStar, hafterStar⟩,
      ⟨source, hsource⟩, ⟨beforeTarget, hbeforeTarget⟩, target, limit, ending⟩, ?_, hkeyspace,
      htable, rfl⟩
    rw [Phrase.chars_eq, Phrase.tail, htail, hseventh, hsixth, hfifth, hfourth, ← hcs, ← hfirst,
      ← hsecond, ← hthird]
    rfl
  dsimp only at hparts
  split at hparts
  next found after hlimit =>
    split at hparts
    next hend =>
      cases hparts
      obtain ⟨ending, hending⟩ := isEnd_iff.mp hend
      obtain ⟨limit, hchars, hfound⟩ := exists_of_limit? hlimit (hcount found rfl)
      rw [← hending] at hchars
      obtain ⟨phrase, hcs, hspace, hname, hsome⟩ := hphrase (some limit) ending hchars
      exact ⟨phrase, hcs, hspace, hname, by rw [hsome, Option.map_some, hfound]⟩
    next => cases hparts
  next =>
    split at hparts
    next hend =>
      cases hparts
      obtain ⟨ending, hending⟩ := isEnd_iff.mp hend
      obtain ⟨phrase, hcs, hspace, hname, hnone⟩ := hphrase none ending hending
      exact ⟨phrase, hcs, hspace, hname, by rw [hnone, Option.map_none]⟩
    next => cases hparts

/-! ## The parts of a text are unique -/

theorem Blanks.append_inj {blanks others : Blanks} {after : List Char} (hrest : Stops isBlank rest)
    (hafter : Stops isBlank after) (hsame : blanks.1 ++ rest = others.1 ++ after) :
    blanks = others ∧ rest = after :=
  (append_inj_of_stops blanks.2 hrest others.2 hafter hsame).imp_left Subtype.ext

theorem Gap.append_inj {gap other : Gap} {after : List Char} (hrest : Stops isBlank rest)
    (hafter : Stops isBlank after) (hsame : gap.1 ++ rest = other.1 ++ after) :
    gap = other ∧ rest = after :=
  (append_inj_of_stops gap.2.2 hrest other.2.2 hafter hsame).imp_left Subtype.ext

theorem Keyword.append_inj {word after : List Char} {keyword other : Keyword word}
    (hsame : keyword.1 ++ rest = other.1 ++ after) : keyword = other ∧ rest = after := by
  have hlength : keyword.1.length = other.1.length :=
    keyword.2.length_eq.symm.trans other.2.length_eq
  exact (List.append_inj hsame hlength).imp_left Subtype.ext

theorem Target.append_inj {target other : Target} {after : List Char} (hrest : Ends rest)
    (hafter : Ends after) (hsame : target.chars ++ rest = other.chars ++ after) :
    target = other ∧ rest = after := by
  have hread := target?_chars target hrest
  rw [hsame, target?_chars other hafter] at hread
  obtain ⟨keyspace, table⟩ := target
  obtain ⟨space, name⟩ := other
  simp only [Option.some.injEq, Prod.mk.injEq] at hread
  obtain ⟨hkeyspace, htable, hrests⟩ := hread
  obtain rfl := Option.map_injective Subtype.val_injective hkeyspace
  obtain rfl := Subtype.ext htable
  exact ⟨rfl, hrests.symm⟩

theorem Limit.append_inj {limit other : Limit} {after : List Char} (hrest : Ends rest)
    (hafter : Ends after) (hsame : limit.chars ++ rest = other.chars ++ after) :
    limit = other ∧ rest = after := by
  obtain ⟨before, keyword, gap, count⟩ := limit
  obtain ⟨before', keyword', gap', count'⟩ := other
  simp only [Limit.chars, List.append_assoc] at hsame
  obtain ⟨rfl, hkeywords⟩ := Gap.append_inj (keyword.stops rfl) (keyword'.stops rfl) hsame
  obtain ⟨rfl, hgaps⟩ := Keyword.append_inj hkeywords
  obtain ⟨rfl, hcounts⟩ := Gap.append_inj count.stops count'.stops hgaps
  obtain ⟨hcount, rfl⟩ := append_inj_of_stops (isDecimalDigit_of_count count) hrest.stops_digits
    (isDecimalDigit_of_count count') hafter.stops_digits hcounts
  obtain rfl := Subtype.ext hcount
  exact ⟨rfl, rfl⟩

theorem Ending.chars_inj {ending other : Ending} (hsame : ending.chars = other.chars) :
    ending = other := by
  obtain ⟨hblanks, hclosing⟩ := Blanks.append_inj ending.stops_closing other.stops_closing hsame
  obtain ⟨blanks, closing⟩ := ending
  obtain ⟨others, after⟩ := other
  obtain rfl : blanks = others := hblanks
  cases closing with
  | none =>
      cases after with
      | none => rfl
      | some _ => cases hclosing
  | some closing =>
      cases after with
      | none => cases hclosing
      | some after =>
          obtain rfl : closing = after := Subtype.ext (List.cons.inj hclosing).2
          rfl

theorem Phrase.tail_inj {phrase other : Phrase} (hsame : phrase.tail = other.tail) :
    phrase.limit = other.limit ∧ phrase.ending = other.ending := by
  have hread := limit?_tail phrase
  rw [hsame, limit?_tail] at hread
  unfold Phrase.tail at hsame
  cases hlimit : phrase.limit with
  | none =>
      rw [hlimit, Option.map_none, Option.map_eq_none_iff] at hread
      rw [hlimit, hread] at hsame
      exact ⟨hread.symm, Ending.chars_inj hsame⟩
  | some limit =>
      rw [hlimit, Option.map_some, Option.map_eq_some_iff] at hread
      obtain ⟨found, hfound, _⟩ := hread
      rw [hlimit, hfound] at hsame
      obtain ⟨rfl, hending⟩ := Limit.append_inj phrase.ending.ends other.ending.ends hsame
      exact ⟨hfound.symm, Ending.chars_inj hending⟩

theorem Phrase.chars_inj {phrase other : Phrase} (hsame : phrase.chars = other.chars) :
    phrase = other := by
  rw [phrase.chars_eq, other.chars_eq] at hsame
  obtain ⟨hlead, hselects⟩ :=
    Blanks.append_inj (phrase.select.stops rfl) (other.select.stops rfl) hsame
  obtain ⟨hselect, hgaps⟩ := Keyword.append_inj hselects
  obtain ⟨hbeforeStar, hstars⟩ := Gap.append_inj stops_star stops_star hgaps
  obtain ⟨hafterStar, hsources⟩ :=
    Gap.append_inj (phrase.source.stops rfl) (other.source.stops rfl) (List.cons.inj hstars).2
  obtain ⟨hsource, hgaps⟩ := Keyword.append_inj hsources
  obtain ⟨hbeforeTarget, htargets⟩ := Gap.append_inj phrase.target.stops other.target.stops hgaps
  obtain ⟨htarget, htails⟩ := Target.append_inj phrase.ends other.ends htargets
  obtain ⟨hlimit, hending⟩ := Phrase.tail_inj htails
  exact Phrase.ext hlead hselect hbeforeStar hafterStar hsource hbeforeTarget htarget hlimit hending

end Phrases

/-- What a statement asks for, from its parts as they are read. -/
theorem Phrase.asked_eq {phrase : Phrase} {keyspace digits : Option (List Char)} {table : List Char}
    (hkeyspace : phrase.target.keyspace.map Subtype.val = keyspace)
    (htable : phrase.target.table.1 = table)
    (hdigits : (phrase.limit.map fun limit => limit.count.1) = digits) :
    phrase.asked = ⟨keyspace.map String.ofList, String.ofList table,
      digits.map fun count => Nat.ofDigitChars 10 count 0⟩ := by
  subst hkeyspace htable hdigits
  simp only [Phrase.asked, Option.map_map, Function.comp_def]

theorem parse_eq_ok_iff {statement version : String} {select : Select} :
    parse statement version = .ok select ↔
      (version.toList.head? = some '2' ∨ version.toList.head? = some '3') ∧
        ∃ phrase : Phrase, phrase.chars = statement.toList ∧ phrase.asked = select := by
  rw [parse]
  split
  next hversion =>
    rw [and_iff_right hversion]
    constructor
    · split
      next => rintro ⟨⟩
      next keyspace table hparts =>
        rintro ⟨⟩
        obtain ⟨phrase, hchars, hkeyspace, htable, hlimit⟩ :=
          exists_of_parts? hparts (by rintro _ ⟨⟩)
        exact ⟨phrase, hchars, Phrase.asked_eq hkeyspace htable hlimit⟩
      next keyspace table digits hparts =>
        split
        next n hn =>
          obtain ⟨hdigits, rfl⟩ := Numeral.nat?_eq_some_iff.mp hn
          split
          next hsize =>
            rintro ⟨⟩
            obtain ⟨phrase, hchars, hkeyspace, htable, hlimit⟩ :=
              exists_of_parts? hparts (by rintro _ ⟨⟩; exact ⟨hdigits, hsize⟩)
            exact ⟨phrase, hchars, Phrase.asked_eq hkeyspace htable hlimit⟩
          next => rintro ⟨⟩
        next => rintro ⟨⟩
    · rintro ⟨phrase, hchars, rfl⟩
      rw [← hchars, parts?_chars, Phrase.asked_eq rfl rfl rfl]
      cases phrase.limit with
      | none => rfl
      | some limit =>
          obtain ⟨hdigits, hsize⟩ := limit.count.2
          dsimp only [Option.map_some]
          rw [Numeral.nat?_eq_some_iff.mpr ⟨hdigits, rfl⟩]
          exact if_pos hsize
  next hversion =>
    refine iff_of_false (by rintro ⟨⟩) ?_
    rintro ⟨hknown, _⟩
    exact hversion hknown

/-- Under a version that starts with 2 or 3, and under no other, the statements that are read are
those that consist of the parts of a phrase. They do so in one way only, and what they ask for is
what these parts say: the names as they are spelled, and the number of the digits. -/
theorem parse_iff_phrase (statement version : String) :
    (∀ select, parse statement version = .ok select ↔
        (version.toList.head? = some '2' ∨ version.toList.head? = some '3') ∧
          ∃ phrase : Phrase, phrase.chars = statement.toList ∧ phrase.asked = select) ∧
      ∀ phrase other : Phrase, phrase.chars = statement.toList →
        other.chars = statement.toList → phrase = other :=
  ⟨fun _ => parse_eq_ok_iff, fun _ _ hphrase hother => Phrase.chars_inj (hphrase.trans hother.symm)⟩

example : parse "select * from limit limit 3" "3.0" = .ok ⟨none, "limit", some 3⟩ := rfl

example : parse " SELECT * from From.ſelect\nLIMIT 07 ; " "2" =
    .ok ⟨some "From", "ſelect", some 7⟩ := rfl

end OperationChain.Select
