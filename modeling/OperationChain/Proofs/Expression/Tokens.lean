import OperationChain.Proofs.Expression.Spelling
import OperationChain.Proofs.Number.Decimal
import OperationChain.Proofs.Operation.Parameters
import OperationChain.Proofs.Text.Stretches
import Mathlib.Data.List.Chain

/-! # Spelled tokens are read as these tokens

A token ends where the next one starts if nothing that could belong to it follows. After a
word the spelling takes care of that. A numeral could only go on with a digit or a point, and
some signs only with an equals sign, and in a predicate no token that starts so follows them
directly.
-/

namespace OperationChain.Expression

open Decimal (signed)
open OperationChain.Text (takeWhile_of_stops)

namespace Token

/-! ## Characters -/

section Characters

variable {c other : Char}

theorem isWordChar_of_isDigit (hdigit : isDigit c = true) : isWordChar c = true := by
  rw [isWordChar, hdigit, Bool.or_true, Bool.true_or]

theorem ne_of_isWordChar (hword : isWordChar c = true) (hother : isWordChar other = false) :
    c ≠ other := by
  rintro rfl
  rw [hword] at hother
  cases hother

theorem ne_of_not_isDigit (hdigit : isDigit c = true) (hother : isDigit other = false) :
    c ≠ other := by
  rintro rfl
  rw [hdigit] at hother
  cases hother

theorem isBlank_cases (hblank : isBlank c = true) : c = ' ' ∨ c = '\t' ∨ c = '\r' ∨ c = '\n' := by
  simpa [isBlank, or_assoc] using hblank

theorem isBlank_of_isWordChar (hword : isWordChar c = true) : isBlank c = false := by
  rw [Bool.eq_false_iff]
  intro hblank
  rcases isBlank_cases hblank with rfl | rfl | rfl | rfl <;> cases hword

/-- Only capital letters change in lower case. -/
theorem toLower_cases (c : Char) : ('A' ≤ c ∧ c ≤ 'Z') ∨ c.toLower = c := by
  by_cases hupper : c.val ≥ 'A'.val ∧ c.val ≤ 'Z'.val
  · exact .inl hupper
  · exact .inr (dif_neg hupper)

theorem isWordChar_of_toLower (hlower : isWordChar c.toLower = true) : isWordChar c = true := by
  rcases toLower_cases c with hupper | hsame
  · simp [isWordChar, hupper.1, hupper.2]
  · rwa [hsame] at hlower

theorem isDigit_of_toLower (hlower : isDigit c.toLower = false) : isDigit c = false := by
  rcases toLower_cases c with hupper | hsame
  · have hbeyond : ¬ c ≤ '9' := fun hdigit => absurd (Char.le_trans hupper.1 hdigit) (by decide)
    rw [isDigit, decide_eq_false hbeyond, Bool.and_false]
  · rwa [hsame] at hlower

end Characters

/-! ## Words and numerals -/

/-- Characters of words in lower case, the first of which is not a digit. -/
def isName (word : String) : Bool :=
  word.toList.all (fun c => isWordChar c && c.toLower == c) &&
    word.toList.head?.any fun c => !isDigit c

theorem map_toLower_of_isName {lower : String} (hname : isName lower = true) :
    lower.toList.map Char.toLower = lower.toList := by
  rw [isName, Bool.and_eq_true, List.all_eq_true] at hname
  refine (List.map_congr_left fun c hc => ?_).trans (List.map_id _)
  exact beq_iff_eq.mp (Bool.and_eq_true_iff.mp (hname.1 c hc)).2

theorem exists_of_isName {lower : String} (hname : isName lower = true) {cs : List Char}
    (hcase : cs.map Char.toLower = lower.toList) :
    ∃ c rest, cs = c :: rest ∧ isDigit c = false ∧ ∀ d ∈ c :: rest, isWordChar d = true := by
  rw [isName, ← hcase, Bool.and_eq_true, List.all_eq_true] at hname
  obtain ⟨hlower, hfirst⟩ := hname
  cases cs with
  | nil => cases hfirst
  | cons c rest =>
      refine ⟨c, rest, rfl, isDigit_of_toLower ?_, fun d hd => isWordChar_of_toLower ?_⟩
      · simpa using hfirst
      · exact (Bool.and_eq_true_iff.mp (hlower _ (List.mem_map_of_mem hd))).1

end Token

namespace IsNumeral

variable {n : Int64} {text : String}

theorem exists_digits (hnumeral : IsNumeral n text) :
    ∃ (negative : Bool) (digits : List Char), text.toList = signed negative digits ∧
      digits ≠ [] ∧ (∀ c ∈ digits, Token.isDigit c = true) ∧
      Numeral.natAfter? 0 digits = some n.toInt.natAbs ∧
      (if negative then -(n.toInt.natAbs : Int) else n.toInt.natAbs) = n.toInt := by
  have hdigits (zeros : Nat) :
      ∀ c ∈ List.replicate zeros '0' ++ Numeral.ofNat n.toInt.natAbs, Token.isDigit c = true :=
    (Decimal.plain_zeros zeros).append (Decimal.plain_ofNat _)
  have hvalue (zeros : Nat) : Numeral.natAfter? 0
      (List.replicate zeros '0' ++ Numeral.ofNat n.toInt.natAbs) = some n.toInt.natAbs := by
    rw [Numeral.natAfter?_append, Numeral.natAfter?_zeros, Option.bind_some, Nat.zero_mul,
      Numeral.natAfter?_ofNat]
  have hsome (zeros : Nat) : List.replicate zeros '0' ++ Numeral.ofNat n.toInt.natAbs ≠ [] :=
    List.append_ne_nil_of_right_ne_nil _ (Numeral.ofNat_ne_nil _)
  cases hnumeral with
  | natural zeros hn =>
      refine ⟨false, _, String.toList_ofList, hsome zeros, hdigits zeros, hvalue zeros, ?_⟩
      exact Int.natAbs_of_nonneg hn
  | negative zeros hn =>
      refine ⟨true, _, String.toList_ofList, hsome zeros, hdigits zeros, hvalue zeros, ?_⟩
      rw [if_pos rfl, Int.ofNat_natAbs_of_nonpos hn, Int.neg_neg]

/-- A numeral has the value that it was written for. -/
theorem numeralValue?_eq (hnumeral : IsNumeral n text) :
    Token.numeralValue? text = some (.int n) := by
  obtain ⟨negative, digits, hchars, hsome, hdigits, hvalue, hsign⟩ := hnumeral.exists_digits
  have hpoint : text.toList.contains '.' = false := by
    rw [hchars, Bool.eq_false_iff, Ne, List.contains_iff_mem]
    intro hmem
    rcases Decimal.mem_signed hmem with hsame | hmem
    · cases hsame
    · cases hdigits _ hmem
  have hint : Numeral.int? text.toList = some n.toInt := by
    rw [hchars, ← hsign]
    cases digits with
    | nil => exact absurd rfl hsome
    | cons d digits =>
        have hnat : Numeral.nat? (d :: digits) = some n.toInt.natAbs := hvalue
        cases negative with
        | true => rw [signed, if_pos rfl, Numeral.int?, hnat]; rfl
        | false =>
            rw [signed, if_neg Bool.false_ne_true, Numeral.int?, hnat]
            · rfl
            · rintro rest ⟨⟩
              cases hdigits '-' List.mem_cons_self
            · rintro rest ⟨⟩
              cases hdigits '+' List.mem_cons_self
  rw [Token.numeralValue?]
  dsimp only
  rw [hpoint, if_neg Bool.false_ne_true, Numeral.int64?, hint, Option.bind_some,
    Numeral.toInt64?_toInt]
  rfl

end IsNumeral

namespace Token

/-! ## Single tokens -/

/-- The token is one that predicates are made of. -/
def Proper : Token → Prop
  | .word lower => isName lower = true
  | .numeral text => ∃ n, IsNumeral n text
  | .quoted text => '"' ∉ text.toList ∨ '\'' ∉ text.toList
  | .sign _ => True

/-- The signs that an equals sign after them would make another sign. -/
def openEnded : List Token := [.sign .assign, .sign .not, .sign .less, .sign .greater]

/-- What follows does not belong to the token. -/
def Stops : Token → List Char → Prop
  | .word _, rest => ∀ c ∈ rest.head?, isWordChar c = false
  | .numeral _, rest => ∀ c ∈ rest.head?, isDigit c = false ∧ c ≠ '.'
  | .quoted _, _ => True
  | .sign mark, rest => .sign mark ∈ openEnded → ∀ c ∈ rest.head?, c ≠ '='

theorem unsigned_of_stops {digits rest : List Char} (hdigits : ∀ c ∈ digits, isDigit c = true)
    (hrest : ∀ c ∈ rest.head?, isDigit c = false ∧ c ≠ '.') :
    unsigned (digits ++ rest) = digits := by
  rw [unsigned, takeWhile_of_stops hdigits fun c hc => (hrest c hc).1, List.drop_left]
  cases rest with
  | nil => exact List.append_nil digits
  | cons c rest =>
      have hfraction : fraction (c :: rest) = [] := by
        rw [fraction]
        rintro rest ⟨⟩
        exact (hrest '.' rfl).2 rfl
      rw [hfraction, List.append_nil]

/-- A token is read off its characters. -/
def ReadsOff (chars rest : List Char) (token : Token) : Prop :=
  ∃ c cs, chars = c :: cs ∧ isBlank c = false ∧ first? c (cs ++ rest) = some (token, cs.length)

variable {rest : List Char}

theorem readsOff_word {lower : String} (hname : isName lower = true) {chars : List Char}
    (hcase : chars.map Char.toLower = lower.toList)
    (hrest : ∀ c ∈ rest.head?, isWordChar c = false) : ReadsOff chars rest (.word lower) := by
  obtain ⟨c, cs, rfl, hdigit, hword⟩ := exists_of_isName hname hcase
  have hfirst := hword c List.mem_cons_self
  refine ⟨c, cs, rfl, isBlank_of_isWordChar hfirst, ?_⟩
  have hquote : (c == '"' || c == '\'') = false := by
    rw [beq_false_of_ne (ne_of_isWordChar hfirst (by decide)),
      beq_false_of_ne (ne_of_isWordChar hfirst (by decide)), Bool.or_false]
  have hminus : (c == '-') = false := beq_false_of_ne (ne_of_isWordChar hfirst (by decide))
  have htail : (cs ++ rest).takeWhile isWordChar = cs :=
    takeWhile_of_stops (fun d hd => hword d (List.mem_cons_of_mem c hd)) hrest
  rw [first?, hquote, hdigit, hminus, hfirst, htail]
  simp [hcase]

theorem readsOff_numeral {n : Int64} {text : String} (hnumeral : IsNumeral n text)
    (hrest : ∀ c ∈ rest.head?, isDigit c = false ∧ c ≠ '.') :
    ReadsOff text.toList rest (.numeral text) := by
  obtain ⟨negative, digits, hchars, hsome, hdigits, _⟩ := hnumeral.exists_digits
  have hunsigned := unsigned_of_stops hdigits hrest
  have htext : String.ofList (signed negative digits) = text := by
    rw [← hchars, String.ofList_toList]
  rw [hchars]
  cases digits with
  | nil => exact absurd rfl hsome
  | cons d digits =>
      have hdigit := hdigits d List.mem_cons_self
      rw [List.cons_append] at hunsigned
      cases negative with
      | true =>
          refine ⟨'-', d :: digits, rfl, rfl, ?_⟩
          rw [List.cons_append, first?, hunsigned]
          simp only [hdigit, if_true]
          rw [← htext]
          rfl
      | false =>
          refine ⟨d, digits, rfl, isBlank_of_isWordChar (isWordChar_of_isDigit hdigit), ?_⟩
          have hquote : (d == '"' || d == '\'') = false := by
            rw [beq_false_of_ne (ne_of_not_isDigit hdigit (by decide)),
              beq_false_of_ne (ne_of_not_isDigit hdigit (by decide)), Bool.or_false]
          rw [first?, hquote, hdigit, hunsigned]
          rw [← htext]
          rfl

theorem readsOff_quoted {text : String} {quote : Char} (hquote : quote = '"' ∨ quote = '\'')
    (habsent : quote ∉ text.toList) (rest : List Char) :
    ReadsOff (quote :: (text.toList ++ [quote])) rest (.quoted text) := by
  have hblank : isBlank quote = false := by rcases hquote with rfl | rfl <;> rfl
  have hmark : (quote == '"' || quote == '\'') = true := by rcases hquote with rfl | rfl <;> rfl
  have hinner : (text.toList ++ quote :: rest).takeWhile (· != quote) = text.toList := by
    refine takeWhile_of_stops (fun c hc => ?_) ?_
    · exact bne_iff_ne.mpr (ne_of_mem_of_not_mem hc habsent)
    · rintro c ⟨⟩
      exact bne_self_eq_false quote
  refine ⟨quote, _, rfl, hblank, ?_⟩
  rw [first?, hmark, List.append_assoc, List.singleton_append, hinner]
  simp [String.ofList_toList]

/-- A sign that could go on is read alone if no equals sign follows. -/
theorem sign?_of_ne {c : Char} {mark : Sign} (hmark : sign? c none = some (mark, 1))
    (hrest : ∀ d ∈ rest.head?, d ≠ '=') (hsingle : c ≠ '&' ∧ c ≠ '|') :
    sign? c rest.head? = some (mark, 1) := by
  cases rest with
  | nil => exact hmark
  | cons d rest =>
      have hne := hrest d rfl
      unfold sign? at hmark ⊢
      split at hmark <;> simp_all

theorem readsOff_sign (mark : Sign)
    (hrest : .sign mark ∈ openEnded → ∀ c ∈ rest.head?, c ≠ '=') :
    ReadsOff mark.chars rest (.sign mark) := by
  cases mark
  case assign =>
    refine ⟨'=', [], rfl, rfl, ?_⟩
    exact congrArg (Option.map _) (sign?_of_ne rfl (hrest (by decide)) (by decide))
  case not =>
    refine ⟨'!', [], rfl, rfl, ?_⟩
    exact congrArg (Option.map _) (sign?_of_ne rfl (hrest (by decide)) (by decide))
  case less =>
    refine ⟨'<', [], rfl, rfl, ?_⟩
    exact congrArg (Option.map _) (sign?_of_ne rfl (hrest (by decide)) (by decide))
  case greater =>
    refine ⟨'>', [], rfl, rfl, ?_⟩
    exact congrArg (Option.map _) (sign?_of_ne rfl (hrest (by decide)) (by decide))
  all_goals exact ⟨_, _, rfl, rfl, rfl⟩

/-! ## Tokens side by side -/

def isNumeral : Token → Bool
  | .numeral _ => true
  | _ => false

/-- The signs that start with an equals sign. -/
def equalsSigns : List Token := [.sign .equal, .sign .assign]

/-- The second token is not taken for a part of the first one, unless that is a word. -/
def Apart (first next : Token) : Prop :=
  ¬ (first.isNumeral ∧ next.isNumeral) ∧ ¬ (first ∈ openEnded ∧ next ∈ equalsSigns)

/-- What the first character of a token says about it. -/
structure Heralds (c : Char) (token : Token) : Prop where
  ne_point : c ≠ '.'
  digit : isDigit c = true → token.isNumeral
  equals : c = '=' → token ∈ equalsSigns

theorem Spelled.exists_heralds {token : Token} {chars : List Char} (hspelled : token.Spelled chars)
    (hproper : token.Proper) : ∃ c cs, chars = c :: cs ∧ Heralds c token := by
  cases hspelled with
  | word hcase =>
      obtain ⟨c, cs, rfl, hdigit, hword⟩ := exists_of_isName hproper hcase
      have hfirst := hword c List.mem_cons_self
      refine ⟨c, cs, rfl, ne_of_isWordChar hfirst (by decide), fun h => ?_, fun h => ?_⟩
      · rw [hdigit] at h
        cases h
      · exact absurd h (ne_of_isWordChar hfirst (by decide))
  | numeral text =>
      obtain ⟨n, hnumeral⟩ := hproper
      obtain ⟨negative, digits, hchars, hsome, hdigits, _⟩ := hnumeral.exists_digits
      rw [hchars]
      cases digits with
      | nil => exact absurd rfl hsome
      | cons d digits =>
          have hdigit := hdigits d List.mem_cons_self
          cases negative with
          | true => exact ⟨'-', _, rfl, by decide, fun _ => rfl, nofun⟩
          | false =>
              refine ⟨d, _, rfl, ne_of_not_isDigit hdigit (by decide), fun _ => rfl, fun h => ?_⟩
              exact absurd h (ne_of_not_isDigit hdigit (by decide))
  | quoted hquote habsent =>
      rcases hquote with rfl | rfl
      · exact ⟨'"', _, rfl, by decide, nofun, nofun⟩
      · exact ⟨'\'', _, rfl, by decide, nofun, nofun⟩
  | sign mark => cases mark <;> exact ⟨_, _, rfl, by decide, by decide, by decide⟩

theorem AllSpelled.blank_or_heralds {tokens : List Token} {chars : List Char}
    (hspelled : AllSpelled tokens chars) (hproper : ∀ token ∈ tokens, token.Proper) {c : Char}
    (hc : c ∈ chars.head?) : isBlank c = true ∨ ∃ token ∈ tokens.head?, Heralds c token := by
  cases hspelled with
  | nil hblanks => exact .inl (hblanks c (List.mem_of_mem_head? hc))
  | @cons blanks cs rest token tokens hblanks htoken hrest hword =>
      cases blanks with
      | cons blank blanks =>
          cases hc
          exact .inl (hblanks _ List.mem_cons_self)
      | nil =>
          obtain ⟨d, ds, rfl, hheralds⟩ := htoken.exists_heralds (hproper token List.mem_cons_self)
          cases hc
          exact .inr ⟨token, rfl, hheralds⟩

theorem AllSpelled.stops {token : Token} {tokens : List Token} {rest : List Char}
    (hspelled : AllSpelled tokens rest) (hproper : ∀ next ∈ tokens, next.Proper)
    (hapart : ∀ next ∈ tokens.head?, token.Apart next)
    (hword : ∀ lower, token = .word lower → ∀ c ∈ rest.head?, isWordChar c = false) :
    token.Stops rest := by
  cases token with
  | word lower => exact hword lower rfl
  | quoted text => trivial
  | numeral text =>
      intro c hc
      rcases hspelled.blank_or_heralds hproper hc with hblank | ⟨next, hnext, hheralds⟩
      · rcases isBlank_cases hblank with rfl | rfl | rfl | rfl <;> decide
      · refine ⟨Bool.eq_false_iff.mpr fun hdigit => ?_, hheralds.ne_point⟩
        exact (hapart next hnext).1 ⟨rfl, hheralds.digit hdigit⟩
  | sign mark =>
      intro hmark c hc
      rcases hspelled.blank_or_heralds hproper hc with hblank | ⟨next, hnext, hheralds⟩
      · rcases isBlank_cases hblank with rfl | rfl | rfl | rfl <;> decide
      · exact fun hequals => (hapart next hnext).2 ⟨hmark, hheralds.equals hequals⟩

theorem Spelled.readsOff {token : Token} {chars rest : List Char} (hspelled : token.Spelled chars)
    (hproper : token.Proper) (hstops : token.Stops rest) : ReadsOff chars rest token := by
  cases hspelled with
  | word hcase => exact readsOff_word hproper hcase hstops
  | numeral text =>
      obtain ⟨n, hnumeral⟩ := hproper
      exact readsOff_numeral hnumeral hstops
  | quoted hquote habsent => exact readsOff_quoted hquote habsent rest
  | sign mark => exact readsOff_sign mark hstops

theorem ofChars?_of_blanks {blanks : List Char} (hblanks : ∀ c ∈ blanks, isBlank c = true)
    (rest : List Char) : ofChars? (blanks ++ rest) = ofChars? rest := by
  induction blanks with
  | nil => rfl
  | cons c blanks ih =>
      rw [List.cons_append, ofChars?, if_pos (hblanks c List.mem_cons_self)]
      exact ih fun d hd => hblanks d (List.mem_cons_of_mem c hd)

theorem ReadsOff.ofChars? {token : Token} {chars rest : List Char}
    (hreads : ReadsOff chars rest token) {tokens : List Token}
    (hrest : Token.ofChars? rest = some tokens) :
    Token.ofChars? (chars ++ rest) = some (token :: tokens) := by
  obtain ⟨c, cs, rfl, hblank, hfirst⟩ := hreads
  rw [List.cons_append, Token.ofChars?, hblank, if_neg Bool.false_ne_true, hfirst]
  dsimp only [Option.bind_eq_bind, Option.bind_some]
  rw [List.drop_left, hrest]
  rfl

/-- Spelled tokens are read as these tokens, if they keep apart. -/
theorem AllSpelled.ofChars? {tokens : List Token} {chars : List Char}
    (hspelled : AllSpelled tokens chars) (hproper : ∀ token ∈ tokens, token.Proper)
    (hapart : tokens.IsChain Apart) : Token.ofChars? chars = some tokens := by
  induction hspelled with
  | @nil blanks hblanks =>
      have hread := ofChars?_of_blanks hblanks []
      rw [List.append_nil] at hread
      rw [hread, Token.ofChars?]
  | @cons blanks cs rest token tokens hblanks htoken hrest hword ih =>
      obtain ⟨hfirst, hproper⟩ := List.forall_mem_cons.mp hproper
      obtain ⟨hnext, hapart⟩ := List.isChain_cons.mp hapart
      have hstops := hrest.stops hproper hnext hword
      rw [List.append_assoc, ofChars?_of_blanks hblanks]
      exact (htoken.readsOff hfirst hstops).ofChars? (ih hproper hapart)

end Token

end OperationChain.Expression
