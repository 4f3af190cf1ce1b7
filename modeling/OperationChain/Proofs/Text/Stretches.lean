import OperationChain.Text.Blank
import OperationChain.Text.Digit

/-! # Stretches of characters

Characters of one kind are read as far as they go. So a text falls into stretches in one way
only, if each of them ends where a character of another kind follows. Blanks are of no other
kind that is read here.
-/

namespace OperationChain.Text

/-- No character of this kind follows. -/
def Stops (p : Char → Bool) (rest : List Char) : Prop := ∀ c ∈ rest.head?, p c = false

section Stretches

variable {p : Char → Bool} {cs rest : List Char}

theorem Stops.nil : Stops p [] := by
  rintro c ⟨⟩

theorem Stops.cons {c : Char} (hc : p c = false) : Stops p (c :: rest) := by
  rintro _ ⟨⟩
  exact hc

/-- What stops a stretch stands at the start of what follows. -/
theorem Stops.append (hcs : Stops p cs) (hrest : cs = [] → Stops p rest) :
    Stops p (cs ++ rest) := by
  cases cs with
  | nil => exact hrest rfl
  | cons c cs => exact hcs

theorem takeWhile_of_stops (hcs : ∀ c ∈ cs, p c = true) (hrest : Stops p rest) :
    (cs ++ rest).takeWhile p = cs := by
  rw [List.takeWhile_append_of_pos hcs]
  cases rest with
  | nil => rw [List.takeWhile_nil, List.append_nil]
  | cons c rest =>
      rw [List.takeWhile_cons_of_neg (by simp [hrest c rfl]), List.append_nil]

theorem dropWhile_of_stops (hcs : ∀ c ∈ cs, p c = true) (hrest : Stops p rest) :
    (cs ++ rest).dropWhile p = rest := by
  rw [List.dropWhile_append_of_pos hcs]
  cases rest with
  | nil => rfl
  | cons c rest => rw [List.dropWhile_cons_of_neg (by simp [hrest c rfl])]

theorem stops_dropWhile (p : Char → Bool) (cs : List Char) : Stops p (cs.dropWhile p) := by
  have hhead := List.head?_dropWhile_not p cs
  intro c hc
  rw [hc] at hhead
  exact hhead

theorem forall_mem_takeWhile (p : Char → Bool) (cs : List Char) :
    ∀ c ∈ cs.takeWhile p, p c = true := List.all_eq_true.mp List.all_takeWhile

theorem dropWhile_eq_iff : cs.dropWhile p = rest ↔
    ∃ front, (∀ c ∈ front, p c = true) ∧ front ++ rest = cs ∧ Stops p rest := by
  constructor
  · rintro rfl
    exact ⟨cs.takeWhile p, forall_mem_takeWhile p cs, List.takeWhile_append_dropWhile,
      stops_dropWhile p cs⟩
  · rintro ⟨front, hfront, rfl, hrest⟩
    exact dropWhile_of_stops hfront hrest

/-- Where a stretch ends is seen from the text. -/
theorem append_inj_of_stops {others after : List Char} (hcs : ∀ c ∈ cs, p c = true)
    (hrest : Stops p rest) (hothers : ∀ c ∈ others, p c = true) (hafter : Stops p after)
    (hsame : cs ++ rest = others ++ after) : cs = others ∧ rest = after := by
  constructor
  · rw [← takeWhile_of_stops hcs hrest, hsame, takeWhile_of_stops hothers hafter]
  · rw [← dropWhile_of_stops hcs hrest, hsame, dropWhile_of_stops hothers hafter]

end Stretches

/-! ## Blanks -/

/-- The code points of the blanks. -/
def blankCodes : List Nat :=
  [9, 10, 11, 12, 13, 0x20, 0x85, 0xA0, 0x1680, 0x2000, 0x2001, 0x2002, 0x2003, 0x2004, 0x2005,
    0x2006, 0x2007, 0x2008, 0x2009, 0x200A, 0x2028, 0x2029, 0x202F, 0x205F, 0x3000]

section Blanks

variable {c : Char}

theorem mem_blankCodes (hblank : isBlank c = true) : c.toNat ∈ blankCodes := by
  simp only [isBlank, Bool.or_eq_true, Bool.and_eq_true, decide_eq_true_eq, beq_iff_eq] at hblank
  simp only [blankCodes, List.mem_cons, List.not_mem_nil, or_false]
  omega

theorem isDecimalDigit_of_isBlank (hblank : isBlank c = true) : isDecimalDigit c = false := by
  have hcodes : ∀ code ∈ blankCodes,
      (digitRanges.any fun range => range.1 ≤ code && code ≤ range.2) = false := by decide
  exact hcodes c.toNat (mem_blankCodes hblank)

theorem isDecimalDigit_of_digit (hdigit : '0' ≤ c ∧ c ≤ '9') : isDecimalDigit c = true := by
  have hascii : (0x30 ≤ c.toNat && c.toNat ≤ 0x39) = true := by
    rw [Bool.and_eq_true, decide_eq_true_eq, decide_eq_true_eq]
    exact hdigit
  rw [isDecimalDigit, digitRanges, List.any_cons, hascii, Bool.true_or]

theorem isBlank_of_digit (hdigit : '0' ≤ c ∧ c ≤ '9') : isBlank c = false := by
  rw [Bool.eq_false_iff]
  intro hblank
  have hcodes : ∀ code ∈ blankCodes, ¬ (0x30 ≤ code ∧ code ≤ 0x39) := by decide
  exact hcodes c.toNat (mem_blankCodes hblank) hdigit

end Blanks

section Trimming

variable {cs lead middle trail : List Char}

/-- What is left of a text without the blanks around it stands in it between blanks. -/
theorem exists_trimChars (cs : List Char) : ∃ lead trail, (∀ c ∈ lead, isBlank c = true) ∧
    (∀ c ∈ trail, isBlank c = true) ∧ lead ++ trimChars cs ++ trail = cs := by
  obtain ⟨lead, hlead, hcs, _⟩ := dropWhile_eq_iff.mp (rfl : trimLeft cs = _)
  obtain ⟨trail, htrail, hrest, _⟩ := dropWhile_eq_iff.mp (rfl : trimLeft (trimLeft cs).reverse = _)
  refine ⟨lead, trail.reverse, hlead, fun c hc => htrail c (List.mem_reverse.mp hc), ?_⟩
  rw [trimChars, List.append_assoc, ← List.reverse_append, hrest, List.reverse_reverse, hcs]

theorem trimChars_of_blanks (hlead : ∀ c ∈ lead, isBlank c = true)
    (htrail : ∀ c ∈ trail, isBlank c = true) (hmiddle : ∀ c ∈ middle, isBlank c = false)
    (hsome : middle ≠ []) : trimChars (lead ++ middle ++ trail) = middle := by
  have hfront : Stops isBlank (middle ++ trail) :=
    Stops.append (fun c hc => hmiddle c (List.mem_of_mem_head? hc)) (absurd · hsome)
  have hback : Stops isBlank middle.reverse :=
    fun c hc => hmiddle c (List.mem_reverse.mp (List.mem_of_mem_head? hc))
  rw [trimChars, trimLeft, trimLeft, List.append_assoc, dropWhile_of_stops hlead hfront,
    List.reverse_append, dropWhile_of_stops (fun c hc => htrail c (List.mem_reverse.mp hc)) hback,
    List.reverse_reverse]

end Trimming

end OperationChain.Text
