import OperationChain.Proofs.Expression.Tokens

/-! # The tokens of spelled predicates

Whatever predicate tokens spell, they can be written down and read again: every one of them
has characters and a value, and none is taken for a part of the one before it. And tokens can
be found for every predicate whose literals can be written.
-/

namespace OperationChain.Expression

/-! ## The tokens of a predicate -/

open Token (Apart Proper equalsSigns openEnded)

/-- Tokens that keep apart from each other, and from others before and after them. -/
structure Block (tokens : List Token) : Prop where
  proper : ∀ token ∈ tokens, token.Proper
  apart : tokens.IsChain Apart
  first : ∀ token ∈ tokens.head?, token ∉ equalsSigns
  last : ∃ token ∈ tokens.getLast?, token ∉ openEnded

namespace Block

variable {mark : Token} {tokens others : List Token}

theorem singleton (hproper : mark.Proper) (hfirst : mark ∉ equalsSigns)
    (hlast : mark ∉ openEnded) : Block [mark] where
  proper := List.forall_mem_singleton.mpr hproper
  apart := .singleton mark
  first := by
    rintro token ⟨⟩
    exact hfirst
  last := ⟨mark, rfl, hlast⟩

theorem apart_cons (hmark : mark.isNumeral = false) (hblock : Block tokens) :
    (mark :: tokens).IsChain Apart := by
  refine List.isChain_cons.mpr ⟨fun token htoken => ⟨fun hboth => ?_, fun hboth => ?_⟩, ?_⟩
  · rw [hmark] at hboth
    cases hboth.1
  · exact hblock.first token htoken hboth.2
  · exact hblock.apart

theorem exists_last_cons (mark : Token) (hblock : Block tokens) :
    ∃ token ∈ (mark :: tokens).getLast?, token ∉ openEnded := by
  obtain ⟨token, htoken, hlast⟩ := hblock.last
  refine ⟨token, ?_, hlast⟩
  rw [List.getLast?_cons, Option.mem_def.mp htoken]
  rfl

/-- One more token in front, which is not a numeral. -/
theorem cons (hproper : mark.Proper) (hmark : mark.isNumeral = false)
    (hfirst : mark ∉ equalsSigns) (hblock : Block tokens) : Block (mark :: tokens) where
  proper := List.forall_mem_cons.mpr ⟨hproper, hblock.proper⟩
  apart := hblock.apart_cons hmark
  first := by
    rintro token ⟨⟩
    exact hfirst
  last := hblock.exists_last_cons mark

/-- More tokens behind, the first of which is not a numeral. -/
theorem append (hblock : Block tokens) (hproper : ∀ token ∈ others, token.Proper)
    (hapart : others.IsChain Apart) (hhead : ∀ token ∈ others.head?, token.isNumeral = false)
    (hlast : ∃ token ∈ others.getLast?, token ∉ openEnded) : Block (tokens ++ others) where
  proper := List.forall_mem_append.mpr ⟨hblock.proper, hproper⟩
  apart := by
    refine List.isChain_append.mpr ⟨hblock.apart, hapart, fun token htoken next hnext => ?_⟩
    obtain ⟨last, hsome, hlast⟩ := hblock.last
    cases (Option.mem_unique htoken hsome : token = last)
    refine ⟨fun hboth => ?_, fun hboth => hlast hboth.1⟩
    rw [hhead next hnext] at hboth
    cases hboth.2
  first := by
    obtain ⟨last, hsome, _⟩ := hblock.last
    obtain ⟨first, rest, rfl⟩ := List.exists_cons_of_ne_nil (List.ne_nil_of_mem
      (List.mem_of_mem_getLast? hsome))
    exact hblock.first
  last := by
    obtain ⟨last, hsome, hlast⟩ := hlast
    refine ⟨last, ?_, hlast⟩
    rw [List.getLast?_append, Option.mem_def.mp hsome]
    rfl

/-- Two stretches with a token between them. -/
theorem join (hblock : Block tokens) (hproper : mark.Proper) (hmark : mark.isNumeral = false)
    (hothers : Block others) : Block (tokens ++ mark :: others) := by
  refine hblock.append ?_ (hothers.apart_cons hmark) ?_ (hothers.exists_last_cons mark)
  · exact List.forall_mem_cons.mpr ⟨hproper, hothers.proper⟩
  · rintro token ⟨⟩
    exact hmark

/-- A stretch between parentheses. -/
theorem parenthesized (hblock : Block tokens) :
    Block (.sign .open :: (tokens ++ [.sign .close])) := by
  refine (hblock.append ?_ (.singleton _) ?_ ⟨_, rfl, by decide⟩).cons trivial rfl (by decide)
  · exact List.forall_mem_singleton.mpr trivial
  · rintro token ⟨⟩
    rfl

end Block

theorem Comparison.proper_token (comparison : Comparison) : comparison.token.Proper := by
  cases comparison
  case contains => exact (by decide : Token.isName "contains" = true)
  case startsWith => exact (by decide : Token.isName "starts_with" = true)
  all_goals trivial

theorem Comparison.isNumeral_token (comparison : Comparison) :
    comparison.token.isNumeral = false := by
  cases comparison <;> rfl

theorem block_word {word : String} (hname : Token.isName word = true) : Block [.word word] := by
  refine .singleton hname ?_ ?_
  · simp [equalsSigns]
  · simp [openEnded]

theorem isName_truthWord (value : Bool) : Token.isName (truthWord value) = true := by
  cases value <;> decide

theorem Term.Spelled.block {t : Term} {tokens : List Token} (hspelled : t.Spelled tokens) :
    Block tokens := by
  induction hspelled with
  | field component => exact block_word (by cases component <;> decide)
  | call function hargument ih =>
      have hname : Token.isName function.name = true := by cases function <;> decide
      exact ih.parenthesized.cons hname rfl (by simp [equalsSigns])
  | int hnumeral => exact .singleton ⟨_, hnumeral⟩ (by simp [equalsSigns]) (by simp [openEnded])
  | bool value => exact block_word (isName_truthWord value)
  | text hquotes => exact .singleton hquotes (by simp [equalsSigns]) (by simp [openEnded])

theorem proper_of_mem {mark : Token} (hmark : mark ∈ notTokens ++ andTokens ++ orTokens) :
    mark.Proper ∧ mark.isNumeral = false ∧ mark ∉ equalsSigns := by
  simp only [notTokens, andTokens, orTokens, List.cons_append, List.nil_append, List.mem_cons,
    List.not_mem_nil, or_false] at hmark
  rcases hmark with rfl | rfl | rfl | rfl | rfl | rfl
  all_goals exact ⟨by trivial, rfl, by decide⟩

theorem Predicate.Spelled.block {place : Place} {p : Predicate} {tokens : List Token}
    (hspelled : Spelled place p tokens) : Block tokens := by
  induction hspelled with
  | constant value => exact block_word (isName_truthWord value)
  | compare comparison hleft hright =>
      exact hleft.block.join comparison.proper_token comparison.isNumeral_token hright.block
  | parenthesized hp ih => exact ih.parenthesized
  | not hmark hp ih =>
      obtain ⟨hproper, hnumeral, hequals⟩ := proper_of_mem (List.mem_append_left _
        (List.mem_append_left _ hmark))
      exact ih.cons hproper hnumeral hequals
  | operand hp ih => exact ih
  | and hmark hp hq ihp ihq =>
      obtain ⟨hproper, hnumeral, _⟩ := proper_of_mem (List.mem_append_left _
        (List.mem_append_right _ hmark))
      exact ihp.join hproper hnumeral ihq
  | conjunct hp ih => exact ih
  | or hmark hp hq ihp ihq =>
      obtain ⟨hproper, hnumeral, _⟩ := proper_of_mem (List.mem_append_right _ hmark)
      exact ihp.join hproper hnumeral ihq

/-- No numeral of a predicate is without a value. -/
theorem unreadable?_of_proper {tokens : List Token} (hproper : ∀ token ∈ tokens, token.Proper) :
    Token.unreadable? tokens = none := by
  induction tokens with
  | nil => rfl
  | cons token tokens ih =>
      obtain ⟨htoken, htokens⟩ := List.forall_mem_cons.mp hproper
      cases token with
      | numeral text =>
          obtain ⟨n, hnumeral⟩ := htoken
          rw [Token.unreadable?, hnumeral.numeralValue?_eq]
          exact ih htokens
      | word lower => exact ih htokens
      | quoted text => exact ih htokens
      | sign mark => exact ih htokens

/-! ## Every predicate can be spelled -/

/-- The terms that a source text can spell. -/
inductive Term.Plain : Term → Prop where
  | field (component : Component) : Plain (.field component)
  | call (function : Function) {argument : Term} (hargument : Plain argument) :
      Plain (.call function argument)
  | int (n : Int64) : Plain (.literal (.int n))
  | bool (value : Bool) : Plain (.literal (.bool value))
  | text {s : String} (hquotes : '"' ∉ s.toList ∨ '\'' ∉ s.toList) : Plain (.literal (.text s))

/-- The predicates that a source text can spell. -/
inductive Predicate.Plain : Predicate → Prop where
  | constant (value : Bool) : Plain (.constant value)
  | compare {left right : Term} (comparison : Comparison) (hleft : left.Plain)
      (hright : right.Plain) : Plain (.compare left comparison right)
  | not {p : Predicate} (hp : Plain p) : Plain (.not p)
  | and {p q : Predicate} (hp : Plain p) (hq : Plain q) : Plain (.and p q)
  | or {p q : Predicate} (hp : Plain p) (hq : Plain q) : Plain (.or p q)

theorem exists_isNumeral (n : Int64) : ∃ text, IsNumeral n text := by
  rcases Int.le_total 0 n.toInt with hn | hn
  · exact ⟨_, .natural 0 hn⟩
  · exact ⟨_, .negative 0 hn⟩

theorem Term.Plain.exists_spelled {t : Term} (hplain : t.Plain) : ∃ tokens, t.Spelled tokens := by
  induction hplain with
  | field component => exact ⟨_, .field component⟩
  | call function hargument ih =>
      obtain ⟨tokens, hspelled⟩ := ih
      exact ⟨_, .call function hspelled⟩
  | int n =>
      obtain ⟨text, hnumeral⟩ := exists_isNumeral n
      exact ⟨_, .int hnumeral⟩
  | bool value => exact ⟨_, .bool value⟩
  | text hquotes => exact ⟨_, .text hquotes⟩

/-- With parentheses around every part a predicate can stand anywhere. -/
theorem Predicate.Plain.exists_spelled {p : Predicate} (hplain : p.Plain) :
    ∃ tokens, Spelled .operand p tokens := by
  induction hplain with
  | constant value => exact ⟨_, .constant value⟩
  | compare comparison hleft hright =>
      obtain ⟨lefts, hlefts⟩ := hleft.exists_spelled
      obtain ⟨rights, hrights⟩ := hright.exists_spelled
      exact ⟨_, .compare comparison hlefts hrights⟩
  | not hp ih =>
      obtain ⟨tokens, hspelled⟩ := ih
      exact ⟨_, .not List.mem_cons_self hspelled⟩
  | and hp hq ihp ihq =>
      obtain ⟨lefts, hlefts⟩ := ihp
      obtain ⟨rights, hrights⟩ := ihq
      exact ⟨_, .parenthesized (.conjunct (.and List.mem_cons_self (.operand hlefts)
        (.operand hrights)))⟩
  | or hp hq ihp ihq =>
      obtain ⟨lefts, hlefts⟩ := ihp
      obtain ⟨rights, hrights⟩ := ihq
      exact ⟨_, .parenthesized (.or List.mem_cons_self (.conjunct (.operand hlefts))
        (.conjunct (.operand hrights)))⟩

namespace Token

theorem Proper.exists_spelled {token : Token} (hproper : token.Proper) :
    ∃ chars, token.Spelled chars := by
  cases token with
  | word lower => exact ⟨_, .word (map_toLower_of_isName hproper)⟩
  | numeral text => exact ⟨_, .numeral text⟩
  | quoted text =>
      rcases hproper with habsent | habsent
      · exact ⟨_, .quoted (.inl rfl) habsent⟩
      · exact ⟨_, .quoted (.inr rfl) habsent⟩
  | sign mark => exact ⟨_, .sign mark⟩

/-- With a blank in front of every token. -/
theorem exists_allSpelled {tokens : List Token} (hproper : ∀ token ∈ tokens, token.Proper) :
    ∃ chars, AllSpelled tokens chars ∧ ∀ c ∈ chars.head?, c = ' ' := by
  induction tokens with
  | nil => exact ⟨[], .nil (List.forall_mem_nil _), nofun⟩
  | cons token tokens ih =>
      obtain ⟨htoken, htokens⟩ := List.forall_mem_cons.mp hproper
      obtain ⟨cs, hcs⟩ := htoken.exists_spelled
      obtain ⟨rest, hrest, hblank⟩ := ih htokens
      have hspace : ∀ c ∈ [' '], isBlank c = true := List.forall_mem_singleton.mpr rfl
      refine ⟨[' '] ++ cs ++ rest, .cons hspace hcs hrest fun _ _ c hc => ?_, ?_⟩
      · rw [hblank c hc]
        rfl
      · rintro c ⟨⟩
        rfl

end Token

/-- There is a source text for every predicate, apart from those with literals that cannot be
written. -/
theorem Predicate.Plain.exists_spelledBy {p : Predicate} (hplain : p.Plain) :
    ∃ source, p.SpelledBy source := by
  obtain ⟨tokens, htokens⟩ := hplain.exists_spelled
  obtain ⟨chars, hchars, _⟩ := Token.exists_allSpelled htokens.block.proper
  refine ⟨String.ofList chars, tokens, .conjunct (.operand htokens), ?_⟩
  rwa [String.toList_ofList]

end OperationChain.Expression
