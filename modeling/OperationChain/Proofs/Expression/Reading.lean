import OperationChain.Extension.Loader
import OperationChain.Proofs.Expression.Blocks

/-! # Spelled predicates are read as these predicates

The reader of predicates is as loose as the place where it starts: it takes what stands there
without parentheses and leaves what follows. Chains of one connective are read from the right,
however the predicate was put together, so what is read is a predicate with the same value on
every row and not always the same tree.
-/

namespace OperationChain.Expression

/-! ## Terms -/

theorem wordTerm?_key (component : Component) :
    wordTerm? component.key = some (.field component) := by
  cases component <;> rfl

theorem wordTerm?_truthWord (value : Bool) :
    wordTerm? (truthWord value) = some (.literal (.bool value)) := by
  cases value <;> rfl

theorem functionOf?_name (function : Function) : functionOf? function.name = some function := by
  cases function <;> rfl

/-- A word that is not called is a term by itself. -/
theorem readTerm_word {word : String} {term : Term} (hword : wordTerm? word = some term)
    {rest : List Token} (hrest : .sign .open ∉ rest.head?) :
    readTerm (.word word :: rest) = some (term, rest) := by
  rw [readTerm, hword]
  · rfl
  · rintro after rfl
    exact hrest rfl

theorem Term.Spelled.readTerm {t : Term} {tokens : List Token} (hspelled : t.Spelled tokens)
    {rest : List Token} (hrest : .sign .open ∉ rest.head?) :
    Expression.readTerm (tokens ++ rest) = some (t, rest) := by
  induction hspelled generalizing rest with
  | field component => exact readTerm_word (wordTerm?_key component) hrest
  | call function hargument ih =>
      have hclose : (.sign .open : Token) ∉ (Token.sign .close :: rest).head? := by simp
      have hread := ih hclose
      rw [List.cons_append, List.cons_append, List.append_assoc, List.singleton_append,
        Expression.readTerm, functionOf?_name, hread]
  | int hnumeral =>
      rw [List.singleton_append, Expression.readTerm, hnumeral.numeralValue?_eq, Option.getD_some]
  | bool value => exact readTerm_word (wordTerm?_truthWord value) hrest
  | text hquotes => rfl

/-! ## Places -/

theorem isNot_iff {token : Token} : isNot token = true ↔ token ∈ notTokens := by
  simp [isNot, notTokens]

theorem isAnd_iff {token : Token} : isAnd token = true ↔ token ∈ andTokens := by
  simp [isAnd, andTokens]

theorem isOr_iff {token : Token} : isOr token = true ↔ token ∈ orTokens := by
  simp [isOr, orTokens]

/-- What starts these tokens is read as a predicate with the same value on every row, and
what follows is left. -/
def ReadsAs (read : List Token → Reading Predicate) (p : Predicate) (tokens rest : List Token) :
    Prop :=
  ∃ q, read tokens = some (q, rest) ∧ ∀ row, q.evaluate row = p.evaluate row

namespace Place

/-- The reader of what stands at a place. -/
def read : Place → List Token → Reading Predicate
  | anywhere => readDisjunction
  | conjunct => readConjunction
  | operand => readNegation

/-- The tokens that can follow what stands at a place, and do not belong to it. -/
def followers : Place → List Token
  | anywhere => [.sign .close]
  | conjunct => .sign .close :: orTokens
  | operand => .sign .close :: orTokens ++ andTokens

/-- What stands at the place is read up to a token that does not belong to it. -/
def Reads (place : Place) (p : Predicate) (tokens : List Token) : Prop :=
  ∀ rest : List Token, (∀ token ∈ rest.head?, token ∈ place.followers) →
    ReadsAs place.read p (tokens ++ rest) rest

/-- Readers of one place go on after these tokens, and join what they read by `join`. -/
structure Chains (inner outer : Place) (marks : List Token)
    (join : Predicate → Predicate → Predicate) : Prop where
  followers_subset : outer.followers ⊆ inner.followers
  marks_subset : marks ⊆ inner.followers
  disjoint : ∀ token ∈ outer.followers, token ∉ marks
  last : ∀ {tokens rest : List Token} {p : Predicate}, inner.read tokens = some (p, rest) →
    (∀ token ∈ rest.head?, token ∉ marks) → outer.read tokens = some (p, rest)
  more : ∀ {tokens rest : List Token} {p : Predicate} {mark : Token},
    inner.read tokens = some (p, mark :: rest) → mark ∈ marks → rest.length < tokens.length →
      outer.read tokens = (outer.read rest).map fun (q, after) => (join p q, after)
  congr : ∀ {p q p' q' : Predicate} {row : Row}, p.evaluate row = p'.evaluate row →
    q.evaluate row = q'.evaluate row → (join p q).evaluate row = (join p' q').evaluate row
  assoc : ∀ (p q r : Predicate) (row : Row),
    (join (join p q) r).evaluate row = (join p (join q r)).evaluate row

theorem chains_conjunction : Chains .operand .conjunct andTokens .and where
  followers_subset := by decide
  marks_subset := by decide
  disjoint := by decide
  last {tokens rest p} hread hrest := by
    change readNegation tokens = _ at hread
    rw [read, readConjunction, hread]
    cases rest with
    | nil => rfl
    | cons token rest => exact if_neg (mt isAnd_iff.mp (hrest token rfl))
  more {tokens rest p mark} hread hmark hless := by
    change readNegation tokens = _ at hread
    rw [read, readConjunction, hread]
    exact (if_pos (isAnd_iff.mpr hmark)).trans (if_pos hless)
  congr hp hq := congrArg₂ Bool.and hp hq
  assoc p q r row := Bool.and_assoc ..

theorem chains_disjunction : Chains .conjunct .anywhere orTokens .or where
  followers_subset := by decide
  marks_subset := by decide
  disjoint := by decide
  last {tokens rest p} hread hrest := by
    change readConjunction tokens = _ at hread
    rw [read, readDisjunction, hread]
    cases rest with
    | nil => rfl
    | cons token rest => exact if_neg (mt isOr_iff.mp (hrest token rfl))
  more {tokens rest p mark} hread hmark hless := by
    change readConjunction tokens = _ at hread
    rw [read, readDisjunction, hread]
    exact (if_pos (isOr_iff.mpr hmark)).trans (if_pos hless)
  congr hp hq := congrArg₂ Bool.or hp hq
  assoc p q r row := Bool.or_assoc ..

/-- What stands at the place is joined with whatever is read after it. -/
def Joins (place : Place) (marks : List Token) (join : Predicate → Predicate → Predicate)
    (p : Predicate) (tokens : List Token) : Prop :=
  ∀ mark ∈ marks, ∀ (other : Predicate) (more rest : List Token),
    ReadsAs place.read other more rest →
      ReadsAs place.read (join p other) (tokens ++ mark :: more) rest

/-- A chain that is followed by a chain is one chain. -/
theorem Joins.reads {place : Place} {marks : List Token}
    {join : Predicate → Predicate → Predicate} {p q : Predicate} {tokens others : List Token}
    (hp : place.Joins marks join p tokens) {mark : Token} (hmark : mark ∈ marks)
    (hq : place.Reads q others) : place.Reads (join p q) (tokens ++ mark :: others) := by
  intro rest hrest
  rw [List.append_assoc, List.cons_append]
  exact hp mark hmark q _ rest (hq rest hrest)

namespace Chains

variable {inner outer : Place} {marks : List Token} {join : Predicate → Predicate → Predicate}
  {p q : Predicate} {tokens others : List Token}

/-- What can stand at the inner place is a chain of one. -/
theorem reads (hchains : Chains inner outer marks join) (hreads : inner.Reads p tokens) :
    outer.Reads p tokens := by
  intro rest hrest
  obtain ⟨q, hread, hsame⟩ := hreads rest fun token htoken =>
    hchains.followers_subset (hrest token htoken)
  refine ⟨q, hchains.last hread fun token htoken => ?_, hsame⟩
  exact hchains.disjoint token (hrest token htoken)

theorem joins (hchains : Chains inner outer marks join) (hreads : inner.Reads p tokens) :
    outer.Joins marks join p tokens := by
  rintro mark hmark other more rest ⟨q, hmore, hq⟩
  obtain ⟨p', hread, hp⟩ := hreads (mark :: more) (by
    rintro token ⟨⟩
    exact hchains.marks_subset hmark)
  have hless : more.length < (tokens ++ mark :: more).length := by
    rw [List.length_append, List.length_cons]
    omega
  refine ⟨join p' q, ?_, fun row => hchains.congr (hp row) (hq row)⟩
  rw [hchains.more hread hmark hless, hmore]
  rfl

theorem joins_join (hchains : Chains inner outer marks join) {mark : Token} (hmark : mark ∈ marks)
    (hp : outer.Joins marks join p tokens) (hq : outer.Joins marks join q others) :
    outer.Joins marks join (join p q) (tokens ++ mark :: others) := by
  intro next hnext other more rest hmore
  obtain ⟨r, hread, hr⟩ := hp mark hmark _ _ rest (hq next hnext other more rest hmore)
  refine ⟨r, ?_, fun row => (hr row).trans (hchains.assoc p q other row).symm⟩
  rw [List.append_assoc, List.cons_append]
  exact hread

end Chains

end Place

/-! ## Predicates -/

theorem comparison?_token (comparison : Comparison) :
    comparison? comparison.token = some comparison := by
  cases comparison <;> rfl

theorem token_ne_open (comparison : Comparison) : comparison.token ≠ .sign .open := by
  cases comparison <;> decide

/-- What follows an operand is no comparison and calls no function. -/
theorem comparison?_of_follower {token : Token} (htoken : token ∈ Place.operand.followers) :
    comparison? token = none ∧ token ≠ .sign .open := by
  simp only [Place.followers, orTokens, andTokens, List.cons_append, List.nil_append,
    List.mem_cons, List.not_mem_nil, or_false] at htoken
  rcases htoken with rfl | rfl | rfl | rfl | rfl
  all_goals exact ⟨rfl, by decide⟩

theorem open_not_mem_head? {rest : List Token}
    (hrest : ∀ token ∈ rest.head?, token ∈ Place.operand.followers) :
    .sign .open ∉ rest.head? :=
  fun hopen => (comparison?_of_follower (hrest _ hopen)).2 rfl

/-- A term starts neither with a negation nor with a parenthesis. -/
theorem Term.Spelled.exists_cons {t : Term} {tokens : List Token} (hspelled : t.Spelled tokens) :
    ∃ token rest, tokens = token :: rest ∧ isNot token = false ∧ token ≠ .sign .open := by
  cases hspelled with
  | field component => cases component <;> exact ⟨_, _, rfl, by decide, by decide⟩
  | call function hargument => cases function <;> exact ⟨_, _, rfl, by decide, by decide⟩
  | int hnumeral => exact ⟨_, _, rfl, rfl, nofun⟩
  | bool value => cases value <;> exact ⟨_, _, rfl, by decide, by decide⟩
  | text hquotes => exact ⟨_, _, rfl, rfl, nofun⟩

/-- Where a term starts, an operand is read as a comparison. -/
theorem Term.Spelled.readNegation {t : Term} {tokens : List Token} (hspelled : t.Spelled tokens)
    (rest : List Token) :
    Expression.readNegation (tokens ++ rest) = readComparison (tokens ++ rest) := by
  obtain ⟨token, others, rfl, hnot, hopen⟩ := hspelled.exists_cons
  rw [List.cons_append, Expression.readNegation, hnot, if_neg Bool.false_ne_true, if_neg hopen]

theorem reads_constant (value : Bool) :
    Place.operand.Reads (.constant value) [.word (truthWord value)] := by
  intro rest hrest
  have hterm : Term.Spelled (.literal (.bool value)) [.word (truthWord value)] := .bool value
  refine ⟨.constant value, ?_, fun _ => rfl⟩
  have hcomparison : rest.head?.bind comparison? = none := by
    rw [Option.bind_eq_none_iff]
    exact fun token htoken => (comparison?_of_follower (hrest token htoken)).1
  rw [Place.read, hterm.readNegation, readComparison, hterm.readTerm (open_not_mem_head? hrest)]
  dsimp only
  rw [hcomparison]

theorem reads_compare {left right : Term} {lefts rights : List Token} (comparison : Comparison)
    (hleft : left.Spelled lefts) (hright : right.Spelled rights) :
    Place.operand.Reads (.compare left comparison right) (lefts ++ comparison.token :: rights) := by
  intro rest hrest
  refine ⟨.compare left comparison right, ?_, fun _ => rfl⟩
  have hopen : .sign .open ∉ (comparison.token :: (rights ++ rest)).head? :=
    fun hopen => token_ne_open comparison (Option.some.inj hopen)
  rw [Place.read, List.append_assoc, List.cons_append, hleft.readNegation, readComparison,
    hleft.readTerm hopen]
  dsimp only
  rw [List.head?_cons, Option.bind_some, comparison?_token, List.tail_cons,
    hright.readTerm (open_not_mem_head? hrest)]
  rfl

theorem reads_parenthesized {p : Predicate} {tokens : List Token}
    (hp : Place.anywhere.Reads p tokens) :
    Place.operand.Reads p (.sign .open :: (tokens ++ [.sign .close])) := by
  intro rest _
  obtain ⟨q, hread, hsame⟩ := hp (.sign .close :: rest) (by
    rintro token ⟨⟩
    exact List.mem_cons_self)
  change readDisjunction _ = _ at hread
  refine ⟨q, ?_, hsame⟩
  rw [Place.read, List.cons_append, List.append_assoc, List.singleton_append, readNegation,
    if_neg (by decide), if_pos rfl, hread]

theorem reads_not {p : Predicate} {tokens : List Token} {mark : Token} (hmark : mark ∈ notTokens)
    (hp : Place.operand.Reads p tokens) : Place.operand.Reads (.not p) (mark :: tokens) := by
  intro rest hrest
  obtain ⟨q, hread, hsame⟩ := hp rest hrest
  change readNegation _ = _ at hread
  refine ⟨.not q, ?_, fun row => congrArg Bool.not (hsame row)⟩
  rw [Place.read, List.cons_append, readNegation, if_pos (isNot_iff.mpr hmark), hread]
  rfl

open Place (chains_conjunction chains_disjunction)

/-- A chain at a place can be read alone, and in front of more of its kind. -/
def Place.ReadsChain (p : Predicate) (tokens : List Token) : Place → Prop
  | .operand => Place.operand.Reads p tokens
  | .conjunct => Place.conjunct.Reads p tokens ∧ Place.conjunct.Joins andTokens .and p tokens
  | .anywhere => Place.anywhere.Reads p tokens ∧ Place.anywhere.Joins orTokens .or p tokens

theorem Predicate.Spelled.readsChain {place : Place} {p : Predicate} {tokens : List Token}
    (hspelled : Spelled place p tokens) : place.ReadsChain p tokens := by
  induction hspelled with
  | constant value => exact reads_constant value
  | compare comparison hleft hright => exact reads_compare comparison hleft hright
  | parenthesized hp ih => exact reads_parenthesized ih.1
  | not hmark hp ih => exact reads_not hmark ih
  | operand hp ih => exact ⟨chains_conjunction.reads ih, chains_conjunction.joins ih⟩
  | and hmark hp hq ihp ihq =>
      exact ⟨ihp.2.reads hmark ihq.1, chains_conjunction.joins_join hmark ihp.2 ihq.2⟩
  | conjunct hp ih => exact ⟨chains_disjunction.reads ih.1, chains_disjunction.joins ih.1⟩
  | or hmark hp hq ihp ihq =>
      exact ⟨ihp.2.reads hmark ihq.1, chains_disjunction.joins_join hmark ihp.2 ihq.2⟩

/-! ## Source texts -/

/-- A token with no blank in front of it. -/
theorem Token.AllSpelled.flush {token : Token} {tokens : List Token} {cs rest : List Char}
    (htoken : token.Spelled cs) (hrest : AllSpelled tokens rest)
    (hword : ∀ lower, token = .word lower → ∀ c ∈ rest.head?, isWordChar c = false) :
    AllSpelled (token :: tokens) (cs ++ rest) :=
  @AllSpelled.cons [] _ _ _ _ (List.forall_mem_nil _) htoken hrest hword

/-- A source text that spells a predicate is read as one with the same value on every row. -/
theorem Predicate.SpelledBy.exists_parse {p : Predicate} {source : String}
    (hspelled : p.SpelledBy source) :
    ∃ q, Predicate.parse source = .ok q ∧ ∀ row, q.evaluate row = p.evaluate row := by
  obtain ⟨tokens, htokens, hchars⟩ := hspelled
  have hblock := htokens.block
  obtain ⟨q, hread, hsame⟩ := htokens.readsChain.1 [] nofun
  rw [List.append_nil] at hread
  change readDisjunction tokens = _ at hread
  refine ⟨q, ?_, hsame⟩
  rw [Predicate.parse, readAll, hchars.ofChars? hblock.proper hblock.apart]
  dsimp only
  rw [hread]
  dsimp only
  rw [unreadable?_of_proper hblock.proper]

end OperationChain.Expression

namespace OperationChain.Loader

open Expression (Predicate)
open Expression.Token (AllSpelled)

/-- The loader of expressions compiles every spelling of a predicate, and the filter accepts
the rows on which the predicate is true. -/
theorem accepts_of_spelledBy {p : Predicate} {source : String} (hspelled : p.SpelledBy source) :
    ∃ filter, expressions source .filter = .ok (.filter filter) ∧
      ∀ row, filter.accept row = some (p.evaluate row) := by
  obtain ⟨q, hparse, hsame⟩ := hspelled.exists_parse
  refine ⟨predicateFilter q, ?_, fun row => congrArg some (hsame row)⟩
  rw [expressions, hparse]
  rfl

/-- Hardly any two tokens of this source text have a blank between them. -/
theorem accepts_of_spelledBy_crowded :
    let p : Predicate :=
      .and (.not (.or (.compare (.field .ttl) .less (.literal (.int (-7))))
        (.compare (.field .name) .contains (.literal (.text "a\"b")))))
        (.constant true)
    let source := "!(TTL<-07||Name contains'a\"b')&&\ttrue"
    p.SpelledBy source ∧ ∃ filter, expressions source .filter = .ok (.filter filter) ∧
      ∀ row, filter.accept row = some (p.evaluate row) := by
  intro p source
  have hless : Predicate.Spelled .conjunct (.compare (.field .ttl) .less (.literal (.int (-7))))
      [.word "ttl", .sign .less, .numeral "-07"] :=
    .operand (.compare .less (.field .ttl) (.int (.negative 1 (by decide))))
  have hcontains : Predicate.Spelled .conjunct
      (.compare (.field .name) .contains (.literal (.text "a\"b")))
      [.word "name", .word "contains", .quoted "a\"b"] :=
    .operand (.compare .contains (.field .name) (.text (.inr (by decide))))
  have hnot : Predicate.Spelled .conjunct _ _ :=
    .operand (.not List.mem_cons_self
      (.parenthesized (.or List.mem_cons_self (.conjunct hless) (.conjunct hcontains))))
  have hp : Predicate.Spelled .anywhere p _ :=
    .conjunct (.and List.mem_cons_self hnot (.operand (.constant true)))
  have hend : AllSpelled [.sign .close, .sign .and, .word "true"] ")&&\ttrue".toList :=
    .flush (.sign .close) (.flush (.sign .and)
      (@AllSpelled.cons ['\t'] "true".toList [] _ _ (List.forall_mem_singleton.mpr rfl)
        (.word rfl) (.nil nofun) nofun) nofun) nofun
  have hname : AllSpelled
      [.word "name", .word "contains", .quoted "a\"b", .sign .close, .sign .and, .word "true"]
      ("Name".toList ++ " contains".toList ++ "'a\"b'".toList ++ ")&&\ttrue".toList) :=
    @AllSpelled.flush _ _ "Name".toList _ (.word rfl)
      (@AllSpelled.cons [' '] "contains".toList _ _ _ (List.forall_mem_singleton.mpr rfl)
        (.word rfl) (.flush (.quoted (.inr rfl) (by decide)) hend nofun)
        fun _ _ _ hc => Option.some.inj hc ▸ rfl)
      fun _ _ _ hc => Option.some.inj hc ▸ rfl
  have hinside : AllSpelled _ "TTL<-07||Name contains'a\"b')&&\ttrue".toList :=
    @AllSpelled.flush (.word "ttl") _ "TTL".toList _ (.word rfl)
      (.flush (.sign .less) (.flush (.numeral "-07") (.flush (.sign .or) hname nofun) nofun) nofun)
      fun _ _ _ hc => Option.some.inj hc ▸ rfl
  have hsource : AllSpelled _ "!(TTL<-07||Name contains'a\"b')&&\ttrue".toList :=
    .flush (.sign .not) (.flush (.sign .open) hinside nofun) nofun
  have hspelled : p.SpelledBy source := ⟨_, hp, hsource⟩
  exact ⟨hspelled, accepts_of_spelledBy hspelled⟩

end OperationChain.Loader
