import OperationChain.Expression.Parser

/-! # Predicates as source text

How a predicate can be written down. As tokens, `not` binds tighter than `and`, and `and`
tighter than `or`; a predicate stands in parentheses where it has to, and where it likes.
As characters, words are in letters of either case, and blanks stand wherever two tokens
meet, but need to stand only where a word would run into the next one.
-/

namespace OperationChain.Expression

/-! ## Tokens -/

/-- A numeral of a whole number: its digits after any number of zeros, and a minus sign in
front of the number is negative. Zero can have the sign or not. -/
inductive IsNumeral (n : Int64) : String → Prop where
  | natural (zeros : Nat) (hn : 0 ≤ n.toInt) :
      IsNumeral n (String.ofList (List.replicate zeros '0' ++ Numeral.ofNat n.toInt.natAbs))
  | negative (zeros : Nat) (hn : n.toInt ≤ 0) :
      IsNumeral n
        (String.ofList ('-' :: (List.replicate zeros '0' ++ Numeral.ofNat n.toInt.natAbs)))

/-- The word for a truth value. -/
def truthWord (value : Bool) : String := if value then "true" else "false"

/-- The token for a comparison. -/
def Comparison.token : Comparison → Token
  | equal => .sign .equal
  | notEqual => .sign .notEqual
  | less => .sign .less
  | atMost => .sign .atMost
  | greater => .sign .greater
  | atLeast => .sign .atLeast
  | contains => .word "contains"
  | startsWith => .word "starts_with"

/-- The tokens for a negation. -/
def notTokens : List Token := [.sign .not, .word "not"]

/-- The tokens between the parts of a conjunction. -/
def andTokens : List Token := [.sign .and, .word "and"]

/-- The tokens between the parts of a disjunction. -/
def orTokens : List Token := [.sign .or, .word "or"]

/-- A term as tokens. A text has to lack one of the two quotes. -/
inductive Term.Spelled : Term → List Token → Prop where
  | field (component : Component) : Spelled (.field component) [.word component.key]
  | call (function : Function) {argument : Term} {tokens : List Token}
      (hargument : Spelled argument tokens) :
      Spelled (.call function argument)
        (.word function.name :: .sign .open :: (tokens ++ [.sign .close]))
  | int {n : Int64} {text : String} (hnumeral : IsNumeral n text) :
      Spelled (.literal (.int n)) [.numeral text]
  | bool (value : Bool) : Spelled (.literal (.bool value)) [.word (truthWord value)]
  | text {s : String} (hquotes : '"' ∉ s.toList ∨ '\'' ∉ s.toList) :
      Spelled (.literal (.text s)) [.quoted s]

/-- Where a predicate can stand without parentheses: at every place for predicates, also
beside an `and`, or even beside a `not`. -/
inductive Place where
  | anywhere | conjunct | operand

/-- A predicate as tokens, at such a place. -/
inductive Predicate.Spelled : Place → Predicate → List Token → Prop where
  | constant (value : Bool) : Spelled .operand (.constant value) [.word (truthWord value)]
  | compare {left right : Term} {lefts rights : List Token} (comparison : Comparison)
      (hleft : left.Spelled lefts) (hright : right.Spelled rights) :
      Spelled .operand (.compare left comparison right) (lefts ++ comparison.token :: rights)
  | parenthesized {p : Predicate} {tokens : List Token} (hp : Spelled .anywhere p tokens) :
      Spelled .operand p (.sign .open :: (tokens ++ [.sign .close]))
  | not {p : Predicate} {tokens : List Token} {mark : Token} (hmark : mark ∈ notTokens)
      (hp : Spelled .operand p tokens) : Spelled .operand (.not p) (mark :: tokens)
  | operand {p : Predicate} {tokens : List Token} (hp : Spelled .operand p tokens) :
      Spelled .conjunct p tokens
  | and {p q : Predicate} {lefts rights : List Token} {mark : Token} (hmark : mark ∈ andTokens)
      (hp : Spelled .conjunct p lefts) (hq : Spelled .conjunct q rights) :
      Spelled .conjunct (.and p q) (lefts ++ mark :: rights)
  | conjunct {p : Predicate} {tokens : List Token} (hp : Spelled .conjunct p tokens) :
      Spelled .anywhere p tokens
  | or {p q : Predicate} {lefts rights : List Token} {mark : Token} (hmark : mark ∈ orTokens)
      (hp : Spelled .anywhere p lefts) (hq : Spelled .anywhere q rights) :
      Spelled .anywhere (.or p q) (lefts ++ mark :: rights)

/-! ## Characters -/

/-- The characters of a sign. -/
def Sign.chars : Sign → List Char
  | .open => ['(']
  | .close => [')']
  | .comma => [',']
  | .assign => ['=']
  | .equal => ['=', '=']
  | .notEqual => ['!', '=']
  | .not => ['!']
  | .less => ['<']
  | .atMost => ['<', '=']
  | .greater => ['>']
  | .atLeast => ['>', '=']
  | .and => ['&', '&']
  | .or => ['|', '|']

namespace Token

/-- A token as characters. The letters of a word have either case, and a text stands between
two quotes of a kind that it does not contain. -/
inductive Spelled : Token → List Char → Prop where
  | word {lower : String} {cs : List Char} (hcase : cs.map Char.toLower = lower.toList) :
      Spelled (.word lower) cs
  | numeral (text : String) : Spelled (.numeral text) text.toList
  | quoted {text : String} {quote : Char} (hquote : quote = '"' ∨ quote = '\'')
      (habsent : quote ∉ text.toList) : Spelled (.quoted text) (quote :: (text.toList ++ [quote]))
  | sign (mark : Sign) : Spelled (.sign mark) mark.chars

/-- Tokens as characters, with blanks before, between and after them. What follows a word
directly is not a character of words. -/
inductive AllSpelled : List Token → List Char → Prop where
  | nil {blanks : List Char} (hblanks : ∀ c ∈ blanks, isBlank c = true) : AllSpelled [] blanks
  | cons {blanks cs rest : List Char} {token : Token} {tokens : List Token}
      (hblanks : ∀ c ∈ blanks, isBlank c = true) (htoken : token.Spelled cs)
      (hrest : AllSpelled tokens rest)
      (hword : ∀ lower, token = .word lower → ∀ c ∈ rest.head?, isWordChar c = false) :
      AllSpelled (token :: tokens) (blanks ++ cs ++ rest)

end Token

/-- The source text is a spelling of the predicate. -/
def Predicate.SpelledBy (p : Predicate) (source : String) : Prop :=
  ∃ tokens, Spelled .anywhere p tokens ∧ Token.AllSpelled tokens source.toList

end OperationChain.Expression
