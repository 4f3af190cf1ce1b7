import OperationChain.Number.Binary64
import OperationChain.Text.Numeral
import OperationChain.Value.Basic

/-! # Tokens of expressions

Source text as words, numerals, quoted texts and signs, with blanks between them
dropped. Words are compared in ASCII lower case. A numeral starts where a digit, or
a minus sign before one, starts; it may run directly into a word. A quoted text has
no escapes and ends at the next quote of its kind.
-/

namespace OperationChain.Expression

/-- A sign of the expression language. -/
inductive Sign where
  | open | close | comma | assign | equal | notEqual | not | less | atMost | greater | atLeast
  | and | or
  deriving DecidableEq, Repr

/-- A piece of source text. -/
inductive Token where
  | word (lower : String)
  | numeral (text : String)
  | quoted (text : String)
  | sign (mark : Sign)
  deriving DecidableEq, Repr

namespace Token

def isBlank (c : Char) : Bool := c == ' ' || c == '\t' || c == '\r' || c == '\n'

def isDigit (c : Char) : Bool := '0' ≤ c && c ≤ '9'

/-- Characters of words in ASCII. -/
def isWordChar (c : Char) : Bool :=
  ('a' ≤ c && c ≤ 'z') || ('A' ≤ c && c ≤ 'Z') || isDigit c || c == '_'

/-- The fraction that starts here: a point with digits after it. -/
def fraction : List Char → List Char
  | '.' :: rest =>
    match rest.takeWhile isDigit with
    | [] => []
    | digits => '.' :: digits
  | _ => []

/-- The unsigned numeral that starts here. -/
def unsigned (cs : List Char) : List Char :=
  let whole := cs.takeWhile isDigit
  whole ++ fraction (cs.drop whole.length)

/-- The sign that two characters make, or the first of them alone, and how many
characters it takes. -/
def sign? (c : Char) (next : Option Char) : Option (Sign × Nat) :=
  match c, next with
  | '=', some '=' => some (.equal, 2)
  | '!', some '=' => some (.notEqual, 2)
  | '<', some '=' => some (.atMost, 2)
  | '>', some '=' => some (.atLeast, 2)
  | '&', some '&' => some (.and, 2)
  | '|', some '|' => some (.or, 2)
  | '(', _ => some (.open, 1)
  | ')', _ => some (.close, 1)
  | ',', _ => some (.comma, 1)
  | '=', _ => some (.assign, 1)
  | '!', _ => some (.not, 1)
  | '<', _ => some (.less, 1)
  | '>', _ => some (.greater, 1)
  | _, _ => none

/-- The first token of characters that do not start with a blank, and how many
characters it takes after the first one. -/
def first? (c : Char) (rest : List Char) : Option (Token × Nat) :=
  if c == '"' || c == '\'' then
    let inner := rest.takeWhile (· != c)
    if inner.length < rest.length then some (.quoted (String.ofList inner), inner.length + 1)
    else none
  else if isDigit c then
    let cs := unsigned (c :: rest)
    some (.numeral (String.ofList cs), cs.length - 1)
  else if c == '-' then
    match unsigned rest with
    | [] => none
    | d :: digits =>
      if isDigit d then some (.numeral (String.ofList ('-' :: d :: digits)), digits.length + 1)
      else none
  else if isWordChar c then
    let cs := c :: rest.takeWhile isWordChar
    some (.word (String.ofList (cs.map Char.toLower)), cs.length - 1)
  else
    (sign? c rest.head?).map fun (found, length) => (.sign found, length - 1)

/-- The tokens of a source text, if all of it is made of tokens. -/
def ofChars? : List Char → Option (List Token)
  | [] => some []
  | c :: rest =>
    if isBlank c then ofChars? rest
    else do
      let (token, length) ← first? c rest
      let tokens ← ofChars? (rest.drop length)
      some (token :: tokens)
termination_by cs => cs.length
decreasing_by
  all_goals simp only [List.length_cons, List.length_drop]
  all_goals omega

/-- The value of a numeral: a word of 64 bits, or a floating point number if it has
a fraction. -/
def numeralValue? (text : String) : Option Value :=
  let cs := text.toList
  if cs.contains '.' then
    let (negative, cs) := match cs with
      | '-' :: rest => (true, rest)
      | rest => (false, rest)
    let whole := cs.takeWhile isDigit
    let places := cs.drop (whole.length + 1)
    (Numeral.nat? (whole ++ places)).map fun digits =>
      .float (Binary64.ofDecimal negative digits (-(places.length : Int)))
  else (Numeral.int64? text).map .int

/-- The first numeral that has no value. -/
def unreadable? : List Token → Option String
  | [] => none
  | numeral text :: rest => if (numeralValue? text).isNone then some text else unreadable? rest
  | _ :: rest => unreadable? rest

end Token

end OperationChain.Expression
